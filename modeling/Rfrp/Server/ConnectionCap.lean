import Rfrp.Server.Delivery
import Rfrp.Server.RoutingTable

/-!
# The cap on external connections

The read task holds the permit of its connection, and the write task may outlive it. So the cap
bounds the connections whose read task runs. Whole connections stay within it exactly as long as a
permit is granted only while more permits are free than write tasks linger.
-/

namespace Rfrp

namespace Conn

/-- The tasks were spawned and hold some half of the socket. -/
def served (c : Conn) : Bool := c.reader ≠ .unspawned ∧ c.isOpen

/-- The write task has outlived the read task and its permit. -/
def lingers (c : Conn) : Bool := c.reader = .done ∧ c.writer ≠ .done

theorem receding_served : Receding served where
  waiting := fun c unspawned => by simp [served, unspawned]
  active := fun c spawned live => by simp [served, isOpen, spawned, live]
  step := fun move => by
    unfold served isOpen
    rcases step_reader move with ⟨reader, -⟩ | ⟨old, -⟩ | ⟨old, -⟩
    · rcases step_writer move with writer | ⟨-, live, -⟩ <;> simp_all
    · simp [old]
    · simp [old]
  send := fun sent => by
    obtain ⟨-, -, rfl⟩ := send_eq_some sent
    exact id
  drop := fun c => by simp [served, isOpen, drop]

end Conn

theorem Endpoint.tally_served (e : Endpoint UInt16) (m : Nat) :
    e.tally Conn.served m = e.tally Conn.holdsPermit m + e.tally Conn.lingers m := by
  unfold tally
  apply Slots.countP_split
  intro l
  by_cases own : l.map = m
  · cases reader : l.conn.reader <;> cases writer : l.conn.writer <;>
      simp [Conn.served, Conn.holdsPermit, Conn.lingers, Conn.isOpen, own, reader, writer]
  · simp [own]

namespace Server

open Transition Endpoint

variable {s s' : Server} {a : ServerAct}

structure Capped (s : Server) : Prop where
  served : ∀ m, s.endpoint.tally Conn.served m ≤ maxConcurrentExternalConns
  waiting : ∀ (n k : Nat) (l l' : Link UInt16), s.endpoint.links[n]? = some l →
    s.endpoint.links[k]? = some l' → l.map = l'.map → l.waiting = true → l'.waiting = true → n = k

/-- A permit is granted only while more permits are free than write tasks linger. -/
def grants (s : Server) : ServerAct → Bool
  | .acquire r => s.tasks[r]?.all fun t =>
      s.endpoint.tally Conn.lingers t.routing < maxConcurrentExternalConns - s.permitsTaken t
  | _ => true

theorem Reachable.one_waiting (reach : s.Reachable) (n k : Nat) (l l' : Link UInt16)
    (here : s.endpoint.links[n]? = some l) (here' : s.endpoint.links[k]? = some l')
    (map : l.map = l'.map) (waiting : l.waiting = true) (waiting' : l'.waiting = true) : n = k := by
  obtain ⟨t, task, pc⟩ := reach.accepted.waiting n l here waiting
  obtain ⟨t', task', pc'⟩ := reach.accepted.waiting k l' here' waiting'
  rw [map] at task
  cases task.symm.trans task'
  rw [pc] at pc'
  exact RegPc.acquiring.inj pc'

theorem grants_acquire {r : Nat} {t : RegTask} (here : s.tasks[r]? = some t) :
    s.grants (.acquire r) = true ↔
      s.endpoint.tally Conn.served t.routing < maxConcurrentExternalConns := by
  rw [tally_served, ← permitsTaken_eq]
  simp only [grants, here, Option.all_some]
  rw [decide_eq_true_iff]
  omega

theorem Capped.step (capped : s.Capped) (reach : s.Reachable) (move : s.step a = some s') :
    s'.Capped ↔ s.grants a = true := by
  have after : s'.Reachable := by
    obtain ⟨sndBuf, run⟩ := reach
    exact ⟨sndBuf, run.tail trivial move⟩
  rcases tally_of_step Conn.receding_served reach (moves_of_step move) with
    ⟨other, fewer⟩ | ⟨r, t, rfl, here, -, counted⟩
  · have granted : s.grants a = true := by
      cases a with
      | acquire r => exact absurd rfl (other r)
      | _ => rfl
    exact ⟨fun _ => granted, fun _ =>
      ⟨fun m => (fewer m).trans (capped.served m), after.one_waiting⟩⟩
  · rw [grants_acquire here]
    constructor
    · intro within
      have bound := within.served t.routing
      rw [counted, if_pos rfl] at bound
      exact bound
    · intro free
      refine ⟨fun m => ?_, after.one_waiting⟩
      rw [counted]
      by_cases own : t.routing = m
      · subst own
        rw [if_pos rfl]
        exact free
      · rw [if_neg own]
        exact capped.served m

theorem connection_cap (sndBuf : Nat) (s : Server)
    (run : Run step (fun s a => s.grants a) (start sndBuf) s) :
    s.Capped ∧ ∀ a s', s.step a = some s' → (s'.Capped ↔ s.grants a = true) := by
  have capped : s.Capped := by
    refine run.induct (P := Capped) ⟨fun _ => Nat.zero_le _, fun _ _ _ _ here => ?_⟩ ?_
    · simp [start, Endpoint.spawn] at here
    · intro s a s' before ih granted move
      exact (ih.step ⟨sndBuf, before.reach⟩ move).mpr granted
  exact ⟨capped, fun a s' move => capped.step ⟨sndBuf, run.reach⟩ move⟩

theorem connection_cap_user : ∃ s : Server, Reach step (start 8) s ∧
    s.endpoint.tally Conn.served 0 = 1 ∧ s.Capped := by
  have view : (exec (guarded step fun s a => s.grants a) (start 8) (firstVisit.take 9)).map
      (fun s => s.endpoint.tally Conn.served 0) = some 1 := by decide
  obtain ⟨s, moved, count⟩ := Option.map_eq_some_iff.mp view
  have run := run_of_exec _ moved
  exact ⟨s, run.reach, count, (connection_cap 8 s run).1⟩

/-! ## Users that stop reading -/

/-- A user that half-closes and reads nothing of the answer: the write task hangs in its flush. -/
def stuck : Conn where
  inbound := .empty
  eof := true
  reads := []
  reader := .done
  chan := ⟨[[0, 0]], 1, Nat.le_refl 1⟩
  held := [0]
  written := [[0, 0]]
  outbound := ⟨[0], 0, Nat.zero_le _⟩
  sndBuf := 1
  writer := .flushing

def answered : Conn := { (Conn.fresh 1).spawn with chan := ⟨[[0, 0]], 0, Nat.zero_le _⟩ }

def crowd (c : UInt64) (map : DashMap UInt64 Nat) (log : List RfrpFrame)
    (links : List (Link UInt16)) : Server where
  main := .reading
  received := log
  nextProxyId := 1
  proxyRouting := DashMap.empty.insert 0 0
  cachedRouting := some (0, 0)
  tasks := [⟨sshClient, 0, 0, .accepting, c, 0, false⟩]
  endpoint :=
    { tunnel :=
        { chan := ⟨[.newRegAckFrame sshClient true 0], 0, Nat.zero_le _⟩
          task := .receiving
          wire := .empty
          sndBuf := 8
          aborted := false }
      maps := [map]
      links }

def enter (c : UInt64) : List ServerAct :=
  [.connect 0, .accept 0 1, .acquire 0, .recv (.data ⟨c, 0, [0, 0]⟩), .route]

def hang : List ConnAct :=
  [.recv, .push 1, .writeDone, .test, .peerShutdown, .readEof]

def clean (n : Nat) : List ServerAct := [.endpoint (.remove n), .endpoint (.finish n)]

section
variable (c : UInt64) (map : DashMap UInt64 Nat) (log : List RfrpFrame)
  {links : List (Link UInt16)}

theorem enter_exec (left : ∀ l ∈ links, l.conn.reader = .done) :
    exec step (crowd c map log links) (enter c) =
      some (crowd (c + 1) (map.insert c links.length) (log ++ [.data ⟨c, 0, [0, 0]⟩])
        (links ++ [visitor c answered])) := by
  have free : links.countP (fun l => decide (l.map = 0) &&
      (!decide (l.conn.reader = .unspawned) && !decide (l.conn.reader = .done))) = 0 := by
    apply List.countP_eq_zero.mpr
    intro l mem
    simp [left l mem]
  simp [exec, enter, crowd, visitor, step, setTask, acceptConn, RegTask.bound, Endpoint.addLink,
    Endpoint.setLink, Link.setConn, permitsTaken, Link.holdsPermit, Conn.fresh, Conn.spawn, free,
    maxConcurrentExternalConns, handleFrame, routingFor, Endpoint.lookup, Endpoint.deliver,
    Conn.send, Conn.closed, channelCapacity, sshClient]
  rfl

theorem conns_exec (i : UInt64) (entered : map i = some links.length) {conn conn' : Conn}
    (acts : List ConnAct) (moved : exec (Conn.step true) conn acts = some conn') :
    exec step (crowd c map log (links ++ [visitor i conn]))
      (acts.map fun a => .endpoint (.conn links.length a)) =
      some (crowd c map log (links ++ [visitor i conn'])) := by
  induction acts generalizing conn with
  | nil =>
      cases moved
      rfl
  | cons a acts ih =>
      obtain ⟨next, move, rest⟩ := Option.bind_eq_some_iff.mp moved
      have here : (links ++ [visitor i conn])[links.length]? = some (visitor i conn) := by simp
      have alive : (crowd c map log (links ++ [visitor i conn])).endpoint.senders
          (crowd c map log (links ++ [visitor i conn])).owners links.length = true := by
        simp [crowd, visitor, senders, owners, running, mapAlive, Endpoint.lookup, entered]
      have one : step (crowd c map log (links ++ [visitor i conn]))
          (.endpoint (.conn links.length a)) =
          some (crowd c map log (links ++ [visitor i next])) := by
        simp only [step, Endpoint.step, alive]
        simp [crowd, visitor, move, Endpoint.setLink, Link.setConn]
      exact Option.bind_eq_some_iff.mpr ⟨_, one, ih rest⟩

variable (links) in
theorem clean_exec (i : UInt64) (conn : Conn) (left : conn.reader = .cleanup) :
    exec step (crowd c map log (links ++ [visitor i conn])) (clean links.length) =
      some (crowd c (map.remove i) log (links ++ [visitor i { conn with reader := .done }])) := by
  simp [exec, clean, crowd, visitor, step, Endpoint.step, Endpoint.setLink, Link.setReader, left]

end

theorem hang_exec :
    exec (Conn.step true) answered hang = some { stuck with reader := .cleanup } := rfl

def crowdLinks (k : Nat) : List (Link UInt16) :=
  (List.range k).map fun i => visitor (UInt64.ofNat i) stuck

theorem crowds (k : Nat) :
    ∃ map log, Reach step (start 8) (crowd (UInt64.ofNat k) map log (crowdLinks k)) := by
  induction k with
  | zero =>
      have opened : exec step (start 8) [.recv (.register sshClient), .bind 0 true, .answer 0,
          .recv (.data ⟨0, 0, []⟩)] = some (crowd 0 .empty _ []) := rfl
      exact ⟨_, _, reach_of_exec _ opened⟩
  | succ k ih =>
      obtain ⟨map, log, run⟩ := ih
      have left : ∀ l ∈ crowdLinks k, l.conn.reader = .done := by
        intro l mem
        obtain ⟨i, -, rfl⟩ := List.mem_map.mp mem
        rfl
      have next : UInt64.ofNat k + 1 = UInt64.ofNat (k + 1) := (UInt64.ofNat_add k 1).symm
      have more : crowdLinks k ++ [visitor (UInt64.ofNat k) stuck] = crowdLinks (k + 1) := by
        simp [crowdLinks, List.range_succ]
      generalize crowdLinks k = links at *
      have entered : map.insert (UInt64.ofNat k) links.length (UInt64.ofNat k) = some links.length :=
        DashMap.insert_self
      have come := reach_of_exec _ (enter_exec (UInt64.ofNat k) map log left)
      have stay := reach_of_exec _ (conns_exec (UInt64.ofNat k + 1) _
        (log ++ [.data ⟨UInt64.ofNat k, 0, [0, 0]⟩]) (UInt64.ofNat k) entered hang hang_exec)
      have go := reach_of_exec _ (clean_exec (UInt64.ofNat k + 1)
        (map.insert (UInt64.ofNat k) links.length) (log ++ [.data ⟨UInt64.ofNat k, 0, [0, 0]⟩])
        links (UInt64.ofNat k) { stuck with reader := .cleanup } rfl)
      have all := run.trans (come.trans (stay.trans go))
      rw [next] at all
      rw [← more]
      exact ⟨_, _, all⟩

theorem crowd_served (c : UInt64) (map : DashMap UInt64 Nat) (log : List RfrpFrame) (k : Nat) :
    (crowd c map log (crowdLinks k)).endpoint.tally Conn.served 0 = k := by
  have length : (crowdLinks k).length = k := by simp [crowdLinks]
  show (crowdLinks k).countP (fun l => l.map = 0 ∧ l.conn.served) = k
  rw [List.countP_eq_length.mpr, length]
  intro l mem
  obtain ⟨i, -, rfl⟩ := List.mem_map.mp mem
  rfl

theorem cap_exceeded : ¬ ∀ (sndBuf : Nat) (s : Server), Reach step (start sndBuf) s → s.Capped := by
  intro claim
  obtain ⟨map, log, run⟩ := crowds (maxConcurrentExternalConns + 1)
  have within := (claim 8 _ run).served 0
  rw [crowd_served] at within
  exact Nat.not_succ_le_self _ within

end Server

end Rfrp
