import Rfrp.Server.Quiescence

/-!
# The routing table of a proxy

While the session runs, the table of a proxy holds exactly the accepted connections whose read task
has not cleaned up yet, each under its own id. A connection is entered before its permit is
obtained and removed before the permit is released, so the table holds at most one connection more
than there are permits.
-/

namespace Rfrp

namespace Conn

variable {c c' : Conn} {a : ConnAct} {senders : Bool} {data : Bytes}

/-- A property that the two tasks of a connection have from their spawn on until it ends for good. -/
structure Receding (q : Conn → Bool) : Prop where
  waiting : ∀ c : Conn, c.reader = .unspawned → q c = false
  active : ∀ c : Conn, c.reader ≠ .unspawned → c.reader ≠ .done → q c = true
  step : ∀ {c c' : Conn} {a : ConnAct} {senders : Bool}, c.step senders a = some c' →
    q c' = true → q c = true
  send : ∀ {c c' : Conn} {data : Bytes}, c.send data = some c' → q c' = true → q c = true
  drop : ∀ c : Conn, q c.drop = false

def holdsPermit (c : Conn) : Bool := c.reader ≠ .unspawned ∧ c.reader ≠ .done

theorem receding_holdsPermit : Receding holdsPermit where
  waiting := fun c unspawned => by simp [holdsPermit, unspawned]
  active := fun c spawned live => by simp [holdsPermit, spawned, live]
  step := fun move => by
    unfold holdsPermit
    rcases step_reader move with ⟨same, -⟩ | ⟨old, -⟩ | ⟨old, -⟩ <;> simp_all
  send := fun sent => by
    obtain ⟨-, -, rfl⟩ := send_eq_some sent
    exact id
  drop := fun c => by simp [holdsPermit, drop]

end Conn

namespace Endpoint

variable {q : Conn → Bool} {o : Owners} {e e' : Endpoint UInt16} {a : EndpointAct} {n : Nat}
  {l l' : Link UInt16}

/-- The connections of a proxy with a property. -/
def tally (q : Conn → Bool) (e : Endpoint UInt16) (m : Nat) : Nat :=
  e.links.countP fun l => l.map = m ∧ q l.conn

def permits (e : Endpoint UInt16) (m : Nat) : Nat :=
  e.links.countP fun l => l.map = m ∧ l.holdsPermit

theorem tally_setLink (m : Nat) (here : e.links[n]? = some l) (ident : l'.ident = l.ident)
    (kept : q l'.conn = true → q l.conn = true) : (e.setLink n l').tally q m ≤ e.tally q m := by
  apply Slots.countP_set_le _ here
  simp only [Link.ident, Prod.mk.injEq] at ident
  simp only [decide_eq_true_eq, ident.2.2.2]
  exact fun h => ⟨h.1, kept h.2⟩

theorem tally_step (receding : Conn.Receding q) (h : e.step o a = some e') (m : Nat) :
    e'.tally q m ≤ e.tally q m := by
  have active : ∀ {l : Link UInt16} {r : ReadTask}, l.conn.reader = r → r ≠ .unspawned →
      r ≠ .done → q l.conn = true := by
    rintro l r rfl spawned live
    exact receding.active _ spawned live
  cases moves_of_step h with
  | writer => exact Nat.le_refl _
  | conn here move => exact tally_setLink m here rfl (receding.step move)
  | sendData here hand =>
      exact tally_setLink (e := { e with tunnel := _ }) m here rfl
        fun _ => active hand (by simp) (by simp)
  | sendDataErr here hand =>
      exact tally_setLink m here rfl fun _ => active hand (by simp) (by simp)
  | remove here left =>
      exact tally_setLink (e := { e with maps := _ }) m here rfl
        fun _ => active left (by simp) (by simp)
  | finish here left =>
      exact tally_setLink m here rfl fun _ => active left (by simp) (by simp)

end Endpoint

namespace Server

open Transition Endpoint

variable {q : Conn → Bool} {s s' : Server} {a : ServerAct} {r n : Nat} {t : RegTask}
  {l : Link UInt16}

theorem permitsTaken_eq (s : Server) (t : RegTask) :
    s.permitsTaken t = s.endpoint.tally Conn.holdsPermit t.routing := rfl

theorem tally_of_acquire (receding : Conn.Receding q) (reach : s.Reachable)
    (here : s.tasks[r]? = some t) (pc : t.pc = .acquiring n)
    (link : s.endpoint.links[n]? = some l) (m : Nat) :
    (s.endpoint.setLink n (l.setConn l.conn.spawn)).tally q m =
      s.endpoint.tally q m + if t.routing = m then 1 else 0 := by
  obtain ⟨k, found, map, waiting⟩ := reach.accepted.waits r n t here pc
  cases link.symm.trans found
  have before : q l.conn = false := receding.waiting _ (of_decide_eq_true waiting)
  have after : q l.conn.spawn = true :=
    receding.active _ (by simp [Conn.spawn]) (by simp [Conn.spawn])
  have routing : t.routing = l.map := (reach.booked.task r t here).2.trans map.symm
  have change := Slots.countP_set (b := l.setConn l.conn.spawn)
    (fun l : Link UInt16 => l.map = m ∧ q l.conn) link
  rw [routing]
  unfold tally
  simpa [Link.setConn, before, after] using change

theorem tally_of_step (receding : Conn.Receding q) (reach : s.Reachable) (h : Moves s a s') :
    ((∀ r, a ≠ .acquire r) ∧ ∀ m, s'.endpoint.tally q m ≤ s.endpoint.tally q m) ∨
      ∃ r t, a = .acquire r ∧ s.tasks[r]? = some t ∧
        s.permitsTaken t < maxConcurrentExternalConns ∧
        ∀ m, s'.endpoint.tally q m = s.endpoint.tally q m + if t.routing = m then 1 else 0 := by
  cases h with
  | reply _ sent | answer _ _ sent =>
      obtain ⟨-, rfl⟩ := enqueue_eq_some sent
      exact Or.inl ⟨by simp, fun _ => Nat.le_refl _⟩
  | route _ sent =>
      obtain ⟨l, here, sent⟩ := Option.bind_eq_some_iff.mp sent
      obtain ⟨conn, handed, rfl⟩ := Option.map_eq_some_iff.mp sent
      exact Or.inl ⟨by simp, fun m => tally_setLink m here rfl (receding.send handed)⟩
  | accept =>
      have fresh : ∀ sndBuf, q (.fresh sndBuf) = false := fun _ => receding.waiting _ rfl
      exact Or.inl ⟨by simp, fun m => by simp [tally, acceptConn, Endpoint.addLink, fresh]⟩
  | acquire here pc link free =>
      exact Or.inr ⟨_, _, rfl, here, free, tally_of_acquire receding reach here pc link⟩
  | @cancelWaiting r n t l _ _ _ link =>
      refine Or.inl ⟨by simp, fun m => tally_setLink m link rfl fun holds => ?_⟩
      have dropped := receding.drop l.conn
      exact absurd holds (by simp [Link.setConn, dropped])
  | endpoint move => exact Or.inl ⟨by simp, tally_step receding move⟩
  | _ => exact Or.inl ⟨by simp, fun _ => Nat.le_refl _⟩

theorem Reachable.permits_le (reach : s.Reachable) (m : Nat) :
    s.endpoint.permits m ≤ maxConcurrentExternalConns := by
  refine reach.induct (P := fun s => ∀ m, s.endpoint.permits m ≤ maxConcurrentExternalConns)
    (fun _ _ => Nat.zero_le _) (fun s a s' before ih move m => ?_) m
  rcases tally_of_step Conn.receding_holdsPermit before move with
    ⟨-, fewer⟩ | ⟨r, t, -, -, free, counted⟩
  · exact (fewer m).trans (ih m)
  · have count := counted m
    rw [permitsTaken_eq] at free
    by_cases own : t.routing = m
    · subst own
      rw [if_pos rfl] at count
      exact count.trans_le free
    · rw [if_neg own] at count
      exact count.trans_le (ih m)

theorem Accepted.distinct (acc : s.Accepted) (few : ∀ r, s.accepted r < 2 ^ 64) :
    s.endpoint.Distinct :=
  fun _ _ _ _ here here' map connId => acc.unique here' here (few _) map connId

theorem Reachable.findable (reach : s.Reachable) (running : s.running = true)
    (few : ∀ r, s.accepted r < 2 ^ 64) : s.endpoint.Findable := by
  refine reach.induct (P := fun s => s.running = true → (∀ r, s.accepted r < 2 ^ 64) →
    s.endpoint.Findable) (fun _ _ _ => by simp [start, Endpoint.spawn, Findable]) ?_ running few
  intro s a s' before ih move running few
  have old := running_of_step move running
  have less := fun r => Nat.lt_of_le_of_lt (accepted_mono before move r) (few r)
  have after : s'.Accepted := before.accepted.step before.booked move
  refine (ih old less).evolves id (after.distinct few) ?_ (step_endpoint before move)
  exact fun l new => (entered_new before.booked move new).1

theorem Reachable.lookup_iff (reach : s.Reachable) (running : s.running = true)
    (few : ∀ r, s.accepted r < 2 ^ 64) (m : Nat) (c : UInt64) (n : Nat) :
    s.endpoint.lookup m c = some n ↔
      ∃ l, s.endpoint.links[n]? = some l ∧ l.map = m ∧ l.connId = c ∧ l.attached = true := by
  constructor
  · intro entry
    obtain ⟨l, here, rfl, rfl⟩ := reach.mapped m c n entry
    refine ⟨l, here, rfl, rfl, ?_⟩
    by_contra gone
    exact reach.detached running n l here (by simpa using gone) entry
  · rintro ⟨l, here, rfl, rfl, there⟩
    exact reach.findable running few n l here there

theorem gone_of_run (reach : s.Reachable) (run : Reach step s s')
    (here : s.endpoint.links[n]? = some l) (gone : l.attached = false) :
    ∃ l', s'.endpoint.links[n]? = some l' ∧ l'.ident = l.ident ∧ l'.attached = false := by
  obtain ⟨sndBuf, before⟩ := reach
  apply run.induct
  · exact ⟨l, here, rfl, gone⟩
  · intro t a u between ⟨l', here', ident, gone'⟩ _ step
    have evolves := step_endpoint ⟨sndBuf, before.trans between⟩ (moves_of_step step)
    obtain ⟨l'', here'', ident', gone''⟩ := evolves.gone here' gone'
    exact ⟨l'', here'', ident'.trans ident, gone''⟩

theorem Reachable.removed (reach : s.Reachable) (run : Reach step s s')
    (running' : s'.running = true) (few : ∀ r, s'.accepted r < 2 ^ 64)
    (here : s.endpoint.links[n]? = some l) (gone : l.attached = false) :
    s'.endpoint.lookup l.map l.connId = none := by
  have after : s'.Reachable := by
    obtain ⟨sndBuf, before⟩ := reach
    exact ⟨sndBuf, before.trans run⟩
  obtain ⟨l', here', ident, gone'⟩ := gone_of_run reach run here gone
  simp only [Link.ident, Prod.mk.injEq] at ident
  apply Option.eq_none_iff_forall_ne_some.mpr
  intro m entry
  obtain ⟨k, there, map, connId, attached⟩ := (after.lookup_iff running' few _ _ _).mp entry
  have same := after.accepted.distinct few m n k l' there here'
    (map.trans ident.2.2.2.symm) (connId.trans ident.2.2.1.symm)
  subst same
  cases there.symm.trans here'
  rw [attached] at gone'
  cases gone'

theorem Reachable.cleanup (reach : s.Reachable) (running : s.running = true)
    (few : ∀ r, s.accepted r < 2 ^ 64) (h : s.step (.endpoint (.remove n)) = some s') :
    ∃ l, s.endpoint.links[n]? = some l ∧ s.endpoint.lookup l.map l.connId = some n ∧
      s'.endpoint.lookup l.map l.connId = none ∧
      ∀ m c, ¬ (m = l.map ∧ c = l.connId) → s'.endpoint.lookup m c = s.endpoint.lookup m c := by
  obtain ⟨endpoint, move, rfl⟩ := Option.map_eq_some_iff.mp h
  cases Endpoint.moves_of_step move with
  | @remove _ l here left =>
      have there : l.attached = true := by simp [Link.attached, left]
      refine ⟨l, here, reach.findable running few n l here there, ?_, ?_⟩
      · apply Option.eq_none_iff_forall_ne_some.mpr
        intro m entry
        exact (lookup_modify_remove entry).2 ⟨rfl, rfl⟩
      · intro m c other
        exact lookup_modify fun same map => DashMap.remove_ne fun eq => other ⟨same, eq⟩

def waitingId (s : Server) (t : RegTask) : List UInt64 :=
  match t.pc with
  | .acquiring n => (s.endpoint.links[n]?.map Link.connId).toList
  | _ => []

theorem waitingId_length (s : Server) (t : RegTask) : (s.waitingId t).length ≤ 1 := by
  unfold waitingId
  split
  · exact Option.length_toList_le
  · exact Nat.zero_le _

theorem Reachable.table_le (reach : s.Reachable) (running : s.running = true)
    (few : ∀ r, s.accepted r < 2 ^ 64) (here : s.tasks[r]? = some t) {ids : List UInt64}
    (distinct : ids.Nodup) (listed : ∀ c ∈ ids, (s.endpoint.lookup t.routing c).isSome) :
    ids.length ≤ maxConcurrentExternalConns + 1 := by
  have subset : ids ⊆ ((s.endpoint.links.filter fun l => l.map = t.routing ∧ l.holdsPermit).map
      Link.connId) ++ s.waitingId t := by
    intro c mem
    obtain ⟨n, entry⟩ := Option.isSome_iff_exists.mp (listed c mem)
    obtain ⟨l, link, map, rfl, there⟩ := (reach.lookup_iff running few _ _ _).mp entry
    apply List.mem_append.mpr
    by_cases waiting : l.waiting = true
    · obtain ⟨u, task, pc⟩ := reach.accepted.waiting n l link waiting
      rw [map, (reach.booked.task r t here).2] at task
      cases here.symm.trans task
      exact Or.inr (by simp [waitingId, pc, link])
    · refine Or.inl (List.mem_map.mpr ⟨l, List.mem_filter.mpr ⟨List.mem_of_getElem? link, ?_⟩, rfl⟩)
      unfold Link.attached at there
      unfold Link.waiting at waiting
      unfold Link.holdsPermit
      cases reader : l.conn.reader <;> simp_all
  have count := (List.subperm_of_subset distinct subset).length_le
  have holding : s.endpoint.links.countP _ ≤ maxConcurrentExternalConns :=
    reach.permits_le t.routing
  have waits := s.waitingId_length t
  rw [List.length_append, List.length_map, ← List.countP_eq_length_filter] at count
  omega

/-- The table of a proxy is the accepted connections whose reading side has not cleaned up. -/
theorem routing_table (sndBuf : Nat) (s : Server) (run : Reach step (start sndBuf) s)
    (running : s.running = true) (few : ∀ r, s.accepted r < 2 ^ 64) (r : Nat) (t : RegTask)
    (here : s.tasks[r]? = some t) :
    (∀ c n, s.endpoint.lookup t.routing c = some n ↔ ∃ l, s.endpoint.links[n]? = some l ∧
      l.map = t.routing ∧ l.connId = c ∧ l.attached = true) ∧
    (∀ l ∈ s.endpoint.links, l.map = t.routing →
      s.endpoint.lookup t.routing l.connId = none → ∀ s', Reach step s s' → s'.running = true →
        (∀ r, s'.accepted r < 2 ^ 64) → s'.endpoint.lookup t.routing l.connId = none) ∧
    (∀ n s', s.step (.endpoint (.remove n)) = some s' → ∃ l, s.endpoint.links[n]? = some l ∧
      s.endpoint.lookup l.map l.connId = some n ∧ s'.endpoint.lookup l.map l.connId = none ∧
      ∀ m c, ¬ (m = l.map ∧ c = l.connId) → s'.endpoint.lookup m c = s.endpoint.lookup m c) ∧
    (∀ ids : List UInt64, ids.Nodup → (∀ c ∈ ids, (s.endpoint.lookup t.routing c).isSome) →
      ids.length ≤ maxConcurrentExternalConns + 1) := by
  have reach : s.Reachable := ⟨sndBuf, run⟩
  refine ⟨reach.lookup_iff running few t.routing, ?_, ?_, ?_⟩
  · intro l mem map none s' more running' few'
    obtain ⟨n, link⟩ := List.mem_iff_getElem?.mp mem
    have gone : l.attached = false := by
      by_contra there
      have entry := reach.findable running few n l link (by simpa using there)
      rw [map, none] at entry
      cases entry
    rw [← map]
    exact reach.removed more running' few' link gone
  · intro n s' h
    exact reach.cleanup running few h
  · intro ids distinct listed
    exact reach.table_le running few here distinct listed

def userReplaced : List ServerAct :=
  [.recv (.register ⟨"ssh", 22001, "127.0.0.1", 22, "tcp", ""⟩), .bind 0 true, .answer 0,
    .connect 0, .connect 0, .accept 0 8, .acquire 0, .accept 0 8,
    .endpoint (.conn 0 .peerShutdown), .endpoint (.conn 0 .readEof), .endpoint (.remove 0)]

def tableView (s : Server) : (Bool × List Nat) × (Option Nat × Option Nat) × List (Nat × UInt64) :=
  ((s.running, s.tasks.map RegTask.routing), (s.endpoint.lookup 0 0, s.endpoint.lookup 0 1),
    s.endpoint.links.map fun l => (l.map, l.connId))

theorem routing_table_replaced : ∃ s t, Reach step (start 8) s ∧ s.tasks[0]? = some t ∧
    s.endpoint.lookup t.routing 0 = none ∧ s.endpoint.lookup t.routing 1 = some 1 ∧
    ∀ s', Reach step s s' → s'.running = true → (∀ r, s'.accepted r < 2 ^ 64) →
      s'.endpoint.lookup t.routing 0 = none := by
  have view : (exec step (start 8) userReplaced).map tableView =
      some ((true, [0]), (none, some 1), [(0, 0), (0, 1)]) := by decide
  obtain ⟨s, moved, seen⟩ := Option.map_eq_some_iff.mp view
  simp only [tableView, Prod.mk.injEq] at seen
  obtain ⟨⟨running, tables⟩, ⟨first, second⟩, ids⟩ := seen
  have run : Reach step (start 8) s := reach_of_exec _ moved
  have few : ∀ r, s.accepted r < 2 ^ 64 := fun r => by
    have le := s.accepted_le r
    have count := congrArg List.length ids
    simp at count
    omega
  obtain ⟨t, tasks, routing⟩ := List.map_eq_singleton_iff.mp tables
  have here : s.tasks[0]? = some t := by rw [tasks]; rfl
  obtain ⟨l, rest, links, id, -⟩ := List.map_eq_cons_iff.mp ids
  obtain ⟨map, connId⟩ := Prod.mk.inj id
  rw [← routing] at first second map
  refine ⟨s, t, run, here, first, second, ?_⟩
  have removed := (routing_table 8 s run running few 0 t here).2.1 l (by simp [links]) map
  rw [connId] at removed
  exact removed first

end Server

end Rfrp
