import Rfrp.Host.Capacity
import Rfrp.Server.Connections

/-!
# The ports of all sessions

A port has one listener in the whole process. A session that has returned gives its ports back as
soon as its listener tasks are dropped, so the client that reconnects can register them again.
-/

namespace Rfrp

open Transition

def RegTask.alive (t : RegTask) : Bool := t.pc ≠ .done

namespace Server

variable {s s' : Server} {a : ServerAct} {r : Nat} {port : UInt16}

theorem listens_of_step (h : Moves s a s') (after : s'.listens r port) :
    s.listens r port ∨ a = .bind r true ∧ firstUnprivilegedPort ≤ port ∧
      ∃ t, s.tasks[r]? = some t ∧ t.clientInfo.bindPort = port := by
  obtain ⟨t', here', bound', rfl⟩ := after
  have kept : ∀ {q : Nat} {t u : RegTask}, s.tasks[q]? = some t → (s.tasks.set q u)[r]? = some t' →
      (u.bound = true → t.bound = true) → u.clientInfo = t.clientInfo →
      s.listens r t'.clientInfo.bindPort := by
    intro q t u here found still same
    rcases Slots.get_set found with ⟨rfl, rfl⟩ | ⟨-, old⟩
    · exact ⟨t, here, still bound', by rw [same]⟩
    · exact ⟨t', old, bound', rfl⟩
  cases h with
  | recvRegister =>
      rcases Slots.get_append here' with old | ⟨-, rfl⟩
      · exact Or.inl ⟨t', old, bound', rfl⟩
      · cases bound'
  | exit | pongErr =>
      left
      obtain ⟨t, old, rfl⟩ := Option.map_eq_some_iff.mp (List.getElem?_map.symm.trans here')
      exact ⟨t, old, bound', rfl⟩
  | @bind q ok t u here move =>
      obtain ⟨checking, pc, same⟩ := RegTask.bind_eq_some move
      rcases Slots.get_set here' with ⟨rfl, rfl⟩ | ⟨-, old⟩
      · right
        rcases pc with ⟨-, high, rfl⟩ | ⟨rejecting, -⟩
        · have info : t'.clientInfo = t.clientInfo := by rw [same]
          exact ⟨rfl, info ▸ high, t, here, by rw [info]⟩
        · rw [RegTask.bound, rejecting] at bound'
          cases bound'
      · exact Or.inl ⟨t', old, bound', rfl⟩
  | connect here => exact Or.inl (kept here here' id rfl)
  | answer here move | answerErr here move =>
      left
      rcases RegTask.answer_eq_some move with ⟨-, -, rfl⟩ | ⟨pc, -, rfl⟩
      · exact kept here here' (fun bound => by cases bound) rfl
      · exact kept here here' (fun _ => by rw [RegTask.bound, pc]) rfl
  | accept here pc => exact Or.inl (kept here here' (fun _ => by rw [RegTask.bound, pc]) rfl)
  | acquire here pc => exact Or.inl (kept here here' (fun _ => by rw [RegTask.bound, pc]) rfl)
  | cancelWaiting here | cancel here =>
      exact Or.inl (kept here here' (fun bound => by cases bound) rfl)
  | _ => exact Or.inl ⟨t', here', bound', rfl⟩

def cancels : ServerAct → Prop
  | .cancel _ => True
  | _ => False

/-- Dropping an aborted task. -/
theorem cancel_task (reach : s.Reachable) {t : RegTask} (here : s.tasks[r]? = some t)
    (aborted : t.aborted = true) (live : t.pc ≠ .done) :
    ∃ s', s.step (.cancel r) = some s' ∧ s'.running = s.running ∧
      s'.tasks = s.tasks.set r { t with pc := .done } := by
  cases pc : t.pc with
  | done => exact absurd pc live
  | acquiring n =>
      obtain ⟨l, link, -⟩ := reach.accepted.waits r n t here pc
      refine ⟨{ s with endpoint := s.endpoint.setLink n (l.setConn l.conn.drop) }.setTask r
        { t with pc := .done }, ?_, rfl, rfl⟩
      simp only [step, here, Option.bind_some, aborted, if_true, pc, link]
  | _ =>
      refine ⟨s.setTask r { t with pc := .done }, ?_, rfl, rfl⟩
      simp only [step, here, Option.bind_some, aborted, if_true, pc]

/-- The tasks of a session that has ended can all be dropped. -/
theorem drop_tasks (reach : s.Reachable) (ended : s.running = false) :
    ∃ s', Run step (fun _ a => cancels a) s s' ∧ ∀ t ∈ s'.tasks, t.pc = .done := by
  have left : ∀ (n : Nat) (s : Server), s.Reachable → s.running = false →
      s.tasks.countP RegTask.alive = n →
      ∃ s', Run step (fun _ a => cancels a) s s' ∧ ∀ t ∈ s'.tasks, t.pc = .done := by
    intro n
    induction n with
    | zero =>
        intro s _ _ none
        refine ⟨s, Run.refl s, fun t mem => ?_⟩
        simpa [RegTask.alive] using List.countP_eq_zero.mp none t mem
    | succ n ih =>
        intro s reach ended some
        obtain ⟨t, mem, alive⟩ := List.countP_pos_iff.mp (Nat.lt_of_lt_of_eq (Nat.succ_pos n) some.symm)
        obtain ⟨r, here⟩ := List.mem_iff_getElem?.mp mem
        obtain ⟨u, move, running, tasks⟩ :=
          cancel_task reach here (reach.aborted ended t mem) (of_decide_eq_true alive)
        have fewer := Slots.countP_set (b := { t with pc := .done }) RegTask.alive here
        have dropped : ({ t with pc := .done } : RegTask).alive = false := rfl
        rw [alive, dropped, ← tasks] at fewer
        have after : u.Reachable := by
          obtain ⟨sndBuf, run⟩ := reach
          exact ⟨sndBuf, run.tail trivial move⟩
        obtain ⟨v, run, done⟩ := ih u after (running.trans ended) (by simp at fewer; omega)
        exact ⟨v, ((Run.refl s).tail trivial move).trans run, done⟩
  exact left _ s reach ended rfl

end Server

namespace Host

variable {h h' : Host} {a : HostAct}

structure Exclusive (h : Host) : Prop where
  allowed : ∀ (i r : Nat) (client : ClientTask) (s : Server) (port : UInt16),
    h.clients[i]? = some client → client.server? = some s → s.listens r port →
    port ≠ h.serverPort ∧ firstUnprivilegedPort ≤ port
  apart : ∀ (i j r q : Nat) (client other : ClientTask) (s t : Server) (port : UInt16),
    h.clients[i]? = some client → client.server? = some s → s.listens r port →
    h.clients[j]? = some other → other.server? = some t → t.listens q port → i = j ∧ r = q

theorem not_listens_start (sndBuf r : Nat) (port : UInt16) : ¬ (Server.start sndBuf).listens r port := by
  rintro ⟨t, here, -⟩
  simp [Server.start] at here

/-- A client is replaced by one with no listeners but those of before. -/
theorem Exclusive.set (exclusive : h.Exclusive) (permits : Nat) (waiters : Fifo Nat) {i : Nat}
    {client client' : ClientTask} (here : h.clients[i]? = some client)
    (fewer : ∀ (s' : Server) (r : Nat) (port : UInt16), client'.server? = some s' → s'.listens r port →
      ∃ s, client.server? = some s ∧ s.listens r port) :
    ({ h.setClient i client' with permits, waiters } : Host).Exclusive := by
  have back : ∀ (j r : Nat) (other : ClientTask) (s : Server) (port : UInt16),
      (h.clients.set i client')[j]? = some other → other.server? = some s → s.listens r port →
      ∃ before t, h.clients[j]? = some before ∧ before.server? = some t ∧ t.listens r port := by
    intro j r other s port there has listens
    rcases Slots.get_set there with ⟨rfl, rfl⟩ | ⟨-, there⟩
    · obtain ⟨t, had, listened⟩ := fewer s r port has listens
      exact ⟨client, t, here, had, listened⟩
    · exact ⟨other, s, there, has, listens⟩
  constructor
  · intro j r other s port there has listens
    obtain ⟨before, t, old, had, listened⟩ := back j r other s port there has listens
    exact exclusive.allowed j r before t port old had listened
  · intro j k r q first second s t port there has listens there' has' listens'
    obtain ⟨_, _, old, had, listened⟩ := back j r first s port there has listens
    obtain ⟨_, _, old', had', listened'⟩ := back k q second t port there' has' listens'
    exact exclusive.apart j k r q _ _ _ _ port old had listened old' had' listened'

/-- A session takes a step; if it takes a port, then one that was free. -/
theorem Exclusive.session (exclusive : h.Exclusive) {i : Nat} {client : ClientTask} {s s' : Server}
    {a : ServerAct} (here : h.clients[i]? = some client) (has : client.server? = some s)
    (admits : h.admits s a = true) (move : s.step a = some s') :
    (h.setClient i (client.setServer s')).Exclusive := by
  have server : (client.setServer s').server? = some s' := by
    cases client with
    | serving | returned => rfl
    | _ => cases has
  have back : ∀ (j r : Nat) (other : ClientTask) (t : Server) (port : UInt16),
      (h.clients.set i (client.setServer s'))[j]? = some other → other.server? = some t →
      t.listens r port →
      (∃ before u, h.clients[j]? = some before ∧ before.server? = some u ∧ u.listens r port) ∨
      (j = i ∧ a = .bind r true ∧ h.portFree port = true ∧ firstUnprivilegedPort ≤ port) := by
    intro j r other t port there own listens
    rcases Slots.get_set there with ⟨rfl, rfl⟩ | ⟨-, there⟩
    · rw [server] at own
      cases own
      rcases Server.listens_of_step (Server.moves_of_step move) listens with
        old | ⟨rfl, high, t, task, rfl⟩
      · exact Or.inl ⟨client, s, here, has, old⟩
      · rw [Host.admits, task] at admits
        exact Or.inr ⟨rfl, rfl, admits, high⟩
    · exact Or.inl ⟨other, t, there, own, listens⟩
  constructor
  · intro j r other t port there own listens
    rcases back j r other t port there own listens with ⟨_, _, old, had, listened⟩ | ⟨-, -, free, high⟩
    · exact exclusive.allowed j r _ _ port old had listened
    · exact ⟨(portFree_iff.mp free).1, high⟩
  · intro j k r q first second t u port there own listens there' own' listens'
    rcases back j r first t port there own listens with
      ⟨_, _, old, had, listened⟩ | ⟨rfl, bind, free, -⟩
    · rcases back k q second u port there' own' listens' with
        ⟨_, _, old', had', listened'⟩ | ⟨-, -, free, -⟩
      · exact exclusive.apart j k r q _ _ _ _ port old had listened old' had' listened'
      · exact absurd listened ((portFree_iff.mp free).2 _ _ _ _ old had)
    · rcases back k q second u port there' own' listens' with
        ⟨_, _, old', had', listened'⟩ | ⟨rfl, bind', -, -⟩
      · exact absurd listened' ((portFree_iff.mp free).2 _ _ _ _ old' had')
      · rw [bind] at bind'
        cases bind'
        exact ⟨rfl, rfl⟩

theorem Exclusive.step (exclusive : h.Exclusive) (orderly : h.Orderly) (move : Moves h a h') :
    h'.Exclusive := by
  cases move with
  | accept =>
      have back : ∀ {j : Nat} {other : ClientTask} {s : Server},
          (h.clients ++ [.spawned])[j]? = some other → other.server? = some s →
          h.clients[j]? = some other := by
        intro j other s there has
        rcases Slots.get_append there with there | ⟨-, rfl⟩
        · exact there
        · cases has
      constructor
      · intro j r other s port there has
        exact exclusive.allowed j r other s port (back there has) has
      · intro j k r q first second s t port there has listens there' has'
        exact exclusive.apart j k r q first second s t port (back there has) has listens
          (back there' has') has'
  | acquire here =>
      exact exclusive.set h.permits _ here (fun s' r port has => by cases has)
  | @grant i waiters free popped =>
      obtain ⟨-, -, queue⟩ := Fifo.pop_eq_some popped
      have here := (orderly.counted.queued i).mp (by rw [queue]; exact List.mem_cons_self)
      exact exclusive.set _ _ here (fun s' r port has => by cases has)
  | shake here =>
      apply exclusive.set h.permits h.waiters here
      intro s' r port has listens
      cases has
      exact absurd listens (not_listens_start _ _ _)
  | shakeErr here =>
      exact exclusive.set _ h.waiters here (fun s' r port has => by cases has)
  | session here has admits move => exact exclusive.session here has admits move
  | finish here =>
      apply exclusive.set _ h.waiters here
      intro s' r port has listens
      cases has
      exact ⟨_, rfl, listens⟩

theorem exclusive_start (port : UInt16) : (start port).Exclusive where
  allowed := fun i r client s port here => by simp [start] at here
  apart := fun i j r q client other s t port here => by simp [start] at here

theorem Reachable.exclusive (reach : h.Reachable) : h.Exclusive :=
  reach.induct exclusive_start fun _ _ _ before ih move => ih.step before.orderly move

/-- The steps of one session that only drop its tasks. -/
def dropsTasks (i : Nat) : HostAct → Prop
  | .session j a => j = i ∧ Server.cancels a
  | _ => False

theorem run_session {i : Nat} {client : ClientTask} {s s' : Server}
    (here : h.clients[i]? = some client) (has : client.server? = some s)
    (run : Run Server.step (fun _ a => Server.cancels a) s s') :
    Run step (fun _ a => dropsTasks i a) h (h.setClient i (client.setServer s')) := by
  have same : client.setServer s = client := by
    cases client with
    | serving | returned => cases has; rfl
    | _ => cases has
  have server : ∀ t, (client.setServer t).server? = some t := by
    intro t
    cases client with
    | serving | returned => rfl
    | _ => cases has
  refine run.induct (P := fun t => Run step (fun _ a => dropsTasks i a) h
    (h.setClient i (client.setServer t))) ?_ ?_
  · have unchanged : h.clients.set i client = h.clients := by
      obtain ⟨bound, rfl⟩ := List.getElem?_eq_some_iff.mp here
      exact List.set_getElem_self bound
    rw [same, setClient, unchanged]
    exact Run.refl h
  · intro t a u _ ih cancel move
    refine ih.tail (a := .session i a) ⟨rfl, cancel⟩ ?_
    have there : (h.setClient i (client.setServer t)).clients[i]? = some (client.setServer t) :=
      Slots.get_set_self here
    have admits : (h.setClient i (client.setServer t)).admits t a = true := by
      cases a with
      | cancel => rfl
      | _ => cases cancel
    have twice : (client.setServer t).setServer u = client.setServer u := by
      cases client with
      | serving | returned => rfl
      | _ => cases has
    simp only [step, there, Option.bind_some, server, admits, if_true, move, Option.map_some, twice,
      setClient_setClient]

/-- A port has one listener in the process, and never the port of `rfrp_server` itself or a privileged
one. What a session held when it returned can be bound again once its tasks are dropped, whatever
the other clients do. -/
theorem ports (h : Host) (reach : h.Reachable) :
    (∀ (i j r q : Nat) (client other : ClientTask) (s t : Server) (port : UInt16),
      h.clients[i]? = some client → client.server? = some s → s.listens r port →
      h.clients[j]? = some other → other.server? = some t → t.listens q port →
      (i = j ∧ r = q) ∧ port ≠ h.serverPort ∧ firstUnprivilegedPort ≤ port) ∧
    ∀ (i : Nat) (s : Server), h.clients[i]? = some (.returned (some s)) →
      ∃ h', Run step (fun _ a => dropsTasks i a) h h' ∧ (∀ j ≠ i, h'.clients[j]? = h.clients[j]?) ∧
        ∀ (r : Nat) (port : UInt16), s.listens r port → h'.portFree port = true ∧
          ∀ (j q : Nat) (t : Server) (task : RegTask), h'.clients[j]? = some (.serving t) →
            t.tasks[q]? = some task → task.pc = .checking → task.clientInfo.bindPort = port →
            ∃ t', h'.step (.session j (.bind q true)) = some (h'.setClient j (.serving t')) ∧
              t'.listens q port := by
  have exclusive := reach.exclusive
  constructor
  · intro i j r q client other s t port here has listens there has' listens'
    exact ⟨exclusive.apart i j r q client other s t port here has listens there has' listens',
      exclusive.allowed i r client s port here has listens⟩
  · intro i s here
    obtain ⟨reachable, ended⟩ := reach.orderly.sound i _ here
    obtain ⟨s', run, done⟩ := Server.drop_tasks reachable ended
    refine ⟨h.setClient i (.returned (some s')), run_session here rfl run,
      fun j other => Slots.get_set_ne other, fun r port listens => ?_⟩
    obtain ⟨apart, high⟩ := exclusive.allowed i r _ s port here rfl listens
    have free : (h.setClient i (.returned (some s'))).portFree port = true := by
      refine portFree_iff.mpr ⟨apart, fun j client t q there has listens' => ?_⟩
      rcases Slots.get_set there with ⟨rfl, rfl⟩ | ⟨other, there⟩
      · cases has
        obtain ⟨task, found, bound, -⟩ := listens'
        rw [RegTask.bound, done task (List.mem_of_getElem? found)] at bound
        cases bound
      · exact other (exclusive.apart j i q r _ _ _ _ port there has listens' here rfl listens).1
    refine ⟨free, fun j q t task there found checking same => ?_⟩
    refine ⟨t.setTask q { task with pc := .acking }, ?_, { task with pc := .acking }, ?_, rfl, same⟩
    · have admits : (h.setClient i (.returned (some s'))).admits t (.bind q true) = true := by
        simp only [Host.admits, found, same, free]
      have move : t.step (.bind q true) = some (t.setTask q { task with pc := .acking }) := by
        have unprivileged : ¬ task.clientInfo.bindPort < firstUnprivilegedPort := by
          rw [same]
          exact UInt16.not_lt.mpr high
        simp only [Server.step, found, Option.bind_some, RegTask.bind, checking, if_true,
          if_neg unprivileged, Option.map_some]
      simp only [step, there, Option.bind_some, ClientTask.server?, admits, if_true, move,
        Option.map_some, ClientTask.setServer]
    · exact Slots.get_set_self found

def sshEntry : ClientInfo := ⟨"ssh", 22001, "127.0.0.1", 22, "tcp", ""⟩

/-- A client registers a port, its session ends, and it has connected again before the listener of the
old session is dropped. -/
def comesBack : List HostAct :=
  [.accept, .acquire 0, .grant, .shake 0 8, .session 0 (.recv (.register sshEntry)),
    .session 0 (.bind 0 true), .session 0 (.exit .eof), .finish 0,
    .accept, .acquire 1, .grant, .shake 1 8, .session 1 (.recv (.register sshEntry))]

/-- The first listener of a session that has returned. -/
def leftPort (client : ClientTask) : Option UInt16 :=
  match client with
  | .returned (some s) => s.tasks[0]?.bind fun t => if t.bound then some t.clientInfo.bindPort else none
  | _ => none

theorem ports_comesBack : ∃ h h' : Host, h.Reachable ∧ h.portFree 22001 = false ∧
    Run step (fun _ a => dropsTasks 0 a) h h' ∧ h'.portFree 22001 = true := by
  have view : (exec step (start 11000) comesBack).map (fun h =>
      (h.portFree 22001, h.clients[0]?.bind leftPort)) = some (false, some 22001) := by decide
  obtain ⟨h, run, seen⟩ := Option.map_eq_some_iff.mp view
  obtain ⟨taken, left⟩ := Prod.mk.inj seen
  have reach : h.Reachable := ⟨11000, reach_of_exec comesBack run⟩
  obtain ⟨client, here, left⟩ := Option.bind_eq_some_iff.mp left
  unfold leftPort at left
  split at left
  · rename_i s
    obtain ⟨t, task, left⟩ := Option.bind_eq_some_iff.mp left
    obtain ⟨bound, port⟩ := Option.ite_none_right_eq_some.mp left
    obtain ⟨h', drops, -, free⟩ := (ports h reach).2 0 s here
    exact ⟨h, h', reach, taken, drops, (free 0 22001 ⟨t, task, bound, Option.some.inj port⟩).1⟩
  · cases left

end Host

end Rfrp
