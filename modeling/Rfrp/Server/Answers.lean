import Rfrp.Server.Connections
import Mathlib.Data.List.Perm.Subperm

/-!
# Answers to registrations

What the frame channel of the server says about registrations: every Register is answered at most
once, ids of acknowledged proxies are distinct, an acknowledged proxy has its listener, and its
acknowledgement precedes its data.
-/

namespace Rfrp

namespace RegTask

def unanswered (t : RegTask) : Bool := t.pc matches .checking | .rejecting | .acking

def owes (t : RegTask) (client : ClientInfo) : Bool := t.unanswered && t.clientInfo == client

def serving (t : RegTask) : Bool := t.pc matches .accepting | .acquiring _

end RegTask

def BeforeData (p : List RfrpFrame → DataInfo → Prop) (log : List RfrpFrame) : Prop :=
  ∀ before d after, log = before ++ .data d :: after → p before d

theorem beforeData_append {p : List RfrpFrame → DataInfo → Prop} {log : List RfrpFrame}
    {f : RfrpFrame} (old : BeforeData p log) (last : ∀ d, f = .data d → p log d) :
    BeforeData p (log ++ [f]) := by
  intro before d after eq
  rcases List.eq_nil_or_concat after with rfl | ⟨init, g, rfl⟩
  · obtain ⟨rfl, same⟩ := List.append_inj' eq rfl
    exact last d (List.cons.inj same).1
  · rw [List.concat_eq_append, ← List.cons_append, ← List.append_assoc] at eq
    exact old before d init (List.append_inj' eq rfl).1

def AckedFirst (log : List RfrpFrame) : Prop :=
  BeforeData (fun before d => ∃ a ∈ acksOf before, a.success = true ∧ a.proxyId = d.proxyId) log

namespace Server

open Transition Endpoint

variable {s s' : Server} {a : ServerAct}

/-! ## How a step extends the frame channel -/

inductive Queues (s : Server) : ServerAct → List RfrpFrame → Prop
  | nothing {a : ServerAct} : Queues s a []
  | reply {f : RfrpFrame} (frame : s.replyFrame = some f) : Queues s .reply [f]
  | answer {r : Nat} {t t' : RegTask} {f : RfrpFrame} (here : s.tasks[r]? = some t)
      (move : t.answer = some (f, t')) : Queues s (.answer r) [f]
  | data {n : Nat} {l : Link UInt16} {data : Bytes} (here : s.endpoint.links[n]? = some l)
      (hand : l.conn.reader = .sending data) (live : s.endpoint.tunnel.task ≠ .done) :
      Queues s (.endpoint (.sendData n)) [.newDataFrame data l.proxyId l.connId]

theorem queues_of_step (h : Moves s a s') : ∃ fs, Queues s a fs ∧
    s'.endpoint.tunnel.chan.log = s.endpoint.tunnel.chan.log ++ fs := by
  cases h with
  | reply frame sent =>
      obtain ⟨-, rfl⟩ := enqueue_eq_some sent
      exact ⟨_, .reply frame, rfl⟩
  | answer here move sent =>
      obtain ⟨-, rfl⟩ := enqueue_eq_some sent
      exact ⟨_, .answer here move, rfl⟩
  | route _ sent =>
      obtain ⟨l, -, -, rfl⟩ := deliver_eq_some sent
      exact ⟨[], .nothing, by simp⟩
  | endpoint move =>
      rcases step_tunnel_log move with same | ⟨n, l, data, rfl, here, hand, live, eq⟩
      · exact ⟨[], .nothing, by simp [same]⟩
      · exact ⟨_, .data here hand live, eq⟩
  | _ => exact ⟨[], .nothing, by simp [teardown, setTask, acceptConn, Endpoint.addLink]⟩

theorem step_received (h : Moves s a s') :
    s'.received = s.received ∨ ∃ f, a = .recv f ∧ s'.received = s.received ++ [f] := by
  cases h with
  | recvLimit | recvRegister | recvPing | recvOther | recvRouted | recvUnrouted =>
      exact Or.inr ⟨_, rfl, rfl⟩
  | _ => exact Or.inl rfl

/-! ## One answer for each Register -/

def openRegisters (s : Server) (client : ClientInfo) : Nat :=
  s.tasks.countP (fun t => t.owes client) + if s.main = .rejecting client then 1 else 0

def AnswersOnce (s : Server) : Prop :=
  ∀ client, ((acksOf s.endpoint.tunnel.chan.log).map RegisterResponse.client).count client +
    s.openRegisters client ≤ (registersOf s.received).count client

theorem countP_owes_set {r : Nat} {t t' : RegTask} {client : ClientInfo}
    (here : s.tasks[r]? = some t) (less : t'.owes client = true → t.owes client = true) :
    (s.tasks.set r t').countP (fun t => t.owes client) ≤
      s.tasks.countP fun t => t.owes client := by
  have moved := Slots.countP_set (b := t') (fun t => t.owes client) here
  by_cases owes : t'.owes client = true
  · simp only [owes, less owes, if_true] at moved
    omega
  · rw [if_neg owes] at moved
    omega

theorem AnswersOnce.keep (once : s.AnswersOnce)
    (acks : acksOf s'.endpoint.tunnel.chan.log = acksOf s.endpoint.tunnel.chan.log)
    (received : registersOf s'.received = registersOf s.received)
    (tasks : ∀ client, s'.tasks.countP (fun t => t.owes client) ≤
      s.tasks.countP fun t => t.owes client)
    (main : ∀ client, s'.main = .rejecting client → s.main = .rejecting client) :
    s'.AnswersOnce := by
  intro client
  have before := once client
  have fewer := tasks client
  rw [acks, received]
  unfold openRegisters at before ⊢
  by_cases rejecting : s'.main = .rejecting client
  · simp only [rejecting, main client rejecting, if_true] at before ⊢
    omega
  · simp only [rejecting, if_false]
    omega

theorem AnswersOnce.answer (once : s.AnswersOnce) {r : Nat} {t t' : RegTask} {f : RfrpFrame}
    (here : s.tasks[r]? = some t) (move : t.answer = some (f, t')) {endpoint : Endpoint UInt16}
    (log : endpoint.tunnel.chan.log = s.endpoint.tunnel.chan.log ++ [f]) :
    ({ s with endpoint }.setTask r t').AnswersOnce := by
  intro client
  have before := once client
  have moved := Slots.countP_set (b := t') (fun t => t.owes client) here
  obtain ⟨owed, settled, a, rfl, same⟩ : t.unanswered = true ∧ t'.owes client = false ∧
      ∃ a, f = .registerAck a ∧ a.client = t.clientInfo := by
    rcases RegTask.answer_eq_some move with ⟨pc, rfl, rfl⟩ | ⟨pc, rfl, rfl⟩ <;>
      simp [RegTask.unanswered, RegTask.owes, RfrpFrame.newRegAckFrame, pc]
  have owes : t.owes client = (t.clientInfo == client) := by simp [RegTask.owes, owed]
  have acks : (acksOf endpoint.tunnel.chan.log).map RegisterResponse.client =
      (acksOf s.endpoint.tunnel.chan.log).map RegisterResponse.client ++ [t.clientInfo] := by
    simp [log, same]
  simp only [owes, settled, Bool.false_eq_true, if_false] at moved
  show ((acksOf endpoint.tunnel.chan.log).map RegisterResponse.client).count client +
    ((s.tasks.set r t').countP (fun t => t.owes client) +
      if s.main = .rejecting client then 1 else 0) ≤ (registersOf s.received).count client
  rw [acks, List.count_append, List.count_singleton]
  unfold openRegisters at before
  omega

theorem AnswersOnce.step (once : s.AnswersOnce) (h : Moves s a s') : s'.AnswersOnce := by
  cases h with
  | @recvLimit client main =>
      intro other
      have before := once other
      simp only [openRegisters, main] at before ⊢
      by_cases same : client = other <;>
        simp [same] at before ⊢ <;> omega
  | @recvRegister client main free =>
      intro other
      have before := once other
      simp only [openRegisters, main, List.countP_append] at before ⊢
      by_cases same : client = other <;>
        simp [same, RegTask.owes, RegTask.unanswered, RegTask.spawn]
          at before ⊢ <;> omega
  | recvPing main =>
      exact once.keep rfl (by simp) (fun _ => Nat.le_refl _) (by simp)
  | recvOther _ register =>
      exact once.keep rfl (by simp [registersOf, register]) (fun _ => Nat.le_refl _) fun _ h => h
  | recvRouted => exact once.keep rfl (by simp) (fun _ => Nat.le_refl _) (by simp)
  | recvUnrouted => exact once.keep rfl (by simp) (fun _ => Nat.le_refl _) fun _ h => h
  | exit | pongErr =>
      refine once.keep rfl rfl (fun client => ?_) (by simp [teardown])
      simp [teardown, List.countP_map, Function.comp_def, RegTask.owes, RegTask.unanswered]
  | reply frame sent =>
      obtain ⟨-, rfl⟩ := enqueue_eq_some sent
      rcases replyFrame_eq_some frame with ⟨client, main, rfl⟩ | ⟨main, rfl⟩
      · intro other
        have before := once other
        simp only [openRegisters, main, RfrpFrame.newRegAckFrame] at before ⊢
        by_cases same : client = other <;>
          simp [same] at before ⊢ <;> omega
      · exact once.keep (by simp [RfrpFrame.newPongFrame]) rfl (fun _ => Nat.le_refl _) (by simp)
  | replyErr => exact once.keep rfl rfl (fun _ => Nat.le_refl _) (by simp)
  | route _ sent =>
      obtain ⟨l, -, -, rfl⟩ := deliver_eq_some sent
      exact once.keep rfl rfl (fun _ => Nat.le_refl _) (by simp)
  | routeErr => exact once.keep rfl rfl (fun _ => Nat.le_refl _) (by simp)
  | connect here =>
      exact once.keep rfl rfl (fun _ => countP_owes_set here fun h => h) fun _ h => h
  | bind here move =>
      refine once.keep rfl rfl (fun _ => countP_owes_set here fun owes => ?_) fun _ h => h
      obtain ⟨pc, -, eq⟩ := RegTask.bind_eq_some move
      rw [eq] at owes
      simp only [RegTask.owes, Bool.and_eq_true] at owes ⊢
      exact ⟨by simp [RegTask.unanswered, pc], owes.2⟩
  | answer here move sent =>
      obtain ⟨-, rfl⟩ := enqueue_eq_some sent
      exact once.answer here move rfl
  | answerErr here move =>
      refine once.keep rfl rfl (fun _ => countP_owes_set here fun owes => ?_) fun _ h => h
      rcases RegTask.answer_eq_some move with ⟨-, -, rfl⟩ | ⟨-, -, rfl⟩ <;>
        simp [RegTask.owes, RegTask.unanswered] at owes
  | accept here pc =>
      refine once.keep rfl rfl (fun _ => countP_owes_set here fun owes => ?_) fun _ h => h
      simp [RegTask.owes, RegTask.unanswered] at owes
  | acquire here | cancelWaiting here | cancel here =>
      refine once.keep rfl rfl (fun _ => countP_owes_set here fun owes => ?_) fun _ h => h
      simp [RegTask.owes, RegTask.unanswered] at owes
  | endpoint move =>
      refine once.keep ?_ rfl (fun _ => Nat.le_refl _) fun _ h => h
      rcases step_tunnel_log move with same | ⟨n, l, data, -, -, -, -, eq⟩
      · rw [same]
      · simp [eq, RfrpFrame.newDataFrame]

theorem Reachable.answersOnce (reach : s.Reachable) : s.AnswersOnce :=
  reach.induct (P := AnswersOnce) (fun _ _ => by simp [start, openRegisters, Endpoint.spawn,
    FrameWriter.spawn]) fun _ _ _ _ ih move => ih.step move

theorem Reachable.acks_subperm (reach : s.Reachable) :
    ((acksOf s.endpoint.tunnel.chan.log).map RegisterResponse.client).Subperm
      (registersOf s.received) := by
  rw [List.subperm_ext_iff]
  intro client _
  have := reach.answersOnce client
  omega

/-! ## Success answers -/

end Server

structure RegTask.Next (t t' : RegTask) : Prop where
  ident : t'.ident = t.ident
  answered : t.unanswered = false → t'.unanswered = false
  serving : t.serving = true → t.aborted = false → t'.serving = true

namespace Server

open Transition Endpoint

variable {s s' : Server} {a : ServerAct} {r n : Nat} {t t' : RegTask}

theorem next_set (here : s.tasks[r]? = some t) (next : t.Next t') {q : Nat} {u : RegTask}
    (found : s.tasks[q]? = some u) : ∃ u', (s.tasks.set r t')[q]? = some u' ∧ u.Next u' := by
  by_cases same : q = r
  · subst same
    rw [here] at found
    cases found
    exact ⟨t', Slots.get_set_self here, next⟩
  · exact ⟨u, by rw [Slots.get_set_ne same, found], rfl, id, fun serving _ => serving⟩

theorem next_of_step (h : Moves s a s') (found : s.tasks[r]? = some t) :
    ∃ t', s'.tasks[r]? = some t' ∧ t.Next t' := by
  cases h with
  | recvRegister =>
      exact ⟨t, Slots.get_append_left found, rfl, id, fun serving _ => serving⟩
  | exit | pongErr =>
      exact ⟨{ t with aborted := true }, by simp [teardown, found], rfl, id, fun serving _ => serving⟩
  | connect here =>
      refine next_set here ?_ found
      exact ⟨rfl, id, fun serving _ => serving⟩
  | bind here move =>
      obtain ⟨pc, -, eq⟩ := RegTask.bind_eq_some move
      refine next_set here ⟨by rw [eq]; rfl, ?_, ?_⟩ found <;>
        simp [RegTask.unanswered, RegTask.serving, pc]
  | answer here move | answerErr here move =>
      refine next_set here ?_ found
      rcases RegTask.answer_eq_some move with ⟨pc, -, rfl⟩ | ⟨pc, -, rfl⟩ <;>
        exact ⟨rfl, by simp [RegTask.unanswered], by simp [RegTask.serving, pc]⟩
  | accept here | acquire here =>
      refine next_set here ?_ found
      exact ⟨rfl, by simp [RegTask.unanswered], by simp [RegTask.serving]⟩
  | cancelWaiting here aborted | cancel here aborted =>
      refine next_set here ?_ found
      exact ⟨rfl, by simp [RegTask.unanswered], by simp [aborted]⟩
  | _ => exact ⟨t, found, rfl, id, fun serving _ => serving⟩

def Served (s : Server) (p : UInt32) : Prop :=
  s.endpoint.tunnel.task = .done ∨
    ∃ a ∈ acksOf s.endpoint.tunnel.chan.log, a.success = true ∧ a.proxyId = p

theorem link_of_step (h : Moves s a s') {l' : Link UInt16}
    (found : s'.endpoint.links[n]? = some l') :
    (∃ l, s.endpoint.links[n]? = some l ∧ l.ident = l'.ident) ∨
      ∃ (r : Nat) (t : RegTask), s.tasks[r]? = some t ∧ t.pc = .accepting ∧
        l'.ident = (t.clientInfo.bindPort, t.proxyId, t.nextConnId, t.routing) := by
  have old : s'.endpoint.links.map Link.ident = s.endpoint.links.map Link.ident →
      ∃ l, s.endpoint.links[n]? = some l ∧ l.ident = l'.ident :=
    fun same => Slots.get_of_map Link.ident same found
  cases h with
  | accept here pc =>
      rcases Slots.get_append found with found | ⟨-, rfl⟩
      · exact Or.inl ⟨l', found, rfl⟩
      · exact Or.inr ⟨_, _, here, pc, rfl⟩
  | endpoint move => exact Or.inl (old (step_ident move))
  | route _ sent =>
      obtain ⟨l, here, -, rfl⟩ := deliver_eq_some sent
      exact Or.inl (old (map_setLink _ here rfl))
  | reply _ sent | answer _ _ sent =>
      obtain ⟨-, rfl⟩ := enqueue_eq_some sent
      exact Or.inl (old rfl)
  | acquire _ _ link | cancelWaiting _ _ _ link => exact Or.inl (old (map_setLink _ link rfl))
  | _ => exact Or.inl (old rfl)

structure Acked (s : Server) : Prop where
  ids : (((acksOf s.endpoint.tunnel.chan.log).filter RegisterResponse.success).map
    RegisterResponse.proxyId).Nodup
  task : ∀ a ∈ acksOf s.endpoint.tunnel.chan.log, a.success = true →
    ∃ (r : Nat) (t : RegTask), s.tasks[r]? = some t ∧ t.proxyId = a.proxyId ∧
      t.clientInfo = a.client ∧
        t.unanswered = false ∧ (s.running = true → t.serving = true)
  serving : ∀ (r : Nat) (t : RegTask), s.tasks[r]? = some t → t.serving = true → s.Served t.proxyId
  links : ∀ (n : Nat) (l : Link UInt16), s.endpoint.links[n]? = some l → s.Served l.proxyId
  first : AckedFirst s.endpoint.tunnel.chan.log

theorem acked_start (sndBuf : Nat) : (start sndBuf).Acked where
  ids := List.nodup_nil
  task := fun _ h => by simp [start, Endpoint.spawn, FrameWriter.spawn] at h
  serving := fun _ _ h => by simp [start] at h
  links := fun _ _ h => by simp [start, Endpoint.spawn] at h
  first := fun before d after h => by simp [start, Endpoint.spawn, FrameWriter.spawn] at h

theorem Served.step {p : UInt32} (served : s.Served p) (reach : s.Reachable) (h : Moves s a s') :
    s'.Served p := by
  rcases served with done | ⟨ack, mem, rest⟩
  · exact Or.inl ((step_endpoint reach h).tunnel_done done)
  · obtain ⟨fs, -, log⟩ := queues_of_step h
    exact Or.inr ⟨ack, by simp [log, mem], rest⟩

theorem serving_of_step (h : Moves s a s') (found : s'.tasks[r]? = some t')
    (serving : t'.serving = true) :
    (∃ t, s.tasks[r]? = some t ∧ t.serving = true ∧ t.proxyId = t'.proxyId) ∨
      s'.Served t'.proxyId := by
  have set : ∀ {q : Nat} {t u : RegTask}, (s.tasks.set q u)[r]? = some t' →
      s.tasks[q]? = some t → u.proxyId = t.proxyId →
      (u.serving = true → t.serving = true ∨ s'.Served t.proxyId) →
      (∃ t, s.tasks[r]? = some t ∧ t.serving = true ∧ t.proxyId = t'.proxyId) ∨
        s'.Served t'.proxyId := by
    intro q t u found here id move
    rcases Slots.get_set found with ⟨rfl, rfl⟩ | ⟨-, found⟩
    · rcases move serving with before | served
      · exact Or.inl ⟨t, here, before, id.symm⟩
      · exact Or.inr (id ▸ served)
    · exact Or.inl ⟨t', found, serving, rfl⟩
  cases h with
  | recvRegister =>
      rcases Slots.get_append found with found | ⟨-, rfl⟩
      · exact Or.inl ⟨t', found, serving, rfl⟩
      · simp [RegTask.serving, RegTask.spawn] at serving
  | exit | pongErr =>
      simp only [teardown, List.getElem?_map, Option.map_eq_some_iff] at found
      obtain ⟨t, found, rfl⟩ := found
      exact Or.inl ⟨t, found, serving, rfl⟩
  | connect here => exact set found here rfl Or.inl
  | bind here move =>
      obtain ⟨-, pc, eq⟩ := RegTask.bind_eq_some move
      refine set found here (by rw [eq]) (fun serving => ?_)
      rcases pc with ⟨pc, -⟩ | ⟨pc, -⟩ <;> simp [RegTask.serving, pc] at serving
  | @answer q t _ _ _ here move sent =>
      obtain ⟨-, rfl⟩ := enqueue_eq_some sent
      rcases RegTask.answer_eq_some move with ⟨-, rfl, rfl⟩ | ⟨-, rfl, rfl⟩
      · exact set found here rfl (by simp [RegTask.serving])
      · refine set found here rfl fun _ => Or.inr (Or.inr ?_)
        exact ⟨⟨t.clientInfo, true, t.proxyId⟩, by simp [setTask, RfrpFrame.newRegAckFrame], rfl, rfl⟩
  | answerErr here move closed =>
      have done : s.endpoint.tunnel.task = .done := by simpa [FrameWriter.closed] using closed
      rcases RegTask.answer_eq_some move with ⟨-, -, rfl⟩ | ⟨-, -, rfl⟩
      · exact set found here rfl (by simp [RegTask.serving])
      · exact set found here rfl (fun _ => Or.inr (Or.inl done))
  | accept here pc => exact set found here rfl (fun _ => Or.inl (by simp [RegTask.serving, pc]))
  | acquire here pc => exact set found here rfl (fun _ => Or.inl (by simp [RegTask.serving, pc]))
  | cancelWaiting here | cancel here => exact set found here rfl (by simp [RegTask.serving])
  | _ => exact Or.inl ⟨t', found, serving, rfl⟩

theorem Queues.success {fs : List RfrpFrame} (queues : Queues s a fs) :
    (acksOf fs).filter RegisterResponse.success = [] ∨
      ∃ (r : Nat) (t : RegTask), a = .answer r ∧ s.tasks[r]? = some t ∧ t.pc = .acking ∧
        acksOf fs = [⟨t.clientInfo, true, t.proxyId⟩] := by
  cases queues with
  | nothing => exact Or.inl rfl
  | data => exact Or.inl rfl
  | reply frame =>
      rcases replyFrame_eq_some frame with ⟨client, -, rfl⟩ | ⟨-, rfl⟩ <;> exact Or.inl rfl
  | answer here move =>
      rcases RegTask.answer_eq_some move with ⟨-, rfl, -⟩ | ⟨pc, rfl, -⟩
      · exact Or.inl rfl
      · exact Or.inr ⟨_, _, rfl, here, pc, rfl⟩

theorem Queues.beforeData {p : List RfrpFrame → DataInfo → Prop} {log fs : List RfrpFrame}
    (queues : Queues s a fs) (first : BeforeData p log)
    (data : ∀ (n : Nat) (l : Link UInt16) (bytes : Bytes), a = .endpoint (.sendData n) →
      s.endpoint.links[n]? = some l → s.endpoint.tunnel.task ≠ .done →
      p log ⟨l.connId, l.proxyId, bytes⟩) : BeforeData p (log ++ fs) := by
  cases queues with
  | nothing => simpa using first
  | reply frame =>
      apply beforeData_append first
      intro d eq
      rcases replyFrame_eq_some frame with ⟨client, -, rfl⟩ | ⟨-, rfl⟩ <;> cases eq
  | answer _ move =>
      apply beforeData_append first
      intro d eq
      rcases RegTask.answer_eq_some move with ⟨-, rfl, -⟩ | ⟨-, rfl, -⟩ <;> cases eq
  | data here _ live =>
      apply beforeData_append first
      intro d eq
      cases eq
      exact data _ _ _ rfl here live

theorem Acked.fresh (acked : s.Acked) (booked : s.Booked) (here : s.tasks[r]? = some t)
    (pc : t.pc = .acking) : t.proxyId ∉ ((acksOf s.endpoint.tunnel.chan.log).filter
      RegisterResponse.success).map RegisterResponse.proxyId := by
  intro mem
  obtain ⟨ack, mem, same⟩ := List.mem_map.mp mem
  obtain ⟨mem, success⟩ := List.mem_filter.mp mem
  obtain ⟨q, u, found, id, -, answered, -⟩ := acked.task ack mem success
  have slot := (booked.task q u found).1.symm.trans
    (id.trans (same.trans (booked.task r t here).1))
  have count := booked.count
  have hq := Slots.get_lt found
  have hr := Slots.get_lt here
  obtain rfl := ofNat_inj (by omega) (by omega) slot
  rw [here] at found
  cases found
  simp [RegTask.unanswered, pc] at answered

theorem Acked.step (acked : s.Acked) (reach : s.Reachable) (h : Moves s a s') : s'.Acked := by
  have booked := reach.booked
  have acc := reach.accepted
  obtain ⟨fs, queues, log⟩ := queues_of_step h
  have acks : acksOf s'.endpoint.tunnel.chan.log =
      acksOf s.endpoint.tunnel.chan.log ++ acksOf fs := by simp [log]
  constructor
  case ids =>
    rw [acks, List.filter_append, List.map_append]
    rcases queues.success with none | ⟨r, t, -, here, pc, one⟩
    · simpa [none] using acked.ids
    · rw [one]
      refine List.nodup_append.mpr ⟨acked.ids, by simp, ?_⟩
      rintro p mem q last rfl
      obtain rfl : p = t.proxyId := by simpa using last
      exact acked.fresh booked here pc mem
  case task =>
    intro ack mem success
    rw [acks] at mem
    rcases List.mem_append.mp mem with old | new
    · obtain ⟨r, t, found, id, client, answered, serving⟩ := acked.task ack old success
      obtain ⟨t', found', next⟩ := next_of_step h found
      have ident := next.ident
      simp only [RegTask.ident, Prod.mk.injEq] at ident
      refine ⟨r, t', found', ident.2.1.trans id, ident.1.trans client, next.answered answered, ?_⟩
      intro after
      have running := running_of_step h after
      exact next.serving (serving running)
        (reach.not_aborted running t (List.mem_of_getElem? found))
    · rcases queues.success with none | ⟨r, t, rfl, here, pc, one⟩
      · have listed := List.mem_filter.mpr ⟨new, success⟩
        rw [none] at listed
        cases listed
      · rw [one] at new
        obtain rfl := List.mem_singleton.mp new
        cases h with
        | answer here' move =>
            cases here.symm.trans here'
            rcases RegTask.answer_eq_some move with ⟨rejecting, -⟩ | ⟨-, -, rfl⟩
            · rw [pc] at rejecting
              cases rejecting
            · exact ⟨r, _, Slots.get_set_self here, rfl, rfl, rfl, fun _ => rfl⟩
  case serving =>
    intro r t' found serving
    rcases serving_of_step h found serving with ⟨t, before, old, id⟩ | served
    · exact id ▸ (acked.serving r t before old).step reach h
    · exact served
  case links =>
    intro n l' found
    rcases link_of_step h found with ⟨l, before, same⟩ | ⟨r, t, here, pc, same⟩
    · simp only [Link.ident, Prod.mk.injEq] at same
      exact same.2.1 ▸ (acked.links n l before).step reach h
    · simp only [Link.ident, Prod.mk.injEq] at same
      rw [same.2.1]
      exact (acked.serving r t here (by simp [RegTask.serving, pc])).step reach h
  case first =>
    rw [log]
    apply queues.beforeData acked.first
    intro n l bytes _ here live
    exact (acked.links n l here).resolve_left live

theorem Reachable.acked (reach : s.Reachable) : s.Acked :=
  reach.induct acked_start fun _ _ _ before ih move => ih.step before move

theorem Reachable.successes_le (reach : s.Reachable) :
    ((acksOf s.endpoint.tunnel.chan.log).filter RegisterResponse.success).length ≤
      maxProxiesPerClient := by
  have ids : ((acksOf s.endpoint.tunnel.chan.log).filter RegisterResponse.success).map
      RegisterResponse.proxyId ⊆ s.tasks.map RegTask.proxyId := by
    intro p mem
    obtain ⟨ack, listed, rfl⟩ := List.mem_map.mp mem
    obtain ⟨queued, success⟩ := List.mem_filter.mp listed
    obtain ⟨r, t, found, id, -⟩ := reach.acked.task ack queued success
    exact List.mem_map.mpr ⟨t, List.mem_of_getElem? found, id⟩
  have fewer := (reach.acked.ids.subperm ids).length_le
  simp only [List.length_map] at fewer
  exact Nat.le_trans fewer reach.booked.count

/-! ## One answer for each task -/

theorem exec_settled {labels : List ServerAct} (run : exec step s labels = some s')
    (found : s.tasks[r]? = some t) (settled : t.unanswered = false) :
    labels.count (.answer r) = 0 := by
  induction labels generalizing s t with
  | nil => rfl
  | cons a labels ih =>
      obtain ⟨u, move, rest⟩ := Option.bind_eq_some_iff.mp run
      obtain ⟨t', found', next⟩ := next_of_step (moves_of_step move) found
      rw [List.count_cons, ih rest found' (next.answered settled), Nat.zero_add]
      refine if_neg fun same => ?_
      obtain rfl : a = .answer r := by simpa using same
      cases moves_of_step move with
      | answer here answer =>
          rw [found] at here
          cases here
          rcases RegTask.answer_eq_some answer with ⟨pc, -⟩ | ⟨pc, -⟩ <;>
            simp [RegTask.unanswered, pc] at settled

theorem exec_answers {labels : List ServerAct} (run : exec step s labels = some s') (r : Nat) :
    labels.count (.answer r) ≤ 1 := by
  induction labels generalizing s with
  | nil => exact Nat.zero_le _
  | cons a labels ih =>
      obtain ⟨u, move, rest⟩ := Option.bind_eq_some_iff.mp run
      rw [List.count_cons]
      by_cases same : a = .answer r
      · subst same
        have finished : labels.count (.answer r) = 0 := by
          cases moves_of_step move with
          | answer here answer =>
              refine exec_settled rest (Slots.get_set_self here) ?_
              rcases RegTask.answer_eq_some answer with ⟨-, -, rfl⟩ | ⟨-, -, rfl⟩ <;> rfl
        simp [finished]
      · simpa [same] using ih rest

end Server

end Rfrp
