import Rfrp.Server.Admission
import Rfrp.Server.Delivery

/-!
# What a failed registration leaves behind

The slot, the proxy id and the routing table of a Register are taken before its outcome is known,
and neither failure path gives them back. So the routing map and the limit say what was bound
exactly when no registration has failed.
-/

namespace Rfrp

structure RegTask.Keeps (t t' : RegTask) : Prop where
  client : t'.clientInfo = t.clientInfo
  checking : t'.pc = .checking → t.pc = .checking
  going : t'.aborted = false →
    t.aborted = false ∧ t'.bound = t.bound ∧ (t.pc = .checking → t'.pc = .checking)

namespace Server

open Transition

variable {s s' : Server} {a : ServerAct} {r : Nat} {t t' : RegTask} {labels : List ServerAct}

structure Traceless (s : Server) : Prop where
  tables : ∀ p, (s.proxyRouting p).isSome ↔ ∃ t ∈ s.tasks, t.proxyId = p ∧ t.bound = true
  limit : ∀ client s', s.step (.recv (.register client)) = some s' →
    (s'.main = .rejecting client ↔ s.tasks.countP RegTask.bound = maxProxiesPerClient)

theorem keeps_set {q : Nat} {u u' : RegTask} (here : s.tasks[q]? = some u) (keeps : u.Keeps u')
    (found : (s.tasks.set q u')[r]? = some t') : ∃ t, s.tasks[r]? = some t ∧ t.Keeps t' := by
  rcases Slots.get_set found with ⟨rfl, rfl⟩ | ⟨-, old⟩
  · exact ⟨u, here, keeps⟩
  · exact ⟨t', old, rfl, id, fun going => ⟨going, rfl, id⟩⟩

theorem outcome_of_step (h : Moves s a s') (found : s'.tasks[r]? = some t') :
    ((∀ ok, a ≠ .bind r ok) ∧ ∃ t, s.tasks[r]? = some t ∧ t.Keeps t') ∨
      ((∀ ok, a ≠ .bind r ok) ∧ s.tasks[r]? = none ∧ t'.pc = .checking) ∨
      ∃ t ok, a = .bind r ok ∧ s.tasks[r]? = some t ∧ t.bind ok = some t' := by
  have same : s'.tasks = s.tasks → ∃ t, s.tasks[r]? = some t ∧ t.Keeps t' := fun same =>
    ⟨t', same ▸ found, rfl, id, fun going => ⟨going, rfl, id⟩⟩
  cases h with
  | recvRegister =>
      rcases Slots.get_append found with old | ⟨rfl, rfl⟩
      · exact Or.inl ⟨by simp, t', old, rfl, id, fun going => ⟨going, rfl, id⟩⟩
      · exact Or.inr (Or.inl ⟨by simp, List.getElem?_eq_none (Nat.le_refl _), rfl⟩)
  | exit | pongErr =>
      simp only [teardown, List.getElem?_map, Option.map_eq_some_iff] at found
      obtain ⟨t, here, rfl⟩ := found
      exact Or.inl ⟨by simp, t, here, rfl, id, by simp⟩
  | connect here =>
      refine Or.inl ⟨by simp, keeps_set here ?_ found⟩
      exact ⟨rfl, id, fun going => ⟨going, rfl, id⟩⟩
  | @bind q ok u u' here move =>
      by_cases own : r = q
      · subst own
        obtain rfl := Option.some.inj ((Slots.get_set_self here).symm.trans found)
        exact Or.inr (Or.inr ⟨u, ok, rfl, here, move⟩)
      · refine Or.inl ⟨by simpa using fun same => absurd same.symm own, t', ?_⟩
        exact ⟨(Slots.get_set_ne own).symm.trans found, rfl, id, fun going => ⟨going, rfl, id⟩⟩
  | answer here move | answerErr here move =>
      refine Or.inl ⟨by simp, keeps_set here ?_ found⟩
      rcases RegTask.answer_eq_some move with ⟨pc, -, rfl⟩ | ⟨pc, -, rfl⟩ <;>
        exact ⟨rfl, by simp, fun going => ⟨going, by simp [RegTask.bound, pc], by simp [pc]⟩⟩
  | accept here pc | acquire here pc =>
      refine Or.inl ⟨by simp, keeps_set here ?_ found⟩
      exact ⟨rfl, by simp, fun going => ⟨going, by simp [RegTask.bound, pc], by simp [pc]⟩⟩
  | cancelWaiting here aborted | cancel here aborted =>
      refine Or.inl ⟨by simp, keeps_set here ?_ found⟩
      exact ⟨rfl, by simp, by simp [aborted]⟩
  | _ => exact Or.inl ⟨by simp, same rfl⟩

/-- The tasks stand where the outcomes of their binds in the run have put them. -/
structure Outcomes (labels : List ServerAct) (s : Server) : Prop where
  unspawned : ∀ r, s.tasks[r]? = none → ∀ ok, .bind r ok ∉ labels
  checking : ∀ (r : Nat) (t : RegTask), s.tasks[r]? = some t → t.pc = .checking →
    ∀ ok, .bind r ok ∉ labels
  decided : ∀ (r : Nat) (t : RegTask), s.tasks[r]? = some t → t.aborted = false →
    t.pc ≠ .checking →
    (t.bound = true ↔ firstUnprivilegedPort ≤ t.clientInfo.bindPort ∧ .bind r true ∈ labels)

theorem bound_of_bind {ok : Bool} (h : t.bind ok = some t') :
    t'.pc ≠ .checking ∧ t'.clientInfo = t.clientInfo ∧
      (t'.bound = true ↔ firstUnprivilegedPort ≤ t.clientInfo.bindPort ∧ ok = true) := by
  obtain ⟨-, outcome, same⟩ := RegTask.bind_eq_some h
  have client : t'.clientInfo = t.clientInfo := by rw [same]
  rcases outcome with ⟨pc, port, rfl⟩ | ⟨pc, failed⟩
  · exact ⟨by simp [pc], client, by simp [RegTask.bound, pc, port]⟩
  · refine ⟨by simp [pc], client, ?_⟩
    simp only [RegTask.bound, pc, Bool.false_eq_true, false_iff]
    rintro ⟨port, rfl⟩
    rcases failed with low | failed
    · exact absurd port (UInt16.not_le.mpr low)
    · cases failed

theorem outcomes_of_exec {sndBuf : Nat} (run : exec step (start sndBuf) labels = some s) :
    Outcomes labels s := by
  induction labels using List.reverseRecOn generalizing s with
  | nil =>
      cases run
      exact ⟨by simp, by simp, by simp [start]⟩
  | append_singleton labels a ih =>
      rw [exec_snoc] at run
      obtain ⟨u, before, move⟩ := Option.bind_eq_some_iff.mp run
      have outcomes := ih before
      have moves := moves_of_step move
      have elsewhere : ∀ {r ok}, a ≠ .bind r ok → .bind r ok ∉ labels →
          .bind r ok ∉ labels ++ [a] := by
        intro r ok other old mem
        rcases List.mem_append.mp mem with mem | mem
        · exact old mem
        · exact other (List.mem_singleton.mp mem).symm
      constructor
      case unspawned =>
        intro r none ok
        have before : u.tasks[r]? = .none := by
          cases here : u.tasks[r]? with
          | none => rfl
          | some t =>
              obtain ⟨t', found, -⟩ := next_of_step moves here
              rw [none] at found
              cases found
        refine elsewhere ?_ (outcomes.unspawned r before ok)
        rintro rfl
        cases moves with
        | bind here =>
            rw [before] at here
            cases here
      case checking =>
        intro r t' found pc ok
        rcases outcome_of_step moves found with
          ⟨other, t, here, keeps⟩ | ⟨other, none, -⟩ | ⟨t, ok', rfl, here, bind⟩
        · exact elsewhere (other ok) (outcomes.checking r t here (keeps.checking pc) ok)
        · exact elsewhere (other ok) (outcomes.unspawned r none ok)
        · exact absurd pc (bound_of_bind bind).1
      case decided =>
        intro r t' found going pc
        rcases outcome_of_step moves found with
          ⟨other, t, here, keeps⟩ | ⟨-, -, new⟩ | ⟨t, ok, rfl, here, bind⟩
        · obtain ⟨before, bound, stays⟩ := keeps.going going
          have old := outcomes.decided r t here before fun checking => pc (stays checking)
          have member : .bind r true ∈ labels ++ [a] ↔ .bind r true ∈ labels := by
            simp [Ne.symm (other true)]
          rw [bound, keeps.client, member]
          exact old
        · exact absurd new pc
        · obtain ⟨-, client, bound⟩ := bound_of_bind bind
          have checking := (RegTask.bind_eq_some bind).1
          have fresh := outcomes.checking r t here checking true
          rw [bound, client]
          simp [fresh, eq_comm]

theorem Traceless.of_bound (booked : s.Booked) (running : s.running = true)
    (bound : ∀ t ∈ s.tasks, t.bound = true) : s.Traceless where
  tables := by
    intro p
    constructor
    · intro held
      obtain ⟨m, entry⟩ := Option.isSome_iff_exists.mp held
      obtain ⟨less, id⟩ := booked.routing p m entry
      have here := List.getElem?_eq_getElem less
      refine ⟨_, List.mem_of_getElem? here, ?_, bound _ (List.mem_of_getElem? here)⟩
      rw [(booked.task m _ here).1, id]
    · rintro ⟨t, mem, rfl, -⟩
      obtain ⟨r, here⟩ := List.mem_iff_getElem?.mp mem
      rw [(booked.task r t here).1, booked.routed running r (Slots.get_lt here)]
      rfl
  limit := by
    intro client s' move
    have all : s.tasks.countP RegTask.bound = s.tasks.length := List.countP_eq_length.mpr bound
    have count := booked.count
    rw [all]
    cases moves_of_step move with
    | recvLimit main full => exact ⟨fun _ => Nat.le_antisymm count full, fun _ => rfl⟩
    | recvRegister main free =>
        refine ⟨fun rejecting => ?_, fun full => absurd full (Nat.ne_of_lt free)⟩
        rw [main] at rejecting
        cases rejecting
    | recvOther _ register => cases register

theorem Traceless.bound (traceless : s.Traceless) (booked : s.Booked) (running : s.running = true)
    (here : s.tasks[r]? = some t) : t.bound = true := by
  have less := Slots.get_lt here
  have held : (s.proxyRouting t.proxyId).isSome := by
    rw [(booked.task r t here).1, booked.routed running r less]
    rfl
  obtain ⟨u, mem, same, bound⟩ := (traceless.tables t.proxyId).mp held
  obtain ⟨q, there⟩ := List.mem_iff_getElem?.mp mem
  rw [(booked.task q u there).1, (booked.task r t here).1] at same
  have count := booked.count
  have bound' := Slots.get_lt there
  obtain rfl : q = r := ofNat_inj (by omega) (by omega) same
  cases here.symm.trans there
  exact bound

/-! ## When it leaves none -/

def Decided (s : Server) : Prop := ∀ t ∈ s.tasks, t.pc ≠ .checking

/-- What a run must contain: the first sixteen Registers ask for ports the server may bind, and
the binds succeed. -/
def AllBind (labels : List ServerAct) (received : List RfrpFrame) : Prop :=
  ∀ (r : Nat) (client : ClientInfo),
    ((registersOf received).take maxProxiesPerClient)[r]? = some client →
      firstUnprivilegedPort ≤ client.bindPort ∧ .bind r true ∈ labels

theorem failed_registration (sndBuf : Nat) (labels : List ServerAct) (s : Server)
    (run : exec step (start sndBuf) labels = some s) (running : s.running = true)
    (decided : s.Decided) : s.Traceless ↔ AllBind labels s.received := by
  have reach : s.Reachable := ⟨sndBuf, reach_of_exec labels run⟩
  have clients := reach.tasks_clients
  have outcome : ∀ {r : Nat} {t : RegTask}, s.tasks[r]? = some t → (t.bound = true ↔
      firstUnprivilegedPort ≤ t.clientInfo.bindPort ∧ .bind r true ∈ labels) := by
    intro r t here
    have mem := List.mem_of_getElem? here
    exact (outcomes_of_exec run).decided r t here (reach.not_aborted running t mem) (decided t mem)
  unfold AllBind
  rw [← clients]
  constructor
  · intro traceless r client register
    rw [List.getElem?_map, Option.map_eq_some_iff] at register
    obtain ⟨t, here, rfl⟩ := register
    exact (outcome here).mp (traceless.bound reach.booked running here)
  · intro all
    apply Traceless.of_bound reach.booked running
    intro t mem
    obtain ⟨r, here⟩ := List.mem_iff_getElem?.mp mem
    have register : (s.tasks.map RegTask.clientInfo)[r]? = some t.clientInfo := by simp [here]
    exact (outcome here).mpr (all r t.clientInfo register)

def oneRegister (ok : Bool) : List ServerAct := [.recv (.register sshClient), .bind 0 ok, .answer 0]

theorem oneRegister_exec (ok : Bool) : ∃ s : Server, exec step (start 8) (oneRegister ok) = some s ∧
    s.running = true ∧ s.received = [.register sshClient] ∧ s.proxyRouting 0 = some 0 ∧
      s.tasks = [⟨sshClient, 0, 0, if ok then .accepting else .done, 0, 0, false⟩] := by
  cases ok <;> exact ⟨_, rfl, rfl, rfl, rfl, rfl⟩

theorem failed_registration_one : ∃ s : Server,
    exec step (start 8) (oneRegister true) = some s ∧ s.Traceless := by
  obtain ⟨s, moved, running, received, -, tasks⟩ := oneRegister_exec true
  have decided : s.Decided := by simp [Decided, tasks]
  refine ⟨s, moved, (failed_registration 8 _ s moved running decided).mpr ?_⟩
  intro r client register
  have one : (registersOf s.received).take maxProxiesPerClient = [sshClient] := by
    rw [received]
    rfl
  rw [one] at register
  obtain rfl : r = 0 := by
    have less := Slots.get_lt register
    rw [List.length_singleton] at less
    omega
  cases register
  exact ⟨by decide, by simp [oneRegister]⟩

theorem trace_left : ¬ ∀ (sndBuf : Nat) (labels : List ServerAct) (s : Server),
    exec step (start sndBuf) labels = some s → s.running = true →
      (∀ t ∈ s.tasks, t.unanswered = false) → s.Traceless := by
  intro claim
  obtain ⟨s, moved, running, -, table, tasks⟩ := oneRegister_exec false
  have traceless := claim 8 _ s moved running (by simp [RegTask.unanswered, tasks])
  obtain ⟨t, mem, -, bound⟩ := (traceless.tables 0).mp (by simp [table])
  rw [tasks] at mem
  obtain rfl := List.mem_singleton.mp mem
  cases bound

end Server

end Rfrp
