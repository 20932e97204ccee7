import Rfrp.Server.Routing
import Rfrp.Proto.Lifetimes
import Rfrp.Proto.Quiescence

/-!
# Quiescence of the server

How the server's connections end, and where its tasks stand when none of them can move and nothing
is in flight.
-/

namespace Rfrp.Server

open Transition Endpoint

variable {s s' : Server} {a : ServerAct} {r : Nat} {t : RegTask}

theorem Reachable.detached (reach : s.Reachable) (live : s.running = true) :
    s.endpoint.Detached := by
  refine reach.induct (P := fun s => s.running = true → s.endpoint.Detached)
    (fun sndBuf _ => detached_spawn sndBuf) (fun s a s' before ih move live => ?_) live
  have running := running_of_step move live
  exact (ih running).evolves (by simp [allowed, running]) (step_endpoint before move)

theorem sound_of_run {sndBuf : Nat}
    (run : Run step (fun _ a => a.socketFails = false) (start sndBuf) s) (live : s.running = true) :
    s.endpoint.Sound := by
  refine run.induct (P := fun s => s.running = true → s.endpoint.Sound)
    (fun _ => sound_spawn sndBuf) (fun t a u before ih calm step live => ?_) live
  have move := moves_of_step step
  have running := running_of_step move live
  refine (ih running).evolves (by simp [allowed, running]) id ?_
    (step_endpoint ⟨sndBuf, before.reach⟩ move)
  rintro o b ⟨rfl, rfl⟩
  exact ⟨by simp [owners, running], calm⟩

theorem entered_new (booked : s.Booked) (h : Moves s a s') {l : Link UInt16}
    (new : s'.endpoint.links[s.endpoint.links.length]? = some l) :
    s'.endpoint.lookup l.map l.connId = some s.endpoint.links.length ∧ l.conn.Serving := by
  obtain ⟨r, t, sndBuf, -, here, rfl⟩ := step_grown h (Slots.get_lt new)
  have known : t.routing < s.endpoint.maps.length := by
    rw [booked.maps, (booked.task r t here).2]
    exact Slots.get_lt here
  rcases Slots.get_append new with old | ⟨-, rfl⟩
  · exact absurd (Slots.get_lt old) (Nat.lt_irrefl _)
  · simp [acceptConn, Endpoint.addLink, Endpoint.lookup, known, Conn.fresh, Conn.Serving]

theorem entered_of_run {sndBuf : Nat}
    (run : Run step (fun _ a => a.socketFails = false) (start sndBuf) s) (live : s.running = true)
    (few : ∀ r, s.accepted r < 2 ^ 64) : s.endpoint.Entered := by
  refine run.induct (P := fun s => s.running = true → (∀ r, s.accepted r < 2 ^ 64) →
    s.endpoint.Entered) (fun _ _ => entered_spawn sndBuf)
    (fun t a u before ih calm step live few => ?_) live few
  have reach : t.Reachable := ⟨sndBuf, before.reach⟩
  have after : u.Reachable := ⟨sndBuf, (before.tail calm step).reach⟩
  have move := moves_of_step step
  have running := running_of_step move live
  have less := fun r => Nat.lt_of_le_of_lt (accepted_mono reach move r) (few r)
  refine (ih running less).evolves (by simp [allowed, running]) id ?_ ?_
    (fun l new => entered_new reach.booked move new) (step_endpoint reach move)
  · rintro o b ⟨rfl, rfl⟩
    exact ⟨fun m => by simp [owners, running], calm⟩
  · exact fun n k l l' here here' map connId =>
      after.accepted.unique here' here (few _) map connId

structure Quiescent (s : Server) : Prop where
  parked : ∀ a, a.isTask = true → s.step a = none
  drained : s.endpoint.Drained

theorem Quiescent.endpoint (quiescent : s.Quiescent) : s.endpoint.Parked s.owners := by
  intro a task
  simpa [step] using quiescent.parked (.endpoint a) task

theorem Quiescent.main (quiescent : s.Quiescent) (reach : s.Reachable) :
    s.main = .reading ∨ ∃ r, s.main = .ended r := by
  have replies : ∀ f, s.replyFrame = some f → s.endpoint.tunnel.closed = true := by
    intro f frame
    by_contra live
    have stuck := quiescent.parked .reply rfl
    obtain ⟨endpoint, sent⟩ := Option.isSome_iff_exists.mp
      (quiescent.drained.enqueue (Bool.not_eq_true _ ▸ live) f)
    simp [step, frame, sent] at stuck
  have fails := quiescent.parked .replyErr rfl
  cases main : s.main with
  | reading => exact Or.inl rfl
  | ended r => exact Or.inr ⟨r, rfl⟩
  | rejecting client =>
      have closed := replies (.newRegAckFrame client false 0) (by simp only [replyFrame, main])
      simp [step, main, closed] at fails
  | ponging =>
      have closed := replies .newPongFrame (by simp only [replyFrame, main])
      simp [step, main, closed] at fails
  | routing n data =>
      have bound := reach.hand_lt n data (by simp [hand, main])
      have here : s.endpoint.links[n]? = some s.endpoint.links[n] := List.getElem?_eq_getElem bound
      cases closed : (s.endpoint.links[n]).conn.closed with
      | true =>
          have stuck := quiescent.parked .routeErr rfl
          simp [step, main, undeliverable, here, closed] at stuck
      | false =>
          have stuck := quiescent.parked .route rfl
          obtain ⟨endpoint, sent⟩ := Option.isSome_iff_exists.mp
            (quiescent.drained.deliver here closed data)
          simp [step, main, sent] at stuck

theorem Quiescent.answered (quiescent : s.Quiescent) (here : s.tasks[r]? = some t) :
    t.unanswered = false := by
  have answers : ∀ f t', t.answer = some (f, t') → False := by
    intro f t' answer
    cases closed : s.endpoint.tunnel.closed with
    | true =>
        have stuck := quiescent.parked (.answerErr r) rfl
        simp [step, here, answer, closed] at stuck
    | false =>
        have stuck := quiescent.parked (.answer r) rfl
        obtain ⟨endpoint, sent⟩ := Option.isSome_iff_exists.mp
          (quiescent.drained.enqueue closed f)
        simp [step, here, answer, sent] at stuck
  cases pc : t.pc with
  | checking =>
      have stuck := quiescent.parked (.bind r true) rfl
      simp [step, here, RegTask.bind, pc] at stuck
  | rejecting | acking => exact (answers _ _ (by simp only [RegTask.answer, pc]; rfl)).elim
  | _ => simp [RegTask.unanswered, pc]

theorem Quiescent.cancelled (quiescent : s.Quiescent) (reach : s.Reachable)
    (here : s.tasks[r]? = some t) (aborted : t.aborted = true) : t.pc = .done := by
  have stuck := quiescent.parked (.cancel r) rfl
  cases pc : t.pc with
  | done => rfl
  | acquiring n =>
      obtain ⟨l, link, -⟩ := reach.accepted.waits r n t here pc
      simp [step, here, aborted, pc, link] at stuck
  | _ => simp [step, here, aborted, pc] at stuck

def quiet (s : Server) : Bool :=
  s.endpoint.quiet s.owners && s.main matches .reading | .ended _ &&
    s.tasks.all fun t =>
      t.pc = .done ∨ t.pc = .accepting ∧ t.backlog = 0 ∧ t.aborted = false

theorem quiescent_of_quiet (quiet : s.quiet = true) : s.Quiescent := by
  simp only [Server.quiet, Bool.and_eq_true] at quiet
  obtain ⟨⟨endpoint, main⟩, tasks⟩ := quiet
  obtain ⟨parked, drained⟩ := quiet_iff.mp endpoint
  have idle : s.main = .reading ∨ ∃ r, s.main = .ended r := by
    cases hm : s.main <;> simp [hm] at main ⊢
  have settled : ∀ {r : Nat} {t : RegTask}, s.tasks[r]? = some t →
      t.pc = .done ∨ t.pc = .accepting ∧ t.backlog = 0 ∧ t.aborted = false := by
    intro r t here
    simpa using List.all_eq_true.mp tasks t (List.mem_of_getElem? here)
  refine ⟨fun a task => ?_, drained⟩
  cases a with
  | endpoint a => simpa [step] using parked a task
  | reply => rcases idle with main | ⟨r, main⟩ <;> simp [step, replyFrame, main]
  | replyErr | route | routeErr => rcases idle with main | ⟨r, main⟩ <;> simp [step, main]
  | bind r ok | answer r | answerErr r | accept r sndBuf | acquire r | cancel r =>
      cases here : s.tasks[r]? with
      | none => simp [step, here]
      | some t =>
          rcases settled here with pc | ⟨pc, backlog, going⟩ <;>
            simp [step, RegTask.bind, RegTask.answer, *]
  | _ => simp [ServerAct.isTask] at task

end Rfrp.Server
