import Rfrp.Server.Quiescence

/-!
# A server whose transport does not fail

Such a server goes on until the client leaves, owes an answer for every Register it has not
answered, and sends a pong only for a ping.
-/

namespace Rfrp

def ServerMain.owed : ServerMain → Nat
  | .rejecting _ => 1
  | _ => 0

namespace Server

open Transition Endpoint

variable {s s' : Server} {a : ServerAct}

def owed (s : Server) : Nat :=
  s.tasks.countP RegTask.unanswered + s.main.owed

structure AnswersAll (s : Server) : Prop where
  running : s.running = true
  going : s.endpoint.Going
  answers : (acksOf s.endpoint.tunnel.chan.log).length + s.owed = (registersOf s.received).length

theorem answersAll_start (sndBuf : Nat) : (start sndBuf).AnswersAll :=
  ⟨rfl, going_spawn sndBuf,
    by simp [start, owed, ServerMain.owed, Endpoint.spawn, FrameWriter.spawn]⟩

theorem going_of_step (reach : s.Reachable) (running : s.running = true) (going : s.endpoint.Going)
    (fine : a.transportFails = false) (h : Moves s a s') : s'.endpoint.Going := by
  refine going.evolves id ?_ (step_endpoint reach h)
  rintro o b ⟨rfl, rfl⟩
  refine ⟨by simp [owners, running], ?_⟩
  rintro rfl
  cases fine

theorem unanswered_set {r : Nat} {t t' : RegTask} (here : s.tasks[r]? = some t)
    (same : t'.unanswered = t.unanswered) :
    (s.tasks.set r t').countP RegTask.unanswered = s.tasks.countP RegTask.unanswered := by
  have moved := Slots.countP_set (b := t') RegTask.unanswered here
  rw [same] at moved
  omega

theorem answered_set {r : Nat} {t t' : RegTask} {f : RfrpFrame} (here : s.tasks[r]? = some t)
    (move : t.answer = some (f, t')) :
    (s.tasks.set r t').countP RegTask.unanswered + 1 = s.tasks.countP RegTask.unanswered ∧
      (acksOf [f]).length = 1 := by
  have moved := Slots.countP_set (b := t') RegTask.unanswered here
  rcases RegTask.answer_eq_some move with ⟨pc, rfl, rfl⟩ | ⟨pc, rfl, rfl⟩ <;>
    simp [RegTask.unanswered, pc, RfrpFrame.newRegAckFrame] at moved ⊢ <;> omega

theorem AnswersAll.step (all : s.AnswersAll) (reach : s.Reachable)
    (fine : a.transportFails = false) (h : Moves s a s') : s'.AnswersAll := by
  obtain ⟨running, going, answers⟩ := all
  have going' := going_of_step reach running going fine h
  have live : s.endpoint.tunnel.closed = false := by simpa [FrameWriter.closed] using going.serving
  have stays : ∀ {r : Nat} {t : RegTask}, s.tasks[r]? = some t → t.aborted = false := fun here =>
    reach.not_aborted running _ (List.mem_of_getElem? here)
  have idle : s'.main.owed = s.main.owed →
      s'.tasks.countP RegTask.unanswered = s.tasks.countP RegTask.unanswered →
      (acksOf s'.endpoint.tunnel.chan.log).length = (acksOf s.endpoint.tunnel.chan.log).length →
      (registersOf s'.received).length = (registersOf s.received).length → s'.running = true →
      s'.AnswersAll := by
    intro main tasks acks received running
    refine ⟨running, going', ?_⟩
    simp only [owed, main, tasks, acks, received] at answers ⊢
    exact answers
  cases h with
  | recvLimit main =>
      refine ⟨rfl, going', ?_⟩
      simp only [owed, main, ServerMain.owed] at answers ⊢
      simp [← answers]
      omega
  | recvRegister main =>
      refine ⟨running, going', ?_⟩
      simp only [owed, main, ServerMain.owed, List.countP_append] at answers ⊢
      simp [RegTask.spawn, RegTask.unanswered, ← answers]
      omega
  | recvPing main => exact idle (by simp [main, ServerMain.owed]) rfl rfl (by simp) rfl
  | recvOther _ register => exact idle rfl rfl rfl (by simp [registersOf, register]) running
  | recvRouted main => exact idle (by simp [main, ServerMain.owed]) rfl rfl (by simp) rfl
  | recvUnrouted => exact idle rfl rfl rfl (by simp) running
  | exit => cases fine
  | reply frame sent =>
      obtain ⟨-, rfl⟩ := enqueue_eq_some sent
      rcases replyFrame_eq_some frame with ⟨client, main, rfl⟩ | ⟨main, rfl⟩
      · refine ⟨rfl, going', ?_⟩
        simp only [owed, main, ServerMain.owed] at answers ⊢
        simp [RfrpFrame.newRegAckFrame, ← answers]
        omega
      · exact idle (by simp [main, ServerMain.owed]) rfl (by simp [RfrpFrame.newPongFrame]) rfl rfl
  | replyErr _ closed | pongErr _ closed | answerErr _ _ closed =>
      rw [live] at closed
      cases closed
  | route main sent =>
      obtain ⟨l, -, -, rfl⟩ := deliver_eq_some sent
      exact idle (by simp [main, ServerMain.owed]) rfl rfl rfl rfl
  | routeErr main => exact idle (by simp [main, ServerMain.owed]) rfl rfl rfl rfl
  | connect here => exact idle rfl (unanswered_set here rfl) rfl rfl running
  | bind here move =>
      obtain ⟨pc, pc', eq⟩ := RegTask.bind_eq_some move
      refine idle rfl (unanswered_set here ?_) rfl rfl running
      rcases pc' with ⟨pc', -⟩ | ⟨pc', -⟩ <;> simp [RegTask.unanswered, pc, pc']
  | answer here move sent =>
      obtain ⟨-, rfl⟩ := enqueue_eq_some sent
      obtain ⟨less, one⟩ := answered_set here move
      refine ⟨running, going', ?_⟩
      simp only [owed] at answers
      simp only [owed, setTask, Fifo.log_push, acksOf_append, List.length_append, one]
      omega
  | accept here pc | acquire here pc =>
      exact idle rfl (unanswered_set here (by simp [RegTask.unanswered, pc])) rfl rfl running
  | cancelWaiting here aborted | cancel here aborted =>
      rw [stays here] at aborted
      cases aborted
  | endpoint move =>
      refine idle rfl rfl ?_ rfl running
      rcases step_tunnel_log move with same | ⟨n, l, data, -, -, -, -, eq⟩
      · rw [same]
      · simp [eq, RfrpFrame.newDataFrame]

theorem answersAll_of_run {sndBuf : Nat}
    (run : Run step (fun _ a => a.transportFails = false) (start sndBuf) s) : s.AnswersAll :=
  run.induct (P := AnswersAll) (answersAll_start sndBuf) fun _ _ _ before ih fine step =>
    ih.step ⟨sndBuf, before.reach⟩ fine (moves_of_step step)

/-- A server that is still up has had no failure. -/
theorem Reachable.answersAll (reach : s.Reachable) (running : s.running = true)
    (serving : s.endpoint.tunnel.task ≠ .done) : s.AnswersAll := by
  refine reach.induct (P := fun s => s.running = true → s.endpoint.tunnel.task ≠ .done →
    s.AnswersAll) (fun sndBuf _ _ => answersAll_start sndBuf) ?_ running serving
  intro s a s' before ih move running serving
  have all := ih (running_of_step move running) fun finished =>
    serving ((step_endpoint before move).tunnel_done finished)
  cases fine : a.transportFails with
  | false => exact all.step before fine move
  | true =>
      cases move with
      | exit => cases running
      | @endpoint a endpoint move =>
          unfold ServerAct.transportFails at fine
          split at fine
          · rename_i same
            cases same
          · rename_i same
            cases same
            obtain ⟨tunnel, turned, rfl⟩ := Option.map_eq_some_iff.mp move
            cases FrameWriter.moves_of_step turned with
            | sendErr => exact absurd rfl serving
          · cases fine
      | _ => cases fine

theorem AnswersAll.answered (all : s.AnswersAll) (reach : s.Reachable) (quiescent : s.Quiescent) :
    (acksOf s.endpoint.tunnel.chan.log).length = (registersOf s.received).length := by
  have answers := all.answers
  have tasks : s.tasks.countP RegTask.unanswered = 0 := by
    refine List.countP_eq_zero.mpr fun t mem => ?_
    obtain ⟨r, here⟩ := List.mem_iff_getElem?.mp mem
    simp [quiescent.answered here]
  have main : s.main.owed = 0 := by
    rcases quiescent.main reach with main | ⟨r, main⟩ <;> simp [main, ServerMain.owed]
  rw [owed, tasks, main] at answers
  exact answers

structure Answering (s : Server) : Prop where
  frames : ∀ f ∈ s.endpoint.tunnel.chan.log, f.ack? = none → f.dataInfo? = none →
    ∃ g ∈ s.received, g.isPing = true
  ponging : s.main = .ponging → ∃ g ∈ s.received, g.isPing = true

theorem Answering.step (answering : s.Answering) (h : Moves s a s') : s'.Answering := by
  obtain ⟨frames, ponging⟩ := answering
  have more : (∃ g ∈ s.received, g.isPing = true) → ∃ g ∈ s'.received, g.isPing = true := by
    rintro ⟨g, mem, ping⟩
    rcases step_received h with same | ⟨f, -, eq⟩
    · exact ⟨g, same ▸ mem, ping⟩
    · exact ⟨g, by simp [eq, mem], ping⟩
  constructor
  · intro f mem ack data
    obtain ⟨fs, queues, log⟩ := queues_of_step h
    rw [log] at mem
    rcases List.mem_append.mp mem with old | new
    · exact more (frames f old ack data)
    · cases queues with
      | nothing => cases new
      | data =>
          obtain rfl := List.mem_singleton.mp new
          cases data
      | reply frame =>
          obtain rfl := List.mem_singleton.mp new
          rcases replyFrame_eq_some frame with ⟨client, -, rfl⟩ | ⟨main, -⟩
          · cases ack
          · exact more (ponging main)
      | answer _ move =>
          obtain rfl := List.mem_singleton.mp new
          rcases RegTask.answer_eq_some move with ⟨-, rfl, -⟩ | ⟨-, rfl, -⟩ <;> cases ack
  · intro main
    cases h with
    | recvPing _ ping => exact ⟨_, by simp; exact Or.inr rfl, by simpa [RfrpFrame.isPing] using ping⟩
    | recvOther | recvUnrouted | connect | bind | answer | answerErr | accept | acquire
    | cancelWaiting | cancel | endpoint => exact more (ponging main)
    | recvRegister main' => exact absurd (main'.symm.trans main) (by simp)
    | _ => cases main

theorem Reachable.answering (reach : s.Reachable) : s.Answering :=
  reach.induct (fun _ => ⟨fun _ mem => by simp [start, Endpoint.spawn, FrameWriter.spawn] at mem,
    fun main => by cases main⟩) fun _ _ _ _ ih move => ih.step move

end Server

end Rfrp
