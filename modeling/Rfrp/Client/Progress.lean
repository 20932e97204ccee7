import Rfrp.Client.Quiescence

/-!
# A client whose transport does not fail

Such a client ends its session only in the registration phase, at an answer that is no acceptance.
Until that phase is over it sends nothing but Registers.
-/

namespace Rfrp.Client

open Transition Endpoint

variable {c c' : Client} {a : ClientAct} {config : List ClientInfo}

theorem going_of_step (running : c.running = true) (going : c.endpoint.Going)
    (fine : a.transportFails = false) (h : Moves c a c') : c'.endpoint.Going := by
  refine going.evolves ?_ ?_ (step_endpoint h)
  · rintro ⟨r, rfl⟩
    cases fine
  · rintro o b ⟨rfl, rfl⟩
    refine ⟨by simp [owners, running], ?_⟩
    rintro rfl
    cases fine

theorem ended_of_step (before : c.running = true) (going : c.endpoint.Going)
    (fine : a.transportFails = false) (h : Moves c a c') (after : c'.running = false) :
    ∃ i f, c.main = .awaiting i ∧ a = .recv f ∧
      ∀ response, f = .registerAck response → response.success = false := by
  have live : c.endpoint.tunnel.closed = false := by simpa [FrameWriter.closed] using going.serving
  cases h with
  | recvReject main rejected =>
      refine ⟨_, _, main, rfl, ?_⟩
      rintro response same
      cases same
      exact rejected
  | recvUnexpected main other =>
      refine ⟨_, _, main, rfl, ?_⟩
      rintro response rfl
      cases other
  | giveUp | exit => cases fine
  | registerErr _ closed =>
      rw [live] at closed
      cases closed
  | recvFast main _ finds | recvNew main _ finds => cases after
  | _ => simp_all [running]

/-- A client that is still up has had no failure. -/
theorem Reachable.going (reach : c.Reachable config) (running : c.running = true)
    (serving : c.endpoint.tunnel.task ≠ .done) : c.endpoint.Going := by
  refine reach.induct (P := fun c => c.running = true → c.endpoint.tunnel.task ≠ .done →
    c.endpoint.Going) (fun sndBuf _ _ => endpoint_start config sndBuf ▸ going_spawn sndBuf) ?_
    running serving
  intro c a c' _ ih move running serving
  have before := running_of_step move running
  have going := ih before fun finished => serving ((step_endpoint move).tunnel_done finished)
  cases fine : a.transportFails with
  | false => exact going_of_step before going fine move
  | true =>
      cases move with
      | giveUp | exit => cases running
      | @endpoint a endpoint move =>
          unfold ClientAct.transportFails at fine
          split at fine
          · rename_i same
            cases same
          · rename_i same
            cases same
            obtain ⟨tunnel, turned, rfl⟩ := Option.map_eq_some_iff.mp move
            cases FrameWriter.moves_of_step turned with
            | sendErr => exact absurd rfl serving
          · cases fine
      | _ => cases fine

/-- The server has turned a registration down, or answered it with something else. -/
def turnedDown (c : Client) : Prop := c.main = .ended .rejected ∨ c.main = .ended .unexpectedFrame

theorem turnedDown_of_step (up : (c.running = true ∧ c.endpoint.Going) ∨ c.turnedDown)
    (fine : a.transportFails = false) (h : Moves c a c') :
    (c'.running = true ∧ c'.endpoint.Going) ∨ c'.turnedDown := by
  rcases up with ⟨running, going⟩ | ended
  · have going' := going_of_step running going fine h
    have live : c.endpoint.tunnel.closed = false := by
      simpa [FrameWriter.closed] using going.serving
    cases h with
    | recvReject => exact Or.inr (Or.inl rfl)
    | recvUnexpected => exact Or.inr (Or.inr rfl)
    | giveUp | exit => cases fine
    | registerErr _ closed =>
        rw [live] at closed
        cases closed
    | recvFast | recvNew => exact Or.inl ⟨rfl, going'⟩
    | _ => exact Or.inl ⟨by simp_all [Client.running], going'⟩
  · right
    cases h with
    | tick | ping | pingErr | pingCancel | endpoint => exact ended
    | _ => simp_all [turnedDown]

def registering (c : Client) : Bool := c.main matches .registering _ | .awaiting _

theorem forwarding_of_running (live : c.running = true) (finished : c.registering = false) :
    c.forwarding = true := by
  unfold running at live
  unfold registering at finished
  unfold forwarding
  cases main : c.main <;> simp [main] at live finished ⊢

structure Unpinged (c : Client) : Prop where
  ping : c.ping = .unspawned
  frames : ∀ f ∈ c.endpoint.tunnel.chan.log, f.isPing = false

theorem Unpinged.step (unpinged : c.registering = true → c.Unpinged) (h : Moves c a c')
    (phase : c'.registering = true) : c'.Unpinged := by
  cases h with
  | recvAck main =>
      obtain ⟨ping, frames⟩ := unpinged (by simp [registering, main])
      exact ⟨ping, frames⟩
  | register main _ sent =>
      obtain ⟨ping, frames⟩ := unpinged (by simp [registering, main])
      obtain ⟨-, rfl⟩ := enqueue_eq_some sent
      refine ⟨ping, fun f mem => ?_⟩
      rcases List.mem_append.mp mem with old | new
      · exact frames f old
      · obtain rfl := List.mem_singleton.mp new
        rfl
  | recvStray =>
      obtain ⟨ping, frames⟩ := unpinged phase
      exact ⟨ping, frames⟩
  | tick waiting =>
      have ping := (unpinged phase).ping
      rw [waiting] at ping
      cases ping
  | ping sending =>
      have ping := (unpinged phase).ping
      rw [sending] at ping
      cases ping
  | pingErr sending =>
      have ping := (unpinged phase).ping
      rw [sending] at ping
      cases ping
  | pingCancel _ live =>
      have ping := (unpinged phase).ping
      rcases live with live | live <;> rw [live] at ping <;> cases ping
  | endpoint move =>
      obtain ⟨ping, frames⟩ := unpinged phase
      refine ⟨ping, fun f mem => ?_⟩
      rcases step_tunnel_log move with same | ⟨n, l, data, -, -, -, -, eq⟩
      · exact frames f (same ▸ mem)
      · rw [eq] at mem
        rcases List.mem_append.mp mem with old | new
        · exact frames f old
        · obtain rfl := List.mem_singleton.mp new
          rfl
  | recvOther main | recvUnknown main => simp [registering, main] at phase
  | _ => simp [registering, giveUp, teardown] at phase

theorem Reachable.unpinged (reach : c.Reachable config) (phase : c.registering = true) :
    c.Unpinged := by
  refine reach.induct (P := fun c => c.registering = true → c.Unpinged)
    (fun sndBuf phase => ⟨?_, ?_⟩) (fun _ _ _ _ ih move phase => Unpinged.step ih move phase) phase
  · rcases main_start config sndBuf with ⟨some, -⟩ | ⟨-, main⟩
    · unfold start registerFrom
      rw [if_pos some]
    · simp [registering, main] at phase
  · simp [endpoint_start, Endpoint.spawn, FrameWriter.spawn]

theorem Quiescent.awaiting (quiescent : c.Quiescent) (reach : c.Reachable config)
    (going : c.endpoint.Going) (phase : c.registering = true) : ∃ i, c.main = .awaiting i := by
  cases main : c.main with
  | awaiting i => exact ⟨i, rfl⟩
  | registering i =>
      have stage := reach.registered.stage
      simp only [Stage, main] at stage
      have live : c.endpoint.tunnel.closed = false := by
        simpa [FrameWriter.closed] using going.serving
      have here : c.config[i]? = some config[i] := by
        rw [reach.registered.config_eq]
        exact List.getElem?_eq_getElem stage.1
      have stuck := quiescent.parked .register rfl
      obtain ⟨endpoint, sent⟩ := Option.isSome_iff_exists.mp
        (quiescent.drained.enqueue live (.register config[i]))
      simp [step, main, here, sent] at stuck
  | _ => simp [registering, main] at phase

end Rfrp.Client
