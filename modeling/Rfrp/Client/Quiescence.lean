import Rfrp.Client.Forwarding
import Rfrp.Proto.Lifetimes
import Rfrp.Proto.Quiescence

/-!
# Quiescence of the client

How the client's connections end, and where its tasks stand when none of them can move and nothing
is in flight.
-/

namespace Rfrp.Client

open Transition Endpoint

variable {c c' : Client} {a : ClientAct} {config : List ClientInfo}

theorem running_of_step (h : Moves c a c') (after : c'.running = true) : c.running = true := by
  cases h <;> simp_all [running, giveUp, teardown]

theorem Reachable.detached (reach : c.Reachable config) : c.endpoint.Detached :=
  reach.induct (P := fun c => c.endpoint.Detached)
    (fun sndBuf => endpoint_start config sndBuf ▸ detached_spawn sndBuf)
    fun _ _ _ _ ih move => ih.evolves id (step_endpoint move)

theorem Reachable.spawned (reach : c.Reachable config) :
    ∀ (n : Nat) (l : Link String), c.endpoint.links[n]? = some l → l.waiting = false := by
  refine reach.induct (P := fun c => ∀ (n : Nat) (l : Link String),
    c.endpoint.links[n]? = some l → l.waiting = false)
    (fun sndBuf n l here => by simp [endpoint_start, Endpoint.spawn] at here) ?_
  intro c a c' _ ih move n l here
  have kept : c'.endpoint.links.map Link.waiting = c.endpoint.links.map Link.waiting →
      l.waiting = false := by
    intro same
    obtain ⟨l₀, here₀, waiting⟩ := Slots.get_of_map Link.waiting same here
    exact waiting ▸ ih n l₀ here₀
  cases move with
  | recvFast _ _ finds | recvNew _ _ finds =>
      exact kept (congrArg (List.map Link.waiting) (config_of_finds finds).2)
  | connected =>
      rcases Slots.get_append here with here | ⟨-, rfl⟩
      · exact ih n l here
      · rfl
  | register _ _ sent | ping _ sent =>
      obtain ⟨-, rfl⟩ := enqueue_eq_some sent
      exact kept rfl
  | forward _ sent =>
      obtain ⟨k, found, -, rfl⟩ := deliver_eq_some sent
      exact kept (map_setLink _ found rfl)
  | endpoint move => exact kept (step_waiting move)
  | _ => exact kept rfl

theorem sound_of_run {sndBuf : Nat}
    (run : Run step (fun _ a => a.socketFails = false) (start config sndBuf) c)
    (live : c.running = true) : c.endpoint.Sound := by
  refine run.induct (P := fun c => c.running = true → c.endpoint.Sound)
    (fun _ => endpoint_start config sndBuf ▸ sound_spawn sndBuf)
    (fun t a u before ih calm step live => ?_) live
  have move := moves_of_step step
  have running := running_of_step move live
  refine (ih running).evolves id ?_ ?_ (step_endpoint move)
  · rintro ⟨r, rfl⟩
    cases move <;> simp [Client.running, giveUp, teardown] at live
  · rintro o b ⟨rfl, rfl⟩
    refine ⟨?_, calm⟩
    simp [owners, running]

structure Quiescent (c : Client) : Prop where
  parked : ∀ a, a.isTask = true → c.step a = none
  drained : c.endpoint.Drained

theorem Quiescent.endpoint (quiescent : c.Quiescent) : c.endpoint.Parked c.owners := by
  intro a task
  simpa [step] using quiescent.parked (.endpoint a) task

theorem Quiescent.hand (quiescent : c.Quiescent) (reach : c.Reachable config) : c.hand = none := by
  cases main : c.main with
  | forwarding n d m =>
      have bound := reach.hand_lt n d.data (by simp [Client.hand, main])
      have here : c.endpoint.links[n]? = some c.endpoint.links[n] := List.getElem?_eq_getElem bound
      cases closed : (c.endpoint.links[n]).conn.closed with
      | true =>
          have stuck := quiescent.parked .forwardErr rfl
          simp [step, main, undeliverable, here, closed] at stuck
      | false =>
          have stuck := quiescent.parked .forward rfl
          obtain ⟨endpoint, sent⟩ := Option.isSome_iff_exists.mp
            (quiescent.drained.deliver here closed d.data)
          simp [step, main, sent] at stuck
  | _ => simp [Client.hand, main]

def quiet (c : Client) : Bool :=
  c.endpoint.quiet c.owners && c.main matches .awaiting _ | .reading | .ended _ &&
    (c.ping = .unspawned ∨ c.ping = .done ∨ c.ping = .waiting ∧ c.pingAborted = false)

theorem quiescent_of_quiet (quiet : c.quiet = true) : c.Quiescent := by
  simp only [Client.quiet, Bool.and_eq_true, decide_eq_true_eq] at quiet
  obtain ⟨⟨endpoint, main⟩, ping⟩ := quiet
  obtain ⟨parked, drained⟩ := quiet_iff.mp endpoint
  have idle : (∃ i, c.main = .awaiting i) ∨ c.main = .reading ∨ ∃ r, c.main = .ended r := by
    cases hm : c.main <;> simp [hm] at main ⊢
  refine ⟨fun a task => ?_, drained⟩
  cases a with
  | endpoint a => simpa [step] using parked a task
  | ping | pingErr | pingCancel =>
      rcases ping with ping | ping | ⟨ping, going⟩ <;> simp [step, *]
  | register | registerErr | forward | forwardErr =>
      rcases idle with ⟨i, main⟩ | main | ⟨r, main⟩ <;> simp [step, main]
  | _ => simp [ClientAct.isTask] at task

end Rfrp.Client
