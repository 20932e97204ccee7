import Rfrp.Client.Work
import Rfrp.Server.Work
import Rfrp.Session.Deadlock

/-!
# How much a session does

The tasks of a session do not spin: every step of theirs is paid for by the configured entries, by a
byte, a connection or a tick from outside. So they come to rest whenever the outside does.
-/

namespace Rfrp

open Transition

/-- The steps that the program takes itself. -/
def SessionAct.costs : SessionAct → Nat
  | .server a => a.costs
  | .client a => a.costs
  | .toServer | .toClient => 1

/-- What the users, the internal services and the timer bring. -/
def SessionAct.brings : SessionAct → Nat
  | .server a => a.brings
  | .client a => a.brings
  | .toServer | .toClient => 0

theorem ConnAct.costs_of_isTask {a : ConnAct} (task : a.isTask = true) :
    a.costs = 1 ∧ ∀ byte, a.brings byte = 0 := by
  cases a with
  | peerSends | peerShutdown | peerReads => cases task
  | _ => exact ⟨rfl, fun _ => rfl⟩

theorem EndpointAct.costs_of_isTask {a : EndpointAct} (task : a.isTask = true) :
    a.costs = 1 ∧ ∀ byte, a.brings byte = 0 := by
  cases a with
  | conn n a => exact ConnAct.costs_of_isTask task
  | writer a =>
      cases a with
      | peerReads => cases task
      | _ => exact ⟨rfl, fun _ => rfl⟩
  | _ => exact ⟨rfl, fun _ => rfl⟩

theorem SessionAct.costs_of_isTask {a : SessionAct} (task : a.isTask = true) :
    a.costs = 1 ∧ a.brings = 0 := by
  cases a with
  | toServer | toClient => exact ⟨rfl, rfl⟩
  | server a =>
      cases a with
      | recv | exit | connect => cases task
      | endpoint a => exact (EndpointAct.costs_of_isTask task).imp id fun none => none _
      | _ => exact ⟨rfl, rfl⟩
  | client a =>
      cases a with
      | recv | exit | connected | refused | tick => cases task
      | endpoint a => exact (EndpointAct.costs_of_isTask task).imp id fun none => none _
      | _ => exact ⟨rfl, rfl⟩

theorem Endpoint.work_peerReads {τ : Type} {o : Owners} {e e' : Endpoint τ} (rates : Rates)
    {f : RfrpFrame} {wire : Fifo RfrpFrame} (popped : e.tunnel.wire.pop = some (f, wire))
    (read : e.step o (.writer .peerReads) = some e') :
    e'.work rates + rates.frame f = e.work rates := by
  obtain ⟨tunnel, move, rfl⟩ := Option.map_eq_some_iff.mp read
  simp only [FrameWriter.step, popped, Option.some.injEq] at move
  subst move
  have less := FrameWriter.work_peerReads rates.frame popped
  simp only [work]
  omega

namespace Session

variable {s s' : Session} {a : SessionAct}

def work (s : Session) : Nat := s.server.work + s.client.work

theorem pays : Pays step work SessionAct.costs SessionAct.brings := by
  intro s a s' h
  unfold work
  cases moves_of_step h with
  | server here move =>
      have paid := Server.work_step (Server.moves_of_step move) (by rintro rfl; simp [ServerAct.isLocal] at here)
      simp only [SessionAct.costs, SessionAct.brings]
      omega
  | client here move =>
      have paid := Client.work_step (Client.moves_of_step move) (by rintro rfl; simp [ClientAct.isLocal] at here)
      simp only [SessionAct.costs, SessionAct.brings]
      omega
  | @toServer f wire client server popped read recv =>
      have paid := Server.work_step (Server.moves_of_step recv) (by simp)
      obtain ⟨endpoint, move, rfl⟩ := Option.map_eq_some_iff.mp read
      have less := Endpoint.work_peerReads Rates.client popped move
      have same : f.skipAddr.forServer = f.forServer := f.forServer_skipAddr
      simp only [ServerAct.costs, ServerAct.brings, Rates.client, Client.work] at paid less ⊢
      simp only [SessionAct.costs, SessionAct.brings]
      omega
  | @toClient f wire client server popped read recv =>
      have paid := Client.work_step (Client.moves_of_step recv) (by simp)
      obtain ⟨endpoint, move, rfl⟩ := Option.map_eq_some_iff.mp read
      have less := Endpoint.work_peerReads Rates.server popped move
      have same : f.skipAddr.forClient = f.forClient := f.forClient_skipAddr
      simp only [ClientAct.costs, ClientAct.brings, Rates.server, Server.work] at paid less ⊢
      simp only [SessionAct.costs, SessionAct.brings]
      omega

theorem work_start (config : ConfigInfo) (serverBuf clientBuf : Nat) :
    (start config serverBuf clientBuf).work ≤ 10 * config.clientProxy.length + 5 := by
  have entries : config.init.clientProxy.length = config.clientProxy.length := List.length_map ..
  unfold start work Client.start Client.registerFrom
  split
  · show 1 + 0 + (0 + 1 + 0 + 0) + (10 * (config.init.clientProxy.length - 0) + 2 + 0 +
      (0 + 1 + 0 + 0)) ≤ _
    omega
  · show 1 + 0 + (0 + 1 + 0 + 0) + (1 + 1 + (0 + 1 + 0 + 0)) ≤ _
    omega

/-- The steps a session has taken are paid for, and left alone it comes to rest. -/
theorem work_paid (config : ConfigInfo) (serverBuf clientBuf : Nat) (acts : List SessionAct)
    (s : Session) (run : exec step (start config serverBuf clientBuf) acts = some s) :
    (acts.map SessionAct.costs).sum ≤
        10 * config.clientProxy.length + 5 + (acts.map SessionAct.brings).sum ∧
      ∃ t, Run step (fun _ a => a.isTask = true) s t ∧ ∀ a, a.isTask = true → step t a = none := by
  have fresh := work_start config serverBuf clientBuf
  have paid := pays.exec acts run
  constructor
  · omega
  · have works : ∀ a : SessionAct, a.isTask = true → a.brings < a.costs := by
      intro a task
      obtain ⟨costs, brings⟩ := SessionAct.costs_of_isTask task
      omega
    exact rests_of_descends (pays.descends works) s

theorem work_paid_firstByte : ∃ s t, exec step (start sshConfig 8 8) firstByte = some s ∧
    (firstByte.map SessionAct.costs).sum ≤ 10 * 1 + 5 + (firstByte.map SessionAct.brings).sum ∧
    Run step (fun _ a => a.isTask = true) s t ∧ ∀ a, a.isTask = true → step t a = none := by
  have runs : (exec step (start sshConfig 8 8) firstByte).isSome = true := by decide
  obtain ⟨s, run⟩ := Option.isSome_iff_exists.mp runs
  obtain ⟨paid, t, rest⟩ := work_paid sshConfig 8 8 firstByte s run
  exact ⟨s, t, run, paid, rest⟩

end Session

end Rfrp
