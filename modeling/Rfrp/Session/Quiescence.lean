import Rfrp.Session.Isolation
import Rfrp.Server.Progress
import Rfrp.Client.Progress

/-!
# Quiescent sessions

In a quiescent session no task of either side can move and nothing is in flight: each side has
received all that was queued for it.
-/

namespace Rfrp

open Transition

def SessionAct.socketFails : SessionAct → Bool
  | .server a => a.socketFails
  | .client a => a.socketFails
  | _ => false

structure Half where
  proxyId : UInt32
  connId : UInt64
  read : Bytes
  wrote : Bytes
  eof : Bool
  isOpen : Bool
deriving DecidableEq

def Link.half {τ : Type} (l : Link τ) : Half :=
  ⟨l.proxyId, l.connId, l.conn.inbound.received, l.conn.outbound.log, l.conn.eof, l.conn.isOpen⟩

namespace Session

variable {s : Session} {config : ConfigInfo} {m n : Nat}

/-- No task of either side can move and nothing is in flight. -/
structure Quiescent (s : Session) : Prop where
  server : s.server.Quiescent
  client : s.client.Quiescent

/-- Neither main loop has ended. -/
structure Live (s : Session) : Prop where
  server : s.server.running = true
  client : s.client.running = true

theorem calm_server {serverBuf clientBuf : Nat}
    (run : Run step (fun _ a => a.socketFails = false) (start config serverBuf clientBuf) s) :
    Run Server.step (fun _ a => a.socketFails = false) (.start serverBuf) s.server := by
  refine run.simulate Session.server fun s a t calm move => ?_
  cases moves_of_step move with
  | server _ step => exact (Run.refl _).tail calm step
  | client => exact Run.refl _
  | toServer _ _ recv => exact (Run.refl _).tail rfl recv
  | toClient _ read => exact (Run.refl _).tail rfl read

theorem calm_client {serverBuf clientBuf : Nat}
    (run : Run step (fun _ a => a.socketFails = false) (start config serverBuf clientBuf) s) :
    Run Client.step (fun _ a => a.socketFails = false)
      (.start config.init.clientProxy clientBuf) s.client := by
  refine run.simulate Session.client fun s a t calm move => ?_
  cases moves_of_step move with
  | server => exact Run.refl _
  | client _ step => exact (Run.refl _).tail calm step
  | toServer _ read => exact (Run.refl _).tail rfl read
  | toClient _ _ recv => exact (Run.refl _).tail rfl recv

theorem Quiescent.server_free (quiescent : s.Quiescent) (reach : s.Reachable config) (n : Nat) :
    s.server.owners.link n = false := by
  rcases quiescent.server.main reach.server with main | ⟨r, main⟩ <;> simp [Server.owners, main]

theorem Quiescent.client_free (quiescent : s.Quiescent) (reach : s.Reachable config) (n : Nat) :
    s.client.owners.link n = false := by
  have idle := quiescent.client.hand reach.client
  cases main : s.client.main with
  | forwarding k d m => simp [Client.hand, main] at idle
  | _ => simp [Client.owners, main]

theorem Quiescent.toServer (quiescent : s.Quiescent) (reach : s.Reachable config)
    (going : s.client.endpoint.Going) :
    s.server.received = s.client.endpoint.tunnel.chan.log.map RfrpFrame.skipAddr := by
  have drained := quiescent.client.drained
  have sent := reach.client.endpoint_ok.tunnel.sent_eq going.serving
  rw [drained.hand, List.append_nil, Fifo.received_eq_log (drained.chan going.serving)] at sent
  rw [reach.wired.toServer, Fifo.received_eq_log drained.wire, sent]

theorem Quiescent.toClient (quiescent : s.Quiescent) (reach : s.Reachable config)
    (going : s.server.endpoint.Going) :
    s.client.received = s.server.endpoint.tunnel.chan.log.map RfrpFrame.skipAddr := by
  have drained := quiescent.server.drained
  have sent := reach.server.endpoint_ok.tunnel.sent_eq going.serving
  rw [drained.hand, List.append_nil, Fifo.received_eq_log (drained.chan going.serving)] at sent
  rw [reach.wired.toClient, Fifo.received_eq_log drained.wire, sent]

/-! ## Settled runs -/

def settled (s : Session) : Bool :=
  s.server.running && s.client.running && s.server.quiet && s.client.quiet

theorem live_of_settled (settled : s.settled = true) : s.Live ∧ s.Quiescent := by
  simp only [Session.settled, Bool.and_eq_true] at settled
  obtain ⟨⟨⟨server, client⟩, quiet⟩, quiet'⟩ := settled
  exact ⟨⟨server, client⟩, Server.quiescent_of_quiet quiet, Client.quiescent_of_quiet quiet'⟩

theorem halves_of_exec {config : ConfigInfo} {serverBuf clientBuf : Nat} {h h' : Half}
    (labels : List SessionAct)
    (view : (exec (guarded step fun _ a => a.socketFails = false)
      (start config serverBuf clientBuf) labels).map
        (fun s => (s.settled, s.server.endpoint.links.map Link.half,
          s.client.endpoint.links.map Link.half)) = some (true, [h], [h'])) :
    ∃ (s : Session) (e : Link UInt16) (l : Link String),
      Run step (fun _ a => a.socketFails = false) (start config serverBuf clientBuf) s ∧
      s.Live ∧ s.Quiescent ∧ s.server.endpoint.links = [e] ∧ s.client.endpoint.links = [l] ∧
      e.half = h ∧ l.half = h' := by
  obtain ⟨s, run, view⟩ := Option.map_eq_some_iff.mp view
  simp only [Prod.mk.injEq] at view
  obtain ⟨settled, server, client⟩ := view
  obtain ⟨e, rest, here, half, nil⟩ := List.map_eq_cons_iff.mp server
  obtain ⟨l, rest', there, half', nil'⟩ := List.map_eq_cons_iff.mp client
  obtain rfl := List.map_eq_nil_iff.mp nil
  obtain rfl := List.map_eq_nil_iff.mp nil'
  obtain ⟨live, quiescent⟩ := live_of_settled settled
  exact ⟨s, e, l, run_of_exec _ run, live, quiescent, here, there, half, half'⟩

theorem reads_of_half {τ : Type} {l : Link τ} {h : Half} (ok : l.conn.Ok) (half : l.half = h)
    (some : h.read ≠ []) : l.conn.reads ≠ [] := by
  rintro none
  have read : l.conn.inbound.received = h.read := congrArg Half.read half
  rw [← ok.reads_eq, none] at read
  exact some read.symm

end Session

end Rfrp
