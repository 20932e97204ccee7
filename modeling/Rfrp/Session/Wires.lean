import Rfrp.Session.Basic
import Rfrp.Server.Answers
import Rfrp.Client.Registration

/-!
# The two directions of the tunnel

A session is a run of the server and a run of the client, and what one side has received is what
the other side's writer has put on the wire, read so far.
-/

namespace Rfrp

open Transition

namespace Server

variable {s s' : Server} {a : ServerAct}

theorem step_local (h : Moves s a s') (here : a.isLocal = true ∨ a = .exit .eof) :
    s'.received = s.received ∧
      s'.endpoint.tunnel.wire.received = s.endpoint.tunnel.wire.received := by
  cases h with
  | recvLimit | recvRegister | recvPing | recvOther | recvRouted | recvUnrouted =>
      simp [ServerAct.isLocal] at here
  | reply _ sent | answer _ _ sent =>
      obtain ⟨-, rfl⟩ := Endpoint.enqueue_eq_some sent
      exact ⟨rfl, rfl⟩
  | route _ sent =>
      obtain ⟨l, -, -, rfl⟩ := Endpoint.deliver_eq_some sent
      exact ⟨rfl, rfl⟩
  | endpoint move =>
      refine ⟨rfl, Endpoint.step_wire move ?_⟩
      rintro rfl
      simp [ServerAct.isLocal] at here
  | _ => exact ⟨rfl, rfl⟩

theorem step_recv {f : RfrpFrame} (h : Moves s (.recv f) s') :
    s'.received = s.received ++ [f] ∧ s'.endpoint.tunnel = s.endpoint.tunnel := by
  cases h <;> exact ⟨rfl, rfl⟩

end Server

namespace Client

variable {c c' : Client} {a : ClientAct}

theorem step_local (h : Moves c a c') (here : a.isLocal = true ∨ a = .exit .eof) :
    c'.received = c.received ∧
      c'.endpoint.tunnel.wire.received = c.endpoint.tunnel.wire.received := by
  cases h with
  | recvAck | recvLastAck | recvStray | recvReject | recvUnexpected | recvOther | recvUnknown
  | recvFast | recvNew => simp [ClientAct.isLocal] at here
  | register _ _ sent | ping _ sent =>
      obtain ⟨-, rfl⟩ := Endpoint.enqueue_eq_some sent
      exact ⟨rfl, rfl⟩
  | forward _ sent =>
      obtain ⟨l, -, -, rfl⟩ := Endpoint.deliver_eq_some sent
      exact ⟨rfl, rfl⟩
  | endpoint move =>
      refine ⟨rfl, Endpoint.step_wire move ?_⟩
      rintro rfl
      simp [ClientAct.isLocal] at here
  | _ => exact ⟨rfl, rfl⟩

theorem step_recv {f : RfrpFrame} (h : Moves c (.recv f) c') :
    c'.received = c.received ++ [f] ∧ c'.endpoint.tunnel = c.endpoint.tunnel := by
  cases h with
  | recvFast _ _ finds | recvNew _ _ finds => cases finds <;> exact ⟨rfl, rfl⟩
  | _ => exact ⟨rfl, rfl⟩

end Client

namespace Session

variable {s s' : Session} {a : SessionAct} {config : ConfigInfo}

/-! ## The steps, one constructor each -/

inductive Moves (s : Session) : SessionAct → Session → Prop
  | server {a : ServerAct} {server : Server} (here : a.isLocal = true ∨ a = .exit .eof)
      (move : s.server.step a = some server) : Moves s (.server a) ⟨server, s.client⟩
  | client {a : ClientAct} {client : Client} (here : a.isLocal = true ∨ a = .exit .eof)
      (move : s.client.step a = some client) : Moves s (.client a) ⟨s.server, client⟩
  | toServer {f : RfrpFrame} {wire : Fifo RfrpFrame} {client : Client} {server : Server}
      (popped : s.client.endpoint.tunnel.wire.pop = some (f, wire))
      (read : s.client.step (.endpoint (.writer .peerReads)) = some client)
      (recv : s.server.step (.recv f.skipAddr) = some server) : Moves s .toServer ⟨server, client⟩
  | toClient {f : RfrpFrame} {wire : Fifo RfrpFrame} {client : Client} {server : Server}
      (popped : s.server.endpoint.tunnel.wire.pop = some (f, wire))
      (read : s.server.step (.endpoint (.writer .peerReads)) = some server)
      (recv : s.client.step (.recv f.skipAddr) = some client) : Moves s .toClient ⟨server, client⟩

theorem moves_of_step (h : s.step a = some s') : Moves s a s' := by
  cases a <;> simp only [step] at h
  case server a =>
    obtain ⟨here, h⟩ := Option.ite_none_right_eq_some.mp h
    obtain ⟨server, move, rfl⟩ := Option.map_eq_some_iff.mp h
    exact .server (here.imp_right And.left) move
  case client a =>
    obtain ⟨here, h⟩ := Option.ite_none_right_eq_some.mp h
    obtain ⟨client, move, rfl⟩ := Option.map_eq_some_iff.mp h
    exact .client (here.imp_right And.left) move
  case toServer =>
    obtain ⟨⟨f, wire⟩, popped, h⟩ := Option.bind_eq_some_iff.mp h
    obtain ⟨client, read, h⟩ := Option.bind_eq_some_iff.mp h
    obtain ⟨server, recv, rfl⟩ := Option.map_eq_some_iff.mp h
    exact .toServer popped read recv
  case toClient =>
    obtain ⟨⟨f, wire⟩, popped, h⟩ := Option.bind_eq_some_iff.mp h
    obtain ⟨server, read, h⟩ := Option.bind_eq_some_iff.mp h
    obtain ⟨client, recv, rfl⟩ := Option.map_eq_some_iff.mp h
    exact .toClient popped read recv

theorem Moves.sides (h : Moves s a s') :
    (s'.server = s.server ∨ ∃ b, s.server.step b = some s'.server) ∧
      (s'.client = s.client ∨ ∃ b, s.client.step b = some s'.client) := by
  cases h with
  | server _ move => exact ⟨Or.inr ⟨_, move⟩, Or.inl rfl⟩
  | client _ move => exact ⟨Or.inl rfl, Or.inr ⟨_, move⟩⟩
  | toServer _ read recv => exact ⟨Or.inr ⟨_, recv⟩, Or.inr ⟨_, read⟩⟩
  | toClient _ read recv => exact ⟨Or.inr ⟨_, read⟩, Or.inr ⟨_, recv⟩⟩

/-! ## Reachable sessions -/

def Reachable (config : ConfigInfo) (s : Session) : Prop :=
  ∃ serverBuf clientBuf, Reach step (start config serverBuf clientBuf) s

theorem Reachable.run {ok : Session → SessionAct → Prop} (reach : s.Reachable config)
    (run : Run step ok s s') : s'.Reachable config := by
  obtain ⟨serverBuf, clientBuf, before⟩ := reach
  exact ⟨serverBuf, clientBuf, before.trans run.reach⟩

theorem Reachable.next (reach : s.Reachable config) (move : s.step a = some s') :
    s'.Reachable config := by
  have single : Run step (fun _ _ => True) s s' := (Run.refl s).tail trivial move
  exact reach.run single

theorem Reachable.server (reach : s.Reachable config) : s.server.Reachable := by
  obtain ⟨serverBuf, clientBuf, run⟩ := reach
  refine ⟨serverBuf, run.simulate Session.server fun s a t _ move => ?_⟩
  rcases (moves_of_step move).sides.1 with same | ⟨b, step⟩
  · rw [same]
    exact Run.refl _
  · exact (Run.refl _).tail trivial step

theorem Reachable.client (reach : s.Reachable config) :
    s.client.Reachable config.init.clientProxy := by
  obtain ⟨serverBuf, clientBuf, run⟩ := reach
  refine ⟨clientBuf, run.simulate Session.client fun s a t _ move => ?_⟩
  rcases (moves_of_step move).sides.2 with same | ⟨b, step⟩
  · rw [same]
    exact Run.refl _
  · exact (Run.refl _).tail trivial step

theorem Reachable.induct {P : Session → Prop} (reach : s.Reachable config)
    (fresh : ∀ serverBuf clientBuf, P (start config serverBuf clientBuf))
    (preserve : ∀ s a s', s.Reachable config → s'.Reachable config → P s → Moves s a s' → P s') :
    P s := by
  obtain ⟨serverBuf, clientBuf, run⟩ := reach
  exact Run.induct run (fresh serverBuf clientBuf) fun _ _ _ before ih _ move =>
    preserve _ _ _ ⟨serverBuf, clientBuf, before⟩
      ⟨serverBuf, clientBuf, before.tail trivial move⟩ ih (moves_of_step move)

/-! ## What crosses the tunnel -/

structure Wired (s : Session) : Prop where
  toServer : s.server.received = s.client.endpoint.tunnel.wire.received.map RfrpFrame.skipAddr
  toClient : s.client.received = s.server.endpoint.tunnel.wire.received.map RfrpFrame.skipAddr

theorem peerReads_eq_some {τ : Type} {o : Owners} {e e' : Endpoint τ} {f : RfrpFrame}
    {wire : Fifo RfrpFrame} (popped : e.tunnel.wire.pop = some (f, wire))
    (read : e.step o (.writer .peerReads) = some e') :
    e'.tunnel.wire.received = e.tunnel.wire.received ++ [f] := by
  obtain ⟨tunnel, move, rfl⟩ := Option.map_eq_some_iff.mp read
  simp only [FrameWriter.step, popped, Option.some.injEq] at move
  subst move
  exact (Fifo.pop_eq_some popped).2.1

theorem Wired.step (wired : s.Wired) (h : Moves s a s') : s'.Wired := by
  obtain ⟨toServer, toClient⟩ := wired
  cases h with
  | server here move =>
      obtain ⟨received, wire⟩ := Server.step_local (Server.moves_of_step move) here
      exact ⟨received ▸ toServer, by rw [wire]; exact toClient⟩
  | client here move =>
      obtain ⟨received, wire⟩ := Client.step_local (Client.moves_of_step move) here
      exact ⟨by rw [wire]; exact toServer, received ▸ toClient⟩
  | toServer popped read recv =>
      obtain ⟨endpoint, move, rfl⟩ := Option.map_eq_some_iff.mp read
      obtain ⟨received, tunnel⟩ := Server.step_recv (Server.moves_of_step recv)
      refine ⟨?_, by rw [tunnel]; exact toClient⟩
      rw [received, peerReads_eq_some popped move, toServer, List.map_append, List.map_singleton]
  | toClient popped read recv =>
      obtain ⟨endpoint, move, rfl⟩ := Option.map_eq_some_iff.mp read
      obtain ⟨received, tunnel⟩ := Client.step_recv (Client.moves_of_step recv)
      refine ⟨by rw [tunnel]; exact toServer, ?_⟩
      rw [received, peerReads_eq_some popped move, toClient, List.map_append, List.map_singleton]

theorem Reachable.wired (reach : s.Reachable config) : s.Wired := by
  refine reach.induct (fun serverBuf clientBuf => ?_) fun _ _ _ _ _ ih move => ih.step move
  have received : (Client.start config.init.clientProxy clientBuf).received = [] := by
    unfold Client.start Client.registerFrom
    split <;> rfl
  refine ⟨?_, received⟩
  rw [start, Client.endpoint_start]
  rfl

section logs
variable (reach : s.Reachable config)
include reach

theorem Reachable.toServer :
    s.server.received <+: s.client.endpoint.tunnel.chan.log.map RfrpFrame.skipAddr := by
  rw [reach.wired.toServer]
  exact ((Fifo.received_isPrefix _).trans reach.client.endpoint_ok.tunnel.wire_isPrefix).map _

theorem Reachable.toClient :
    s.client.received <+: s.server.endpoint.tunnel.chan.log.map RfrpFrame.skipAddr := by
  rw [reach.wired.toClient]
  exact ((Fifo.received_isPrefix _).trans reach.server.endpoint_ok.tunnel.wire_isPrefix).map _

theorem Reachable.data_toServer :
    dataOf s.server.received <+: dataOf s.client.endpoint.tunnel.chan.log := by
  simpa using dataOf_isPrefix reach.toServer

theorem Reachable.data_toClient :
    dataOf s.client.received <+: dataOf s.server.endpoint.tunnel.chan.log := by
  simpa using dataOf_isPrefix reach.toClient

theorem Reachable.registers_toServer : registersOf s.server.received <+:
    (registersOf s.client.endpoint.tunnel.chan.log).map ClientInfo.skipAddr := by
  simpa using registersOf_isPrefix reach.toServer

theorem Reachable.acks_toClient : acksOf s.client.received <+:
    (acksOf s.server.endpoint.tunnel.chan.log).map
      fun a => { a with client := a.client.skipAddr } := by
  simpa using acksOf_isPrefix reach.toClient

end logs

end Session

end Rfrp
