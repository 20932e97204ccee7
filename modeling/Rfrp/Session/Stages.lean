import Rfrp.Session.Basic
import Rfrp.Proto.Filling

/-!
# Filling a session

Runs in which one connection is busy in both directions, put together from the moves of one side
and of one frame: a channel or a socket that nobody empties fills up, whatever the rest of the
session does.
-/

namespace Rfrp

open Transition

namespace Conn

variable {τ : Type}

def ReadUp (R : List (Link τ) → Prop) (c : Conn) (rest : List (Link τ)) : Prop :=
  c.writer = .receiving ∧ c.chan.queue = [] ∧ c.outbound.queue = [] ∧ R rest

/-- The write task flushes `held`, the peer has not read `unread`, and `k` payloads are queued. -/
def Stalled (R : List (Link τ) → Prop) (held unread : Bytes) (k : Nat) (c : Conn)
    (rest : List (Link τ)) : Prop :=
  c.writer = .flushing ∧ c.held = held ∧ c.outbound.queue = unread ∧ c.sndBuf = 1 ∧
    c.chan.queue.length = k ∧ R rest

variable {R : List (Link τ) → Prop}

instance [DecidablePred R] (c : Conn) (rest : List (Link τ)) : Decidable (c.ReadUp R rest) :=
  inferInstanceAs (Decidable (_ ∧ _))

instance [DecidablePred R] (held unread : Bytes) (k : Nat) (c : Conn) (rest : List (Link τ)) :
    Decidable (c.Stalled R held unread k rest) :=
  inferInstanceAs (Decidable (_ ∧ _))

theorem unread_readUp : Unread (ReadUp R) := fun _ _ _ _ _ up => up

theorem unread_stalled (held unread : Bytes) (k : Nat) : Unread (Stalled R held unread k) :=
  fun _ _ _ _ _ stalled => stalled

end Conn

/-- Every socket is given room for something. -/
def SessionAct.roomy : SessionAct → Bool
  | .server (.accept _ sndBuf) | .client (.connected sndBuf) => 0 < sndBuf
  | _ => true

def SessionAct.pushes : SessionAct → Bool
  | .server (.endpoint a) | .client (.endpoint a) => a.pushes
  | _ => false

namespace Session

variable {main : ServerMain} {main' : ClientMain} {S S' : Endpoint UInt16 → Prop}
  {C C' : Endpoint String → Prop}

structure Holds (main : ServerMain) (S : Endpoint UInt16 → Prop) (main' : ClientMain)
    (C : Endpoint String → Prop) (s : Session) : Prop where
  serverMain : s.server.main = main
  server : S s.server.endpoint
  clientMain : s.client.main = main'
  client : C s.client.endpoint
  routes : s.server.routingFor 0 = (some 0, some (0, 0))
  known : (s.client.proxyConfigs 0).isSome
  cached : s.client.cachedConns = some (0, 0)
  ping : s.client.ping = .waiting

instance [DecidablePred S] [DecidablePred C] : DecidablePred (Holds main S main' C) := fun s =>
  decidable_of_iff (s.server.main = main ∧ S s.server.endpoint ∧ s.client.main = main' ∧
      C s.client.endpoint ∧ s.server.routingFor 0 = (some 0, some (0, 0)) ∧
      (s.client.proxyConfigs 0).isSome ∧ s.client.cachedConns = some (0, 0) ∧
      s.client.ping = .waiting)
    ⟨fun ⟨a, b, c, d, e, f, g, h⟩ => ⟨a, b, c, d, e, f, g, h⟩,
      fun ⟨a, b, c, d, e, f, g, h⟩ => ⟨a, b, c, d, e, f, g, h⟩⟩

/-- Every socket is given room, and no peer is given anything. -/
def given (_ : Session) (a : SessionAct) : Prop := a.roomy = true ∧ a.pushes = false

instance (s : Session) (a : SessionAct) : Decidable (s.given a) :=
  inferInstanceAs (Decidable (_ ∧ _))

def onServer (s : Session) (e : Endpoint UInt16) : Session :=
  { s with server := { s.server with endpoint := e } }

def onClient (s : Session) (e : Endpoint String) : Session :=
  { s with client := { s.client with endpoint := e } }

theorem server_run {s : Session} {e : Endpoint UInt16}
    (run : Run (Endpoint.step s.server.owners) Endpoint.own s.server.endpoint e) :
    Run step given s (s.onServer e) := by
  apply run.simulate s.onServer
  intro e a e' own move
  have here : ServerAct.isLocal (.endpoint a) = true := by
    unfold ServerAct.isLocal
    split <;> simp_all [Endpoint.own]
  have moved : e.step (s.onServer e).server.owners a = some e' := move
  have taken : (s.onServer e).step (.server (.endpoint a)) = some (s.onServer e') := by
    simp only [onServer] at moved
    simp [onServer, step, here, Server.step, moved]
  have admitted : (s.onServer e).given (.server (.endpoint a)) := ⟨rfl, own.2⟩
  exact (Run.refl _).tail admitted taken

theorem client_run {s : Session} {e : Endpoint String}
    (run : Run (Endpoint.step s.client.owners) Endpoint.own s.client.endpoint e) :
    Run step given s (s.onClient e) := by
  apply run.simulate s.onClient
  intro e a e' own move
  have here : ClientAct.isLocal (.endpoint a) = true := by
    unfold ClientAct.isLocal
    split <;> simp_all [Endpoint.own]
  have moved : e.step (s.onClient e).client.owners a = some e' := move
  have taken : (s.onClient e).step (.client (.endpoint a)) = some (s.onClient e') := by
    simp only [onClient] at moved
    simp [onClient, step, here, Client.step, moved]
  have admitted : (s.onClient e).given (.client (.endpoint a)) := ⟨rfl, own.2⟩
  exact (Run.refl _).tail admitted taken

theorem holds_server (leads : ∀ o, Leads (Endpoint.step o) Endpoint.own S S') :
    Leads step given (Holds main S main' C) (Holds main S' main' C) := by
  intro s holds
  obtain ⟨e, run, reached⟩ := leads s.server.owners _ holds.server
  exact ⟨_, server_run run, { holds with server := reached }⟩

theorem holds_client (leads : ∀ o, Leads (Endpoint.step o) Endpoint.own C C') :
    Leads step given (Holds main S main' C) (Holds main S main' C') := by
  intro s holds
  obtain ⟨e, run, reached⟩ := leads s.client.owners _ holds.client
  exact ⟨_, client_run run, { holds with client := reached }⟩

variable {W : Conn → List (Link UInt16) → Prop} {W' : Conn → List (Link String) → Prop} {q q' : Nat}
  {task task' : WriterTask} {wire wire' : List RfrpFrame} {held unread : Bytes}

theorem holds_toClient : Leads step given
    (Holds main (Endpoint.Holds W q task (datum :: wire)) .reading
      (Endpoint.Holds W' q' task' wire'))
    (Holds main (Endpoint.Holds W q task wire) (.forwarding 0 ⟨0, 0, [0]⟩ 0)
      (Endpoint.Holds W' q' task' wire')) := by
  apply Leads.of_step
  intro s holds
  obtain ⟨tail, tunnel, popped, read, held⟩ :=
    holds.server.tunnel.read (s.server.endpoint.tunnelSenders s.server.owners)
  obtain ⟨client, known⟩ := Option.isSome_iff_exists.mp holds.known
  refine ⟨.toClient, ⟨{ s.server with endpoint := { s.server.endpoint with tunnel } },
    { s.client with main := .forwarding 0 ⟨0, 0, [0]⟩ 0, received := s.client.received ++ [datum] }⟩,
    ⟨rfl, rfl⟩, ?_, ?_⟩
  · have entry := holds.client.entry
    simp [step, popped, Server.step, Endpoint.step, read, Client.step, holds.clientMain, datum,
      RfrpFrame.newDataFrame, RfrpFrame.skipAddr, Client.handleFrame, known, Client.connsFor,
      holds.cached, entry]
  · exact { holds with server := ⟨held, holds.server.link, holds.server.entry⟩, clientMain := rfl }

theorem holds_forward {R : List (Link String) → Prop} {k : Nat} {d : DataInfo} {m : Nat}
    (room : k < channelCapacity) :
    Leads step given
      (Holds main S (.forwarding 0 d m) (Endpoint.Holds (Conn.Stalled R held unread k) q task wire))
      (Holds main S .reading (Endpoint.Holds (Conn.Stalled R held unread (k + 1)) q task wire)) := by
  apply Leads.of_step
  intro s holds
  obtain ⟨l, rest, links, proxyId, connId, map, listens, writer, holding, sent, buf, queued,
    others⟩ := holds.client.link
  let conn : Conn := { l.conn with chan := l.conn.chan.push d.data }
  refine ⟨.client .forward, ⟨s.server, { s.client with
    main := .reading, endpoint := { s.client.endpoint with links := l.setConn conn :: rest } }⟩,
    ⟨rfl, rfl⟩, ?_, ?_⟩
  · simp [step, ClientAct.isLocal, Client.step, holds.clientMain, Endpoint.deliver, links,
      Conn.send, Conn.closed, writer, queued, room, Endpoint.setLink, conn]
  · have link : Endpoint.leading (Conn.Stalled R held unread (k + 1)) (l.setConn conn :: rest) :=
      ⟨_, rest, rfl, proxyId, connId, map, ⟨listens.reader, listens.read, listens.eof⟩, writer,
        holding, sent, buf, by simp [conn, Link.setConn, queued], others⟩
    exact { holds with clientMain := rfl, client := ⟨holds.client.tunnel, link, holds.client.entry⟩ }

theorem holds_toServer : Leads step given
    (Holds .reading (Endpoint.Holds W q task wire) main'
      (Endpoint.Holds W' q' task' (datum :: wire')))
    (Holds (.routing 0 [0]) (Endpoint.Holds W q task wire) main'
      (Endpoint.Holds W' q' task' wire')) := by
  apply Leads.of_step
  intro s holds
  obtain ⟨tail, tunnel, popped, read, held⟩ :=
    holds.client.tunnel.read (s.client.endpoint.tunnelSenders s.client.owners)
  refine ⟨.toServer, ⟨{ s.server with
      main := .routing 0 [0], received := s.server.received ++ [datum], cachedRouting := some (0, 0) },
    { s.client with endpoint := { s.client.endpoint with tunnel } }⟩, ⟨rfl, rfl⟩, ?_, ?_⟩
  · simp [step, popped, Client.step, Endpoint.step, read, Server.step, holds.serverMain, datum,
      RfrpFrame.newDataFrame, RfrpFrame.skipAddr, Server.handleFrame, holds.routes,
      holds.server.entry]
  · have routes : Server.routingFor { s.server with
        main := .routing 0 [0], received := s.server.received ++ [datum]
        cachedRouting := some (0, 0) } 0 = (some 0, some (0, 0)) := by simp [Server.routingFor]
    exact { holds with
      serverMain := rfl, routes, client := ⟨held, holds.client.link, holds.client.entry⟩ }

theorem holds_route {R : List (Link UInt16) → Prop} {k : Nat} {data : Bytes}
    (room : k < channelCapacity) :
    Leads step given
      (Holds (.routing 0 data) (Endpoint.Holds (Conn.Stalled R held unread k) q task wire) main' C)
      (Holds .reading (Endpoint.Holds (Conn.Stalled R held unread (k + 1)) q task wire) main' C) := by
  apply Leads.of_step
  intro s holds
  obtain ⟨l, rest, links, proxyId, connId, map, listens, writer, holding, sent, buf, queued,
    others⟩ := holds.server.link
  let conn : Conn := { l.conn with chan := l.conn.chan.push data }
  refine ⟨.server .route, ⟨{ s.server with
    main := .reading, endpoint := { s.server.endpoint with links := l.setConn conn :: rest } },
    s.client⟩, ⟨rfl, rfl⟩, ?_, ?_⟩
  · simp [step, ServerAct.isLocal, Server.step, holds.serverMain, Endpoint.deliver, links,
      Conn.send, Conn.closed, writer, queued, room, Endpoint.setLink, conn]
  · have link : Endpoint.leading (Conn.Stalled R held unread (k + 1)) (l.setConn conn :: rest) :=
      ⟨_, rest, rfl, proxyId, connId, map, ⟨listens.reader, listens.read, listens.eof⟩, writer,
        holding, sent, buf, by simp [conn, Link.setConn, queued], others⟩
    exact { holds with serverMain := rfl, server := ⟨holds.server.tunnel, link, holds.server.entry⟩ }

theorem holds_ping : Leads step given
    (Holds .reading S main' (Endpoint.Holds W' q task (.newPingFrame :: wire)))
    (Holds .ponging S main' (Endpoint.Holds W' q task wire)) := by
  apply Leads.of_step
  intro s holds
  obtain ⟨tail, tunnel, popped, read, held⟩ :=
    holds.client.tunnel.read (s.client.endpoint.tunnelSenders s.client.owners)
  refine ⟨.toServer, ⟨{ s.server with main := .ponging, received := s.server.received ++ [.newPingFrame] },
    { s.client with endpoint := { s.client.endpoint with tunnel } }⟩, ⟨rfl, rfl⟩, ?_, ?_⟩
  · simp [step, popped, Client.step, Endpoint.step, read, Server.step, holds.serverMain,
      RfrpFrame.newPingFrame, RfrpFrame.skipAddr, Server.handleFrame]
  · exact { holds with serverMain := rfl, client := ⟨held, holds.client.link, holds.client.entry⟩ }

section full
variable {R : List (Link UInt16) → Prop} {R' : List (Link String) → Prop}

theorem client_carry : Leads step given
    (Holds main (Endpoint.Holds (Conn.ReadUp R) 0 .receiving []) .reading
      (Endpoint.Holds W' q task wire))
    (Holds main (Endpoint.Holds (Conn.ReadUp R) 0 .receiving []) (.forwarding 0 ⟨0, 0, [0]⟩ 0)
      (Endpoint.Holds W' q task wire)) :=
  (holds_server fun o => Endpoint.holds_carry o Conn.unread_readUp).trans holds_toClient

theorem server_carry : Leads step given
    (Holds .reading (Endpoint.Holds W q task wire) main'
      (Endpoint.Holds (Conn.ReadUp R') 0 .receiving []))
    (Holds (.routing 0 [0]) (Endpoint.Holds W q task wire) main'
      (Endpoint.Holds (Conn.ReadUp R') 0 .receiving [])) :=
  (holds_client fun o => Endpoint.holds_carry o Conn.unread_readUp).trans holds_toServer

theorem client_full : Leads step given
    (Holds main (Endpoint.Holds (Conn.ReadUp R) 0 .receiving []) .reading
      (Endpoint.Holds (Conn.Stalled R' held unread 0) q task wire))
    (Holds main (Endpoint.Holds (Conn.ReadUp R) 0 .receiving []) .reading
      (Endpoint.Holds (Conn.Stalled R' held unread channelCapacity) q task wire)) :=
  Leads.iterate (P := fun k => Holds main (Endpoint.Holds (Conn.ReadUp R) 0 .receiving []) .reading
    (Endpoint.Holds (Conn.Stalled R' held unread k) q task wire)) fun _ less =>
      client_carry.trans (holds_forward less)

theorem server_full : Leads step given
    (Holds .reading (Endpoint.Holds (Conn.Stalled R held unread 0) q task wire) main'
      (Endpoint.Holds (Conn.ReadUp R') 0 .receiving []))
    (Holds .reading (Endpoint.Holds (Conn.Stalled R held unread channelCapacity) q task wire) main'
      (Endpoint.Holds (Conn.ReadUp R') 0 .receiving [])) :=
  Leads.iterate (P := fun k => Holds .reading (Endpoint.Holds (Conn.Stalled R held unread k) q task wire) main'
    (Endpoint.Holds (Conn.ReadUp R') 0 .receiving [])) fun _ less =>
      server_carry.trans (holds_route less)

end full

theorem holds_beat : Leads step given
    (Holds main S main' (Endpoint.Holds W' 0 .receiving []))
    (Holds main S main' (Endpoint.Holds W' 0 .receiving [.newPingFrame])) := by
  intro s holds
  obtain ⟨w₁, w₂, w₃, queued, taken, sent, held⟩ := holds.client.tunnel.carry .newPingFrame
  let client : Client :=
    { s.client with ping := .waiting, endpoint := { s.client.endpoint with tunnel := w₃ } }
  refine ⟨⟨s.server, client⟩, run_of_exec [.client .tick, .client .ping,
    .client (.endpoint (.writer .recv)), .client (.endpoint (.writer .sent))] ?_, ?_⟩
  · have ping := holds.ping
    simp [exec, guarded, given, SessionAct.roomy, SessionAct.pushes, EndpointAct.pushes, step,
      ClientAct.isLocal, Client.step, ping, Endpoint.enqueue, queued, Endpoint.step, taken, sent,
      client]
  · exact { holds with ping := rfl, client := ⟨held, holds.client.link, holds.client.entry⟩ }

theorem reached_of_exec {ok : Session → SessionAct → Prop} [∀ s a, Decidable (ok s a)]
    {config : ConfigInfo} {serverBuf clientBuf : Nat} {P : Session → Prop} [DecidablePred P]
    (labels : List SessionAct)
    (view : (exec (guarded step ok) (start config serverBuf clientBuf) labels).any
      (fun s => decide (P s)) = true) :
    ∃ s, Run step ok (start config serverBuf clientBuf) s ∧ P s := by
  obtain ⟨s, run, holds⟩ := (Option.any_eq_true _ _).mp view
  exact ⟨s, run_of_exec labels run, of_decide_eq_true holds⟩

end Session

end Rfrp
