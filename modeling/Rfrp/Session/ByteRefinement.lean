import Rfrp.Proto.RmpSerde
import Rfrp.Proto.Transit
import Rfrp.Server.LengthDelimited
import Rfrp.Session.Bytes
import Rfrp.Session.Rewiring
import Rfrp.Session.Vocabulary

/-!
# The session on bytes refines the session on frames

Every step of a session on bytes is a step of the session on frames, or none: a frame is in flight
from the moment the socket has taken its last byte until the other side has decoded it. So whatever
holds of every reachable session holds on the wire, however the streams are cut.
-/

namespace Rfrp

open Transition

/-! ## Steps without the socket -/

theorem EndpointAct.offWire_of_isInner {a : EndpointAct} (inner : a.isInner = true) :
    a.offWire = true := by
  cases a with
  | writer a => cases a <;> first | rfl | cases inner
  | _ => rfl

theorem ServerAct.offWire_of_isInner {a : ServerAct} (inner : a.isInner = true) :
    a.offWire = true := by
  cases a with
  | endpoint a => exact EndpointAct.offWire_of_isInner inner
  | _ => rfl

theorem ClientAct.offWire_of_isInner {a : ClientAct} (inner : a.isInner = true) :
    a.offWire = true := by
  cases a with
  | endpoint a => exact EndpointAct.offWire_of_isInner inner
  | _ => rfl

theorem ServerAct.isLocal_of_isInner {a : ServerAct} (inner : a.isInner = true) :
    a.isLocal = true := by
  cases a with
  | recv => cases inner
  | exit => cases inner
  | endpoint a =>
      cases a with
      | writer a => cases a <;> first | rfl | cases inner
      | _ => rfl
  | _ => rfl

theorem ClientAct.isLocal_of_isInner {a : ClientAct} (inner : a.isInner = true) :
    a.isLocal = true := by
  cases a with
  | recv => cases inner
  | exit => cases inner
  | endpoint a =>
      cases a with
      | writer a => cases a <;> first | rfl | cases inner
      | _ => rfl
  | _ => rfl

open Transit (Turns)

theorem Endpoint.turns_of_step {τ : Type} {o : Owners} {e e' : Endpoint τ} {a : EndpointAct}
    (inner : a.isInner = true) (h : e.step o a = some e') : Turns e.tunnel.task e'.tunnel.task := by
  cases moves_of_step h with
  | sendData _ _ sent =>
      obtain ⟨-, rfl⟩ := FrameWriter.send_eq_some sent
      exact .same _
  | writer move =>
      cases FrameWriter.moves_of_step move with
      | recv receiving =>
          show Turns e.tunnel.task (.sending _)
          rw [receiving]
          exact .takes _
      | recvNone | cancel => exact .ends _
      | sent | sendErr | peerReads => cases inner
  | _ => exact .same _

theorem Server.turns_of_step {s s' : Server} {a : ServerAct} (inner : a.isInner = true)
    (h : s.step a = some s') : Turns s.endpoint.tunnel.task s'.endpoint.tunnel.task := by
  cases moves_of_step h with
  | reply _ sent | answer _ _ sent =>
      obtain ⟨-, rfl⟩ := Endpoint.enqueue_eq_some sent
      exact .same _
  | route _ sent =>
      obtain ⟨l, -, -, rfl⟩ := Endpoint.deliver_eq_some sent
      exact .same _
  | endpoint move => exact Endpoint.turns_of_step inner move
  | _ => exact .same _

theorem Client.task_start (config : List ClientInfo) (sndBuf : Nat) :
    (RunProxy.tunnel (Client.start config sndBuf)).task = .receiving := by
  show (Client.start config sndBuf).endpoint.tunnel.task = _
  rw [Client.endpoint_start]
  rfl

theorem Client.turns_of_step {c c' : Client} {a : ClientAct} (inner : a.isInner = true)
    (h : c.step a = some c') : Turns c.endpoint.tunnel.task c'.endpoint.tunnel.task := by
  cases moves_of_step h with
  | recvFast | recvNew => cases inner
  | register _ _ sent | ping _ sent =>
      obtain ⟨-, rfl⟩ := Endpoint.enqueue_eq_some sent
      exact .same _
  | forward _ sent =>
      obtain ⟨l, -, -, rfl⟩ := Endpoint.deliver_eq_some sent
      exact .same _
  | endpoint move => exact Endpoint.turns_of_step inner move
  | _ => exact .same _

/-! ## Every frame can be written and read -/

theorem ConfigInfo.init_fits {config : ConfigInfo}
    (fits : ∀ client ∈ config.clientProxy, client.fits) :
    ∀ client ∈ config.init.clientProxy, client.fits := by
  intro client mem
  obtain ⟨entry, here, rfl⟩ := List.mem_map.mp mem
  exact fits entry here

theorem Chunk.fits {d : DataInfo} (chunk : Chunk d.data) : (RfrpFrame.data d).fits :=
  Nat.lt_of_le_of_lt chunk.2 (by decide)

theorem Client.Speaks.fits {config : ConfigInfo} {f : RfrpFrame}
    (small : ∀ client ∈ config.clientProxy, client.fits)
    (speaks : Client.Speaks config.init.clientProxy f) : f.fits := by
  cases speaks with
  | data chunk => exact chunk.fits
  | register entry => exact ConfigInfo.init_fits small _ entry
  | ping => exact ⟨show "ping".utf8ByteSize < 2 ^ 32 by decide, by decide, by simp⟩

theorem Server.Speaks.fits {config : ConfigInfo} {f : RfrpFrame}
    (small : ∀ client ∈ config.clientProxy, client.fits)
    (speaks : Server.Speaks (config.init.clientProxy.map ClientInfo.skipAddr) f) : f.fits := by
  cases speaks with
  | data chunk => exact chunk.fits
  | @ack r asked =>
      obtain ⟨entry, here, same⟩ := List.mem_map.mp asked
      show r.client.fits
      rw [← same]
      exact ConfigInfo.init_fits small entry here
  | pong => exact ⟨show "pong".utf8ByteSize < 2 ^ 32 by decide, by decide, by simp⟩

namespace FrameWriter

variable {w : FrameWriter} {f : RfrpFrame}

theorem Ok.mem_of_sending (ok : w.Ok) (sending : w.task = .sending f) : f ∈ w.chan.log := by
  have whole := ok.sent_eq (by simp [sending])
  apply (Fifo.received_isPrefix _).subset
  rw [← whole, inHand, sending]
  exact List.mem_append_right _ List.mem_cons_self

theorem Ok.mem_of_flying (ok : w.Ok) (flying : f ∈ w.wire.queue) : f ∈ w.chan.log := by
  apply ok.wire_isPrefix.subset
  rw [← Fifo.received_append_queue]
  exact List.mem_append_right _ flying

end FrameWriter

namespace Session

variable {s : Session} {config : ConfigInfo} {f : RfrpFrame}

theorem Reachable.client_fits (reach : s.Reachable config)
    (small : ∀ client ∈ config.clientProxy, client.fits)
    (said : s.client.endpoint.tunnel.task = .sending f ∨ f ∈ s.client.endpoint.tunnel.wire.queue) :
    f.fits := by
  have ok := reach.client.endpoint_ok.tunnel
  apply Client.Speaks.fits small
  exact reach.client_speaks f (said.elim ok.mem_of_sending ok.mem_of_flying)

theorem Reachable.server_fits (reach : s.Reachable config)
    (small : ∀ client ∈ config.clientProxy, client.fits)
    (said : s.server.endpoint.tunnel.task = .sending f ∨ f ∈ s.server.endpoint.tunnel.wire.queue) :
    f.fits := by
  have ok := reach.server.endpoint_ok.tunnel
  apply Server.Speaks.fits small
  exact reach.server_speaks f (said.elim ok.mem_of_sending ok.mem_of_flying)

end Session

namespace ByteSession

variable {S Z Z' : Type} {aesGcm : Block 32 → Aead 12 16} {messagePack : MessagePack}
  {deflate : Coder Z} {inflate : Coder Z'} {represents : Bytes → Bytes → Prop} {codec : Codec S}
  {frame : Bytes → Bytes} {fresh : S} {pending : S → Bytes → Bytes → Prop} {key : Block 32}
  {config : ConfigInfo} {b b' : ByteSession S Z Z'} {toServer toClient : Fifo RfrpFrame} {n k : Nat}

/-- The session with these frames in flight, on sockets that take `n` of them. -/
def frames (b : ByteSession S Z Z') (toServer toClient : Fifo RfrpFrame) (n : Nat) : Session :=
  ⟨b.server.proxy.onWire toClient n, b.client.proxy.onWire toServer n⟩

/-- The bytes between the two sides are the encodings of the frames in flight. -/
structure Flies (aesGcm : Block 32 → Aead 12 16) (messagePack : MessagePack)
    (represents : Bytes → Bytes → Prop) (frame : Bytes → Bytes) (pending : S → Bytes → Bytes → Prop)
    (key : Block 32) (b : ByteSession S Z Z') (toServer toClient : Fifo RfrpFrame) : Prop where
  toServer : Flight (Carries aesGcm messagePack represents key) frame pending key b.client b.server
    toServer
  toClient : Flight (Carries aesGcm messagePack represents key) frame pending key b.server b.client
    toClient

/-! ## What a socket step comes to on frames -/

variable {toServer' toClient' : Fifo RfrpFrame} {a : SocketAct}
  {Carried : RfrpFrame → Bytes → Prop}

theorem run_server (act : ServerAct) {proxy : Server} (here : act.isLocal = true)
    (off : act.offWire = true) (move : b.server.proxy.step act = some proxy) :
    Reach Session.step (b.frames toServer toClient n)
      ⟨proxy.onWire toClient n, b.client.proxy.onWire toServer n⟩ := by
  apply (Run.refl _).tail (a := .server act) trivial
  simp only [Session.step, here, true_or, if_true]
  rw [show (b.frames toServer toClient n).server = b.server.proxy.onWire toClient n from rfl,
    Server.step_onWire _ off, move]
  rfl

theorem run_client (act : ClientAct) {proxy : Client} (here : act.isLocal = true)
    (off : act.offWire = true) (move : b.client.proxy.step act = some proxy) :
    Reach Session.step (b.frames toServer toClient n)
      ⟨b.server.proxy.onWire toClient n, proxy.onWire toServer n⟩ := by
  apply (Run.refl _).tail (a := .client act) trivial
  simp only [Session.step, here, true_or, if_true]
  rw [show (b.frames toServer toClient n).client = b.client.proxy.onWire toServer n from rfl,
    Client.step_onWire _ off, move]
  rfl

theorem run_serverSocket {proxy : Server}
    (comes : b.server.Comes messagePack Carried b.client.ended toServer toClient a proxy toServer'
      toClient') (room : toClient.queue.length < n) :
    Reach Session.step (b.frames toServer toClient n)
      ⟨proxy.onWire toClient' n, b.client.proxy.onWire toServer' n⟩ := by
  have dies : ∀ {f : RfrpFrame}, b.server.tunnel.task = .sending f →
      b.server.proxy.step (.endpoint (.writer .sendErr)) =
        some (RunProxy.setTunnel b.server.proxy { b.server.tunnel with task := .done }) := by
    intro f sending
    simp only [Server.step, Endpoint.step, FrameWriter.step,
      show b.server.proxy.endpoint.tunnel.task = .sending f from sending, Option.map_some]
    rfl
  cases comes with
  | idle => exact Run.refl _
  | refused sending | failed sending => exact run_server (.endpoint (.writer .sendErr)) rfl rfl (dies sending)
  | sent sending =>
      apply (Run.refl _).tail (a := .server (.endpoint (.writer .sent))) trivial
      simp only [frames, Session.step, ServerAct.isLocal, Server.step, Endpoint.step, FrameWriter.step,
        Server.onWire, Endpoint.onWire, FrameWriter.onWire, true_or, if_true, if_pos room,
        show b.server.proxy.endpoint.tunnel.task = .sending _ from sending, Option.map_some]
      rfl
  | @frame f wire _ _ popped arrives =>
      have recv : b.server.proxy.step (.recv f.skipAddr) = some proxy := arrives
      apply (Run.refl _).tail (a := .toServer) trivial
      simp only [Session.step]
      rw [show (b.frames toServer toClient n).client.endpoint.tunnel.wire = toServer from rfl, popped,
        Option.bind_some]
      have read : (b.frames toServer toClient n).client.step (.endpoint (.writer .peerReads)) =
          some (b.client.proxy.onWire toServer' n) := by
        simp only [Client.step, Endpoint.step, FrameWriter.step]
        rw [show (b.frames toServer toClient n).client.endpoint.tunnel.wire = toServer from rfl, popped]
        rfl
      rw [read, Option.bind_some,
        show (b.frames toServer toClient n).server = b.server.proxy.onWire toClient n from rfl,
        Server.step_onWire _ rfl, recv]
      rfl
  | undecodable _ _ arrives => exact run_server (.exit .undecodable) rfl rfl arrives
  | eof queue ended arrives =>
      have exit : b.server.proxy.step (.exit .eof) = some proxy := arrives
      apply (Run.refl _).tail (a := .server (.exit .eof)) trivial
      have finished : (b.frames toServer toClient n).client.endpoint.tunnel.ended = true :=
        decide_eq_true ⟨(TunnelEnd.ended_iff.mp ended).1, queue⟩
      simp only [Session.step, finished, and_self, or_true, if_true]
      rw [show (b.frames toServer toClient n).server = b.server.proxy.onWire toClient n from rfl,
        Server.step_onWire _ rfl, exit]
      rfl
  | readError _ arrives => exact run_server (.exit .readError) rfl rfl arrives
  | keepaliveTimeout arrives => exact run_server (.exit .keepaliveTimeout) rfl rfl arrives

theorem run_clientSocket {proxy : Client}
    (comes : b.client.Comes messagePack Carried b.server.ended toClient toServer a proxy toClient'
      toServer') (room : toServer.queue.length < n) :
    Reach Session.step (b.frames toServer toClient n)
      ⟨b.server.proxy.onWire toClient' n, proxy.onWire toServer' n⟩ := by
  have dies : ∀ {f : RfrpFrame}, b.client.tunnel.task = .sending f →
      b.client.proxy.step (.endpoint (.writer .sendErr)) =
        some (RunProxy.setTunnel b.client.proxy { b.client.tunnel with task := .done }) := by
    intro f sending
    simp only [Client.step, Endpoint.step, FrameWriter.step,
      show b.client.proxy.endpoint.tunnel.task = .sending f from sending, Option.map_some]
    rfl
  cases comes with
  | idle => exact Run.refl _
  | refused sending | failed sending => exact run_client (.endpoint (.writer .sendErr)) rfl rfl (dies sending)
  | sent sending =>
      apply (Run.refl _).tail (a := .client (.endpoint (.writer .sent))) trivial
      simp only [frames, Session.step, ClientAct.isLocal, Client.step, Endpoint.step, FrameWriter.step,
        Client.onWire, Endpoint.onWire, FrameWriter.onWire, true_or, if_true, if_pos room,
        show b.client.proxy.endpoint.tunnel.task = .sending _ from sending, Option.map_some]
      rfl
  | @frame f wire _ _ popped arrives =>
      have recv : b.client.proxy.step (.recv f.skipAddr) = some proxy := arrives
      apply (Run.refl _).tail (a := .toClient) trivial
      simp only [Session.step]
      rw [show (b.frames toServer toClient n).server.endpoint.tunnel.wire = toClient from rfl, popped,
        Option.bind_some]
      have read : (b.frames toServer toClient n).server.step (.endpoint (.writer .peerReads)) =
          some (b.server.proxy.onWire toClient' n) := by
        simp only [Server.step, Endpoint.step, FrameWriter.step]
        rw [show (b.frames toServer toClient n).server.endpoint.tunnel.wire = toClient from rfl, popped]
        rfl
      rw [read, Option.bind_some,
        show (b.frames toServer toClient n).client = b.client.proxy.onWire toServer n from rfl,
        Client.step_onWire _ rfl, recv]
      rfl
  | undecodable _ _ arrives => exact run_client (.exit .undecodable) rfl rfl arrives
  | eof queue ended arrives =>
      have exit : b.client.proxy.step (.exit .eof) = some proxy := arrives
      apply (Run.refl _).tail (a := .client (.exit .eof)) trivial
      have finished : (b.frames toServer toClient n).server.endpoint.tunnel.ended = true :=
        decide_eq_true ⟨(TunnelEnd.ended_iff.mp ended).1, queue⟩
      simp only [Session.step, finished, and_self, or_true, if_true]
      rw [show (b.frames toServer toClient n).client = b.client.proxy.onWire toServer n from rfl,
        Client.step_onWire _ rfl, exit]
      rfl
  | readError _ arrives => exact run_client (.exit .readError) rfl rfl arrives
  | keepaliveTimeout arrives => exact run_client (.exit .keepaliveTimeout) rfl rfl arrives

/-! ## One step on bytes -/

/-- The session on bytes stands where the reachable session `b.frames toServer toClient n` stands. -/
structure Refines (aesGcm : Block 32 → Aead 12 16) (messagePack : MessagePack)
    (represents : Bytes → Bytes → Prop) (frame : Bytes → Bytes) (pending : S → Bytes → Bytes → Prop)
    (key : Block 32) (config : ConfigInfo) (b : ByteSession S Z Z')
    (toServer toClient : Fifo RfrpFrame) (n : Nat) : Prop where
  reach : (b.frames toServer toClient n).Reachable config
  flies : b.Flies aesGcm messagePack represents frame pending key toServer toClient

section
variable (codecs : Codecs messagePack deflate inflate represents codec frame fresh pending)
  (small : ∀ client ∈ config.clientProxy, client.fits)
include codecs small

theorem Refines.comes_server
    (refines : b.Refines aesGcm messagePack represents frame pending key config toServer toClient n)
    {server : TunnelEnd Server S Z Z'}
    (moved : b.server.step aesGcm messagePack deflate inflate codec frame a = some server) :
    ∃ toServer' toClient', b.server.Comes messagePack (Carries aesGcm messagePack represents key)
        b.client.ended toServer toClient a server.proxy toServer' toClient' ∧
      ({ b with server } : ByteSession S Z Z').Flies aesGcm messagePack represents frame pending key
        toServer' toClient' := by
  obtain ⟨reach, inward, outward⟩ := refines
  have hand : ∀ f, b.server.tunnel.task = .sending f → messagePack.RoundTrips f :=
    fun f sending => codecs.roundTrips f (reach.server_fits small (Or.inl sending))
  have reads : ∀ f ∈ toServer.queue, messagePack.RoundTrips f :=
    fun f mem => codecs.roundTrips f (reach.client_fits small (Or.inr mem))
  obtain ⟨toServer', toClient', comes, outward, inward⟩ :=
    Flight.step codecs inward outward hand reads moved
  exact ⟨toServer', toClient', comes, inward, outward⟩

theorem Refines.comes_client
    (refines : b.Refines aesGcm messagePack represents frame pending key config toServer toClient n)
    {client : TunnelEnd Client S Z Z'}
    (moved : b.client.step aesGcm messagePack deflate inflate codec frame a = some client) :
    ∃ toClient' toServer', b.client.Comes messagePack (Carries aesGcm messagePack represents key)
        b.server.ended toClient toServer a client.proxy toClient' toServer' ∧
      ({ b with client } : ByteSession S Z Z').Flies aesGcm messagePack represents frame pending key
        toServer' toClient' := by
  obtain ⟨reach, inward, outward⟩ := refines
  have hand : ∀ f, b.client.tunnel.task = .sending f → messagePack.RoundTrips f :=
    fun f sending => codecs.roundTrips f (reach.client_fits small (Or.inl sending))
  have reads : ∀ f ∈ toClient.queue, messagePack.RoundTrips f :=
    fun f mem => codecs.roundTrips f (reach.server_fits small (Or.inr mem))
  obtain ⟨toClient', toServer', comes, inward, outward⟩ :=
    Flight.step codecs outward inward hand reads moved
  exact ⟨toClient', toServer', comes, inward, outward⟩

theorem Refines.step
    (refines : b.Refines aesGcm messagePack represents frame pending key config toServer toClient n)
    {act : ByteAct} (room : toServer.queue.length < n ∧ toClient.queue.length < n)
    (move : b.step aesGcm messagePack deflate inflate codec frame act = some b') :
    ∃ toServer' toClient' : Fifo RfrpFrame,
      b'.Refines aesGcm messagePack represents frame pending key config toServer' toClient' n ∧
      toServer'.queue.length ≤ toServer.queue.length + 1 ∧
      toClient'.queue.length ≤ toClient.queue.length + 1 := by
  obtain ⟨reach, inward, outward⟩ := id refines
  cases act with
  | server a =>
      obtain ⟨inner, move⟩ := Option.ite_none_right_eq_some.mp move
      obtain ⟨proxy, moved, rfl⟩ := Option.map_eq_some_iff.mp move
      refine ⟨toServer, toClient, ⟨reach.run (run_server a (ServerAct.isLocal_of_isInner inner)
        (ServerAct.offWire_of_isInner inner) moved), inward.target rfl rfl ?_,
        outward.source rfl rfl rfl (Server.turns_of_step inner moved)⟩, Nat.le_succ _, Nat.le_succ _⟩
      exact Server.running_of_step (Server.moves_of_step moved)
  | client a =>
      obtain ⟨inner, move⟩ := Option.ite_none_right_eq_some.mp move
      obtain ⟨proxy, moved, rfl⟩ := Option.map_eq_some_iff.mp move
      refine ⟨toServer, toClient, ⟨reach.run (run_client a (ClientAct.isLocal_of_isInner inner)
        (ClientAct.offWire_of_isInner inner) moved),
        inward.source rfl rfl rfl (Client.turns_of_step inner moved), outward.target rfl rfl ?_⟩,
        Nat.le_succ _, Nat.le_succ _⟩
      exact Client.running_of_step (Client.moves_of_step moved)
  | serverSocket a =>
      obtain ⟨server, moved, rfl⟩ := Option.map_eq_some_iff.mp move
      obtain ⟨toServer', toClient', comes, flies⟩ := refines.comes_server codecs small moved
      obtain ⟨fewer, grown⟩ := comes.length_le
      exact ⟨toServer', toClient', ⟨reach.run (run_serverSocket comes room.2), flies⟩,
        Nat.le_succ_of_le fewer, grown⟩
  | clientSocket a =>
      obtain ⟨client, moved, rfl⟩ := Option.map_eq_some_iff.mp move
      obtain ⟨toClient', toServer', comes, flies⟩ := refines.comes_client codecs small moved
      obtain ⟨fewer, grown⟩ := comes.length_le
      exact ⟨toServer', toClient', ⟨reach.run (run_clientSocket comes room.1), flies⟩,
        grown, Nat.le_succ_of_le fewer⟩
  | toServer k =>
      obtain ⟨⟨server, client⟩, moved, rfl⟩ := Option.map_eq_some_iff.mp move
      obtain ⟨inward, outward, same, same'⟩ := inward.readFrom codecs outward moved
      refine ⟨toServer, toClient, ⟨?_, inward, outward⟩, Nat.le_succ _, Nat.le_succ _⟩
      simpa only [frames, same, same'] using reach
  | toClient k =>
      obtain ⟨⟨client, server⟩, moved, rfl⟩ := Option.map_eq_some_iff.mp move
      obtain ⟨outward, inward, same, same'⟩ := outward.readFrom codecs inward moved
      refine ⟨toServer, toClient, ⟨?_, inward, outward⟩, Nat.le_succ _, Nat.le_succ _⟩
      simpa only [frames, same, same'] using reach

end

theorem frames_start (config : ConfigInfo) (sndBuf n : Nat) (fresh : S)
    (serverSender clientSender : Sender Z) (serverReceiver clientReceiver : Receiver Z') :
    (start config sndBuf fresh serverSender clientSender serverReceiver clientReceiver).frames .empty
      .empty n = Session.start config n n := by
  have client : (Client.start config.init.clientProxy 0).onWire .empty n =
      Client.start config.init.clientProxy n := (Client.registerFrom_onWire _ _).symm
  show (⟨_, (Client.start config.init.clientProxy 0).onWire .empty n⟩ : Session) = _
  rw [client]
  rfl

/-- Both sides start with the same key, whatever their nonce prefixes and buffers. -/
def Reachable (aesGcm : Block 32 → Aead 12 16) (messagePack : MessagePack) (deflate : Coder Z)
    (inflate : Coder Z') (codec : Codec S) (frame : Bytes → Bytes) (fresh : S) (key : Block 32)
    (config : ConfigInfo) (b : ByteSession S Z Z') : Prop :=
  ∃ (sndBuf : Nat) (serverSender clientSender : Sender Z) (serverReceiver clientReceiver : Receiver Z'),
    serverSender.cipher.key = key ∧ clientSender.cipher.key = key ∧
    serverReceiver.cipher.key = key ∧ clientReceiver.cipher.key = key ∧
    Reach (step aesGcm messagePack deflate inflate codec frame)
      (start config sndBuf fresh serverSender clientSender serverReceiver clientReceiver) b

theorem Reachable.tail
    (reach : b.Reachable aesGcm messagePack deflate inflate codec frame fresh key config) {act : ByteAct}
    (move : b.step aesGcm messagePack deflate inflate codec frame act = some b') :
    b'.Reachable aesGcm messagePack deflate inflate codec frame fresh key config := by
  obtain ⟨sndBuf, ss, cs, sr, cr, ours, clientOurs, theirs, clientTheirs, run⟩ := reach
  exact ⟨sndBuf, ss, cs, sr, cr, ours, clientOurs, theirs, clientTheirs, run.tail trivial move⟩

theorem Reachable.induct {P : ByteSession S Z Z' → Prop}
    (reach : b.Reachable aesGcm messagePack deflate inflate codec frame fresh key config)
    (base : ∀ sndBuf serverSender clientSender serverReceiver clientReceiver,
      P (start config sndBuf fresh serverSender clientSender serverReceiver clientReceiver))
    (next : ∀ b act b', b.Reachable aesGcm messagePack deflate inflate codec frame fresh key config →
      P b → b.step aesGcm messagePack deflate inflate codec frame act = some b' → P b') : P b := by
  obtain ⟨sndBuf, ss, cs, sr, cr, ours, clientOurs, theirs, clientTheirs, run⟩ := reach
  refine run.induct (base sndBuf ss cs sr cr) fun b act b' before ih _ move => ?_
  exact next b act b' ⟨sndBuf, ss, cs, sr, cr, ours, clientOurs, theirs, clientTheirs, before⟩ ih move

theorem Reachable.refines (codecs : Codecs messagePack deflate inflate represents codec frame fresh pending)
    (small : ∀ client ∈ config.clientProxy, client.fits)
    (reach : b.Reachable aesGcm messagePack deflate inflate codec frame fresh key config) :
    ∃ toServer toClient n,
      b.Refines aesGcm messagePack represents frame pending key config toServer toClient n := by
  obtain ⟨sndBuf, ss, cs, sr, cr, ours, clientOurs, theirs, clientTheirs, run⟩ := reach
  -- a run sends finitely many frames, so sockets that take enough of them do not block it
  have all : ∃ most, ∀ n > most, ∃ toServer toClient,
      b.Refines aesGcm messagePack represents frame pending key config toServer toClient n ∧
        toServer.queue.length ≤ most ∧ toClient.queue.length ≤ most := by
    refine run.induct (P := fun b => ∃ most, ∀ n > most, ∃ toServer toClient,
      b.Refines aesGcm messagePack represents frame pending key config toServer toClient n ∧
        toServer.queue.length ≤ most ∧ toClient.queue.length ≤ most) ?_ ?_
    · refine ⟨0, fun n _ => ⟨.empty, .empty, ⟨⟨n, n, ?_⟩, ?_, ?_⟩, Nat.le_refl 0, Nat.le_refl 0⟩⟩
      · rw [frames_start]
        exact Run.refl _
      · exact .of_transit (.start codecs (Client.task_start _ _) clientOurs theirs)
      · exact .of_transit (.start codecs rfl ours clientTheirs)
    · rintro b act b' - ⟨most, refines⟩ - move
      refine ⟨most + 1, fun n more => ?_⟩
      obtain ⟨toServer, toClient, refines, few, few'⟩ := refines n (by omega)
      obtain ⟨toServer', toClient', refines, grown, grown'⟩ :=
        refines.step codecs small ⟨by omega, by omega⟩ move
      exact ⟨toServer', toClient', refines, by omega, by omega⟩
  obtain ⟨most, refines⟩ := all
  obtain ⟨toServer, toClient, refines, -⟩ := refines (most + 1) (Nat.lt_succ_self _)
  exact ⟨toServer, toClient, most + 1, refines⟩

/-- Every session on bytes stands where some reachable session on frames stands, and the bytes
between its ends are the encodings of that session's frames in flight. -/
theorem refinement {S Z Z' : Type} (aesGcm : Block 32 → Aead 12 16) (messagePack : MessagePack)
    (deflate : Coder Z) (inflate : Coder Z') (represents : Bytes → Bytes → Prop) (codec : Codec S)
    (frame : Bytes → Bytes) (fresh : S) (pending : S → Bytes → Bytes → Prop)
    (codecs : Codecs messagePack deflate inflate represents codec frame fresh pending)
    (config : ConfigInfo) (small : ∀ client ∈ config.clientProxy, client.fits) (key : Block 32)
    (b : ByteSession S Z Z')
    (reach : b.Reachable aesGcm messagePack deflate inflate codec frame fresh key config) :
    ∃ (toServer toClient : Fifo RfrpFrame) (n : Nat),
      (b.frames toServer toClient n).Reachable config ∧
      b.Flies aesGcm messagePack represents frame pending key toServer toClient := by
  obtain ⟨toServer, toClient, n, refines⟩ := reach.refines codecs small
  exact ⟨toServer, toClient, n, refines.reach, refines.flies⟩

theorem pingCodecs : Codecs RmpSerde.messagePack (.oneShot pingDeflate) (.oneShot pingInflate)
    (fun stream data => pingInflate stream = some data) ServerIo.lengthDelimited ServerIo.delimit ()
    fun _ buf w => buf = w where
  roundTrips _ fits := RmpSerde.roundTrips fits
  flate := pingFlate
  framing := ServerIo.lengthDelimited_framing

def zeroSender : Sender Coder.OneShot := ⟨.new (.zero 32) (.zero 4), [], ⟨none, 0, 0⟩⟩

def zeroReceiver : Receiver Coder.OneShot := ⟨.new (.zero 32) (.replicate 4 1), [], ⟨none, 0, 0⟩⟩

/-- The client's first heartbeat, of which the server has read seven bytes so far. -/
def halfAPing : List ByteAct :=
  [.client .tick, .client .ping, .client (.endpoint (.writer .recv)), .clientSocket (.encode 99),
    .clientSocket (.write 20), .toServer 7, .serverSocket (.next 99)]

theorem halfAPing_reachable : ∃ b : ByteSession Unit Coder.OneShot Coder.OneShot,
    b.Reachable (fun _ => pingGcm) RmpSerde.messagePack (.oneShot pingDeflate) (.oneShot pingInflate)
      ServerIo.lengthDelimited ServerIo.delimit () (.zero 32) Session.noProxies ∧
    b.server.reader.buffer = [0, 0, 0, 46, 165, 251, 174] ∧ b.client.outbound.queue.length = 13 := by
  have view : (exec (step (fun _ => pingGcm) RmpSerde.messagePack (.oneShot pingDeflate)
      (.oneShot pingInflate) ServerIo.lengthDelimited ServerIo.delimit)
      (start Session.noProxies 64 () zeroSender zeroSender zeroReceiver zeroReceiver) halfAPing).map
      (fun b => (b.server.reader.buffer, b.client.outbound.queue.length)) =
        some ([0, 0, 0, 46, 165, 251, 174], 13) := by decide +kernel
  obtain ⟨b, run, seen⟩ := Option.map_eq_some_iff.mp view
  obtain ⟨buffer, outbound⟩ := Prod.mk.inj seen
  exact ⟨b, ⟨64, zeroSender, zeroSender, zeroReceiver, zeroReceiver, rfl, rfl, rfl, rfl,
    reach_of_exec halfAPing run⟩, buffer, outbound⟩

theorem noProxies_small {P : ClientInfo → Prop} : ∀ client ∈ Session.noProxies.clientProxy, P client :=
  fun _ mem => by cases mem

theorem refinement_halfAPing : ∃ (b : ByteSession Unit Coder.OneShot Coder.OneShot)
    (toServer toClient : Fifo RfrpFrame) (n : Nat),
    (b.frames toServer toClient n).Reachable Session.noProxies ∧
    b.Flies (fun _ => pingGcm) RmpSerde.messagePack (fun stream data => pingInflate stream = some data)
      ServerIo.delimit (fun _ buf w => buf = w) (.zero 32) toServer toClient ∧
    b.server.reader.buffer = [0, 0, 0, 46, 165, 251, 174] ∧ b.client.outbound.queue.length = 13 := by
  obtain ⟨b, reach, torn⟩ := halfAPing_reachable
  obtain ⟨toServer, toClient, n, frames, flies⟩ := refinement _ _ _ _ _ _ _ _ _ pingCodecs
    Session.noProxies noProxies_small _ b reach
  exact ⟨b, toServer, toClient, n, frames, flies, torn⟩

end ByteSession

end Rfrp
