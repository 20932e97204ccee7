import Rfrp.Session.Agreement
import Rfrp.Session.Quiescence
import Rfrp.Session.Stages
import Rfrp.Proto.Backpressure

/-!
# Deadlock

Each main loop drains one direction of the tunnel and sends into bounded channels itself. The
server's main loop waits for its own frame writer in one case that the rest of the session can keep
it in: when it has a pong to send and the frame channel is full. Where that does not happen, tasks
that cannot move have nothing to do.
-/

namespace Rfrp

open Transition

def SessionAct.isTask : SessionAct → Bool
  | .server a => a.isTask
  | .client a => a.isTask
  | .toServer | .toClient => true

/-- Steps of the tasks that only feed the tunnel: listeners and the users' read tasks, heartbeat. -/
def SessionAct.feeds : SessionAct → Bool
  | .server (.bind _ _) | .server (.answer _) | .server (.answerErr _) => true
  | .server (.accept _ _) | .server (.acquire _) | .server (.cancel _) => true
  | .server (.endpoint a) => a.reads
  | .client .ping | .client .pingErr | .client .pingCancel => true
  | _ => false

def FrameWriter.Waits (w : FrameWriter) : Prop :=
  w.task = .receiving ∧ w.chan.queue = [] ∧ w.wire.queue = []

def Conn.ReadWaits (c : Conn) : Prop :=
  c.reader = .unspawned ∨ (c.reader = .reading ∧ c.inbound.queue = []) ∨ c.reader = .done

def Conn.WriteWaits (c : Conn) : Prop :=
  (c.writer = .unspawned ∨ (c.writer = .receiving ∧ c.chan.queue = []) ∨ c.writer = .done) ∧
    c.outbound.queue = []

namespace Server

variable {s s' : Server} {a : ServerAct}

/-- The step leaves room for the pong: no ping is taken while the frame channel is full, and nobody
fills the channel while a pong waits. -/
def pongFits (s : Server) : ServerAct → Bool
  | .recv f => f.isPing → s.endpoint.tunnel.chan.queue.length < channelCapacity
  | .answer _ | .endpoint (.sendData _) =>
      s.main = .ponging → s.endpoint.tunnel.chan.queue.length + 1 < channelCapacity
  | _ => true

def PongRoom (s : Server) : Prop :=
  s.main = .ponging → s.endpoint.tunnel.chan.queue.length < channelCapacity

end Server

theorem Endpoint.step_queue {τ : Type} {o : Owners} {e e' : Endpoint τ} {a : EndpointAct}
    (h : e.step o a = some e') :
    e'.tunnel.chan.queue.length ≤ e.tunnel.chan.queue.length ∨
      ∃ n, a = .sendData n ∧
        e'.tunnel.chan.queue.length = e.tunnel.chan.queue.length + 1 := by
  cases moves_of_step h with
  | sendData _ _ sent =>
      obtain ⟨-, rfl⟩ := FrameWriter.send_eq_some sent
      exact Or.inr ⟨_, rfl, by simp⟩
  | writer move =>
      apply Or.inl
      cases FrameWriter.moves_of_step move with
      | recv _ popped => simp [(Fifo.pop_eq_some popped).2.2]
      | _ => exact Nat.le_refl _
  | _ => exact Or.inl (Nat.le_refl _)

namespace Server

variable {s s' : Server} {a : ServerAct}

theorem PongRoom.step (room : s.PongRoom) (fits : s.pongFits a = true) (h : Moves s a s') :
    s'.PongRoom := by
  intro main
  cases h with
  | recvPing _ ping =>
      simp only [pongFits, RfrpFrame.isPing] at fits
      simpa [ping] using fits
  | recvOther reading | recvRegister reading | recvUnrouted reading =>
      rw [show s.main = .ponging from main] at reading
      cases reading
  | answer _ _ sent =>
      obtain ⟨-, rfl⟩ := Endpoint.enqueue_eq_some sent
      have before : s.main = .ponging := main
      simp only [pongFits, before] at fits
      simpa [setTask] using fits
  | endpoint move =>
      have before : s.main = .ponging := main
      rcases Endpoint.step_queue move with less | ⟨n, rfl, more⟩
      · exact Nat.lt_of_le_of_lt less (room before)
      · simp only [pongFits, before] at fits
        show _ < _
        rw [more]
        simpa using fits
  | reply | route | routeErr | recvLimit | recvRouted | exit | pongErr | replyErr => cases main
  | _ => exact room main

end Server

namespace Session

variable {s s' : Session} {a : SessionAct} {config : ConfigInfo}

/-- No step keeps the server's main loop from sending a pong. -/
def pongFits (s : Session) : SessionAct → Bool
  | .server a => s.server.pongFits a
  | .toServer => s.client.endpoint.tunnel.wire.pop.all fun (f, _) =>
      s.server.pongFits (.recv f.skipAddr)
  | _ => true

/-- The users have read what was written to them, and an internal service that has not read
everything has sent something that is not read. -/
def Attended (s : Session) : Prop :=
  (∀ l ∈ s.server.endpoint.links, l.conn.outbound.queue = []) ∧
  ∀ l ∈ s.client.endpoint.links, l.conn.outbound.queue ≠ [] →
    l.conn.inbound.queue ≠ [] ∧ l.conn.readerLeft = false

/-- Every socket takes something, and the peers attend to what they are given. -/
def attentive (s : Session) (a : SessionAct) : Prop := a.roomy = true ∧ s.Attended

instance (s : Session) (a : SessionAct) : Decidable (s.attentive a) :=
  inferInstanceAs (Decidable (_ ∧ _ ∧ _))

/-- Both sides are up and neither the main loops nor the frame writers nor the tasks of the
connections they wait for can move, although the peers attend to what they are given and the
internal services have accepted. A main loop that sends to a user who has not got a permit yet
waits for none of these tasks. -/
structure Blocked (s : Session) : Prop where
  server : s.server.running = true ∧ s.server.endpoint.tunnel.task ≠ .done
  client : s.client.running = true ∧ s.client.endpoint.tunnel.task ≠ .done
  parked : ∀ a, a.isTask = true → a.feeds = false → s.step a = none
  attended : s.Attended
  accepted : ∀ client d m, s.client.main ≠ .connecting client d m
  permitted : ∀ (n : Nat) (data : Bytes) (l : Link UInt16), s.server.main = .routing n data →
    s.server.endpoint.links[n]? = some l → l.conn.writer ≠ .unspawned

/-- Nothing is queued in the tunnel: its tasks wait for input that nobody has sent. -/
structure Idle (s : Session) : Prop where
  serverMain : s.server.main = .reading
  clientMain : s.client.main = .reading ∨ ∃ i, s.client.main = .awaiting i
  serverTunnel : s.server.endpoint.tunnel.Waits
  clientTunnel : s.client.endpoint.tunnel.Waits
  external : ∀ (n : Nat) (l : Link UInt16), s.server.endpoint.links[n]? = some l →
    l.conn.WriteWaits
  internal : ∀ (n : Nat) (l : Link String), s.client.endpoint.links[n]? = some l →
    l.conn.ReadWaits ∧ l.conn.WriteWaits

def Unsent (s : Session) : Prop :=
  (s.server.endpoint.Each fun c => c.outbound.queue = []) ∧
  s.client.endpoint.Each fun c => c.outbound.queue = []

theorem Unsent.attended (unsent : s.Unsent) : s.Attended := by
  constructor
  · intro l mem
    obtain ⟨n, here⟩ := List.mem_iff_getElem?.mp mem
    exact unsent.1 n l here
  · intro l mem unread
    obtain ⟨n, here⟩ := List.mem_iff_getElem?.mp mem
    exact absurd (unsent.2 n l here) unread

theorem server_unsent {b : ServerAct} {server : Server} (reach : s.Reachable config)
    (unsent : s.server.endpoint.Each fun c => c.outbound.queue = [])
    (push : SessionAct.pushes (.server b) = false) (h : s.server.step b = some server) :
    server.endpoint.Each fun c => c.outbound.queue = [] := by
  have move := Server.moves_of_step h
  refine unsent.evolves Conn.steady_unsent ?_ (Server.step_endpoint reach.server move) ?_
  · rintro o n c ⟨-, rfl⟩
    exact push
  · intro l new
    obtain ⟨r, sndBuf, -, fresh⟩ := Server.new_conn move new
    rw [fresh]
    rfl

theorem client_unsent {b : ClientAct} {client : Client}
    (unsent : s.client.endpoint.Each fun c => c.outbound.queue = [])
    (push : SessionAct.pushes (.client b) = false) (h : s.client.step b = some client) :
    client.endpoint.Each fun c => c.outbound.queue = [] := by
  have move := Client.moves_of_step h
  refine unsent.evolves Conn.steady_unsent ?_ (Client.step_endpoint move) ?_
  · rintro o n c ⟨-, rfl⟩
    exact push
  · intro l new
    obtain ⟨sndBuf, -, fresh⟩ := Client.new_conn move new
    rw [fresh]
    rfl

theorem Unsent.step (unsent : s.Unsent) (reach : s.Reachable config) (push : a.pushes = false)
    (h : Moves s a s') : s'.Unsent := by
  cases h with
  | server _ move => exact ⟨server_unsent reach unsent.1 push move, unsent.2⟩
  | client _ move => exact ⟨unsent.1, client_unsent unsent.2 push move⟩
  | toServer _ read recv =>
      exact ⟨server_unsent reach unsent.1 rfl recv, client_unsent unsent.2 rfl read⟩
  | toClient _ read recv =>
      exact ⟨server_unsent reach unsent.1 rfl read, client_unsent unsent.2 rfl recv⟩

theorem Unsent.run (unsent : s.Unsent) (reach : s.Reachable config)
    (run : Run Session.step given s s') : Run Session.step attentive s s' ∧ s'.Unsent := by
  apply run.induct
  · exact ⟨Run.refl s, unsent⟩
  · intro t a u before ⟨attended, ih⟩ guard move
    exact ⟨attended.tail ⟨guard.1, ih.attended⟩ move,
      ih.step (reach.run before) guard.2 (moves_of_step move)⟩

theorem Reachable.rejecting_awaited (reach : s.Reachable config) (live : s.client.running = true)
    {client : ClientInfo} (main : s.server.main = .rejecting client) :
    ∃ i, s.client.main = .awaiting i := by
  have covered : ((acksOf s.server.endpoint.tunnel.chan.log).map RegisterResponse.client ++
      [client]).Subperm (registersOf s.server.received) := by
    rw [List.subperm_ext_iff]
    intro other _
    have once := reach.server.answersOnce other
    unfold Server.openRegisters at once
    rw [main] at once
    rw [List.count_append, List.count_singleton]
    by_cases same : client = other <;> simp [same] at once ⊢ <;> omega
  have open' := covered.length_le
  have sent := reach.registers_toServer.length_le
  have answered := reach.acks_toClient.length_le
  simp only [List.length_append, List.length_map, List.length_singleton] at open' sent answered
  have registered := reach.client.registered
  have stage := registered.stage
  have all := registered.sent.length_le
  unfold Client.Stage at stage
  cases at' : s.client.main with
  | awaiting i => exact ⟨i, rfl⟩
  | ended r => simp [Client.running, at'] at live
  | registering i =>
      simp only [at'] at stage
      obtain ⟨bound, log, -, count⟩ := stage
      have count := count.acks_length
      rw [log, List.length_take] at sent
      omega
  | reading | connecting | forwarding =>
      simp only [at'] at stage
      have count := stage.2.acks_length
      omega

theorem deliver_isSome {τ : Type} {e : Endpoint τ} {o : Owners} {n : Nat} {l : Link τ}
    (data : Bytes) (jammed : e.Jammed o) (roomy : e.Roomy) (here : e.links[n]? = some l)
    (read : l.conn.outbound.queue = []) (spawned : l.conn.writer ≠ .unspawned)
    (failing : e.undeliverable n = false) : (e.deliver n data).isSome := by
  have live : l.conn.closed = false := by simpa [Endpoint.undeliverable, here] using failing
  rcases jammed.writer_waits roomy here read with new | ⟨-, empty⟩ | finished
  · exact absurd new spawned
  · have capacity : 0 < channelCapacity := by decide
    simp [Endpoint.deliver, here, Conn.send, live, empty, capacity]
  · simp [Conn.closed, finished] at live

theorem enqueue_isSome {τ : Type} {e : Endpoint τ} (live : e.tunnel.task ≠ .done)
    (room : e.tunnel.chan.queue.length < channelCapacity) (f : RfrpFrame) :
    (e.enqueue f).isSome := by
  simp [Endpoint.enqueue, FrameWriter.send, FrameWriter.closed, live, room]

section blocked
variable (blocked : s.Blocked)
include blocked

theorem Blocked.server_stuck {b : ServerAct} (task : b.isTask = true)
    (inside : SessionAct.feeds (.server b) = false) : s.server.step b = none := by
  have here : b.isLocal = true := by
    cases b with
    | recv | exit => cases task
    | endpoint e =>
        cases e with
        | writer w => cases w <;> first | rfl | cases task
        | _ => rfl
    | _ => rfl
  have stuck := blocked.parked (.server b) task inside
  simpa [step, here] using stuck

theorem Blocked.client_stuck {b : ClientAct} (task : b.isTask = true)
    (inside : SessionAct.feeds (.client b) = false) : s.client.step b = none := by
  have here : b.isLocal = true := by
    cases b with
    | recv | exit => cases task
    | endpoint e =>
        cases e with
        | writer w => cases w <;> first | rfl | cases task
        | _ => rfl
    | _ => rfl
  have stuck := blocked.parked (.client b) task inside
  simpa [step, here] using stuck

theorem Blocked.server_endpoint : s.server.endpoint.Jammed s.server.owners := by
  intro a task writes
  simpa [Server.step] using blocked.server_stuck (b := .endpoint a) task writes

theorem Blocked.client_endpoint : s.client.endpoint.Parked s.client.owners := by
  intro a task
  simpa [Client.step] using blocked.client_stuck (b := .endpoint a) task rfl

theorem Blocked.toServer_read (main : s.server.main = .reading) :
    s.client.endpoint.tunnel.wire.queue = [] := by
  have stuck := blocked.parked .toServer rfl rfl
  cases popped : s.client.endpoint.tunnel.wire.pop with
  | none => exact Fifo.pop_eq_none.mp popped
  | some p =>
      simp [step, popped, Client.step, Endpoint.step, FrameWriter.step, Server.step, main] at stuck

theorem Blocked.toClient_read
    (main : s.client.main = .reading ∨ ∃ i, s.client.main = .awaiting i) :
    s.server.endpoint.tunnel.wire.queue = [] := by
  have stuck := blocked.parked .toClient rfl rfl
  cases popped : s.server.endpoint.tunnel.wire.pop with
  | none => exact Fifo.pop_eq_none.mp popped
  | some p =>
      rcases main with main | ⟨i, main⟩ <;>
        simp [step, popped, Server.step, Endpoint.step, FrameWriter.step, Client.step, main] at stuck

theorem Blocked.server_reading (reach : s.Reachable config) (roomy : s.server.endpoint.Roomy)
    (room : s.server.PongRoom) : s.server.main = .reading := by
  have replies : ∀ f, s.server.replyFrame = some f →
      s.server.endpoint.tunnel.chan.queue.length < channelCapacity → False := by
    intro f frame room
    have stuck := blocked.server_stuck (b := .reply) rfl rfl
    obtain ⟨endpoint, sent⟩ := Option.isSome_iff_exists.mp
      (enqueue_isSome blocked.server.2 room f)
    simp [Server.step, frame, sent] at stuck
  cases main : s.server.main with
  | reading => rfl
  | ended r =>
      have live := blocked.server.1
      simp [Server.running, main] at live
  | ponging => exact (replies .newPongFrame (by simp [Server.replyFrame, main]) (room main)).elim
  | rejecting client =>
      obtain ⟨i, awaiting⟩ := reach.rejecting_awaited blocked.client.1 main
      have read := blocked.toClient_read (Or.inr ⟨i, awaiting⟩)
      have waits := blocked.server_endpoint.tunnel_waits roomy blocked.server.2 read
      refine (replies (.newRegAckFrame client false 0) (by simp [Server.replyFrame, main]) ?_).elim
      rw [waits.2]
      decide
  | routing n data =>
      have bound := reach.server.hand_lt n data (by simp [Server.hand, main])
      have here : s.server.endpoint.links[n]? = some s.server.endpoint.links[n] :=
        List.getElem?_eq_getElem bound
      cases failing : s.server.endpoint.undeliverable n with
      | true =>
          have stuck := blocked.server_stuck (b := .routeErr) rfl rfl
          simp [Server.step, main, failing] at stuck
      | false =>
          have stuck := blocked.server_stuck (b := .route) rfl rfl
          obtain ⟨endpoint, sent⟩ := Option.isSome_iff_exists.mp
            (deliver_isSome data blocked.server_endpoint roomy here
              (blocked.attended.1 _ (List.mem_of_getElem? here))
              (blocked.permitted n data _ main here) failing)
          simp [Server.step, main, sent] at stuck

theorem Blocked.internal_waits (reach : s.Reachable config) (roomy : s.client.endpoint.Roomy)
    (waits : s.client.endpoint.tunnel.Waits) {n : Nat} {l : Link String}
    (here : s.client.endpoint.links[n]? = some l) : l.conn.ReadWaits ∧ l.conn.WriteWaits := by
  have parked := blocked.client_endpoint
  have capacity : 0 < channelCapacity := by decide
  have reader := parked.reader_waits here blocked.client.2 (by simp [waits.2.1, capacity])
  have read : l.conn.outbound.queue = [] := by
    by_contra unread
    obtain ⟨sent, reads⟩ := blocked.attended.2 l (List.mem_of_getElem? here) unread
    have spawned := reach.client.spawned n l here
    rcases reader with new | ⟨-, empty⟩ | finished
    · simp [Link.waiting, new] at spawned
    · exact sent empty
    · simp [Conn.readerLeft, finished] at reads
  exact ⟨reader, parked.jammed.writer_waits roomy here read, read⟩

theorem Blocked.client_waits (reach : s.Reachable config) (roomy : s.client.endpoint.Roomy)
    (waits : s.client.endpoint.tunnel.Waits) :
    s.client.main = .reading ∨ ∃ i, s.client.main = .awaiting i := by
  have capacity : 0 < channelCapacity := by decide
  cases main : s.client.main with
  | reading => exact Or.inl rfl
  | awaiting i => exact Or.inr ⟨i, rfl⟩
  | ended r =>
      have live := blocked.client.1
      simp [Client.running, main] at live
  | connecting client d m => exact absurd main (blocked.accepted client d m)
  | registering i =>
      have stage := reach.client.registered.stage
      simp only [Client.Stage, main] at stage
      have bound : i < s.client.config.length := by
        rw [reach.client.registered.config_eq]
        exact stage.1
      have entry := List.getElem?_eq_getElem bound
      have room : s.client.endpoint.tunnel.chan.queue.length < channelCapacity := by
        simp [waits.2.1, capacity]
      obtain ⟨endpoint, sent⟩ := Option.isSome_iff_exists.mp
        (enqueue_isSome blocked.client.2 room (.register (s.client.config.get ⟨i, bound⟩)))
      have stuck := blocked.client_stuck (b := .register) rfl rfl
      simp only [List.get_eq_getElem] at sent
      simp [Client.step, main, entry, sent] at stuck
  | forwarding n d m =>
      have bound := reach.client.hand_lt n d.data (by simp [Client.hand, main])
      have here : s.client.endpoint.links[n]? = some s.client.endpoint.links[n] :=
        List.getElem?_eq_getElem bound
      have idle := blocked.internal_waits reach roomy waits here
      have spawned : (s.client.endpoint.links[n]).conn.writer ≠ .unspawned := by
        intro new
        have ok := (reach.client.endpoint_ok.conns n _ here).spawned.mpr new
        have waiting := reach.client.spawned n _ here
        simp [Link.waiting, ok] at waiting
      cases failing : s.client.endpoint.undeliverable n with
      | true =>
          have stuck := blocked.client_stuck (b := .forwardErr) rfl rfl
          simp [Client.step, main, failing] at stuck
      | false =>
          have stuck := blocked.client_stuck (b := .forward) rfl rfl
          obtain ⟨endpoint, sent⟩ := Option.isSome_iff_exists.mp
            (deliver_isSome d.data blocked.client_endpoint.jammed roomy here idle.2.2 spawned failing)
          simp [Client.step, main, sent] at stuck

theorem Blocked.idle (reach : s.Reachable config) (roomy : s.server.endpoint.Roomy)
    (roomy' : s.client.endpoint.Roomy) (room : s.server.PongRoom) : s.Idle := by
  have reading := blocked.server_reading reach roomy room
  have read := blocked.toServer_read reading
  have sent := blocked.client_endpoint.jammed.tunnel_waits roomy' blocked.client.2 read
  have clientTunnel : s.client.endpoint.tunnel.Waits := ⟨sent.1, sent.2, read⟩
  have main := blocked.client_waits reach roomy' clientTunnel
  have read' := blocked.toClient_read main
  have sent' := blocked.server_endpoint.tunnel_waits roomy blocked.server.2 read'
  refine ⟨reading, main, ⟨sent'.1, sent'.2, read'⟩, clientTunnel, fun n l here => ?_,
    fun n l here => blocked.internal_waits reach roomy' clientTunnel here⟩
  have read := blocked.attended.1 l (List.mem_of_getElem? here)
  exact ⟨blocked.server_endpoint.writer_waits roomy here read, read⟩

end blocked

structure Fits (s : Session) : Prop where
  server : s.server.endpoint.Roomy
  client : s.client.endpoint.Roomy
  pong : s.server.PongRoom

theorem server_roomy {b : ServerAct} {server : Server} (reach : s.Reachable config)
    (roomy : s.server.endpoint.Roomy) (given : SessionAct.roomy (.server b) = true)
    (h : s.server.step b = some server) : server.endpoint.Roomy := by
  have move := Server.moves_of_step h
  refine roomy.evolves (Server.step_endpoint reach.server move) fun l new => ?_
  obtain ⟨r, sndBuf, rfl, fresh⟩ := Server.new_conn move new
  rw [fresh]
  have some : 0 < sndBuf := by simpa [SessionAct.roomy] using given
  exact some

theorem client_roomy {b : ClientAct} {client : Client} (roomy : s.client.endpoint.Roomy)
    (given : SessionAct.roomy (.client b) = true) (h : s.client.step b = some client) :
    client.endpoint.Roomy := by
  have move := Client.moves_of_step h
  refine roomy.evolves (Client.step_endpoint move) fun l new => ?_
  obtain ⟨sndBuf, rfl, fresh⟩ := Client.new_conn move new
  rw [fresh]
  have some : 0 < sndBuf := by simpa [SessionAct.roomy] using given
  exact some

theorem Fits.step (fits : s.Fits) (reach : s.Reachable config) (pong : s.pongFits a = true)
    (roomy : a.roomy = true) (h : Moves s a s') : s'.Fits := by
  cases h with
  | server _ move =>
      exact ⟨server_roomy reach fits.server roomy move, fits.client,
        fits.pong.step pong (Server.moves_of_step move)⟩
  | client _ move => exact ⟨fits.server, client_roomy fits.client roomy move, fits.pong⟩
  | toServer popped read recv =>
      refine ⟨server_roomy reach fits.server rfl recv, client_roomy fits.client rfl read,
        fits.pong.step ?_ (Server.moves_of_step recv)⟩
      simpa [pongFits, popped] using pong
  | toClient popped read recv =>
      exact ⟨server_roomy reach fits.server rfl read, client_roomy fits.client rfl recv,
        fits.pong.step rfl (Server.moves_of_step read)⟩

theorem fits_of_run {serverBuf clientBuf : Nat} (someServer : 0 < serverBuf)
    (someClient : 0 < clientBuf) (run : Run Session.step
      (fun s a => s.pongFits a = true ∧ a.roomy = true) (start config serverBuf clientBuf) s) :
    s.Fits := by
  apply run.induct
  · refine ⟨Endpoint.roomy_spawn someServer, ?_, fun main => by cases main⟩
    unfold start Client.start Client.registerFrom
    split <;> exact Endpoint.roomy_spawn someClient
  · intro t a u before fits guard move
    have reach : t.Reachable config := ⟨serverBuf, clientBuf, before.reach⟩
    exact fits.step reach guard.1 guard.2 (moves_of_step move)

/-- As long as no pong meets a full frame channel, tasks that cannot move have nothing to do. -/
theorem no_deadlock (config : ConfigInfo) (serverBuf clientBuf : Nat) (s : Session)
    (someServer : 0 < serverBuf) (someClient : 0 < clientBuf)
    (run : Run step (fun s a => s.pongFits a = true ∧ a.roomy = true)
      (start config serverBuf clientBuf) s) (blocked : s.Blocked) : s.Idle := by
  have fits := fits_of_run someServer someClient run
  exact blocked.idle ⟨serverBuf, clientBuf, run.reach⟩ fits.server fits.client fits.pong

theorem Quiescent.blocked (quiescent : s.Quiescent) (main : s.server.main = .reading)
    (live : s.server.endpoint.tunnel.task ≠ .done) (main' : s.client.main = .reading)
    (live' : s.client.endpoint.tunnel.task ≠ .done) : s.Blocked where
  server := ⟨by simp [Server.running, main], live⟩
  client := ⟨by simp [Client.running, main'], live'⟩
  parked := by
    intro a task _
    cases a with
    | server a => simp [step, quiescent.server.parked a task]
    | client a => simp [step, quiescent.client.parked a task]
    | toServer => simp [step, Fifo.pop_eq_none.mpr quiescent.client.drained.wire]
    | toClient => simp [step, Fifo.pop_eq_none.mpr quiescent.server.drained.wire]
  attended := Unsent.attended
    ⟨fun n l here => (quiescent.server.drained.conns n l here).2.2,
      fun n l here => (quiescent.client.drained.conns n l here).2.2⟩
  accepted := by simp [main']
  permitted := by simp [main]

theorem no_deadlock_firstByte : ∃ s : Session,
    Run step (fun s a => s.pongFits a = true ∧ a.roomy = true) (start sshConfig 8 8) s ∧
    s.Blocked ∧ s.Idle := by
  have view : (exec (guarded step fun s a => s.pongFits a = true ∧ a.roomy = true)
      (start sshConfig 8 8) firstByte).map (fun s => (s.settled, s.server.main,
        s.server.endpoint.tunnel.task, s.client.main, s.client.endpoint.tunnel.task)) =
      some (true, .reading, .receiving, .reading, .receiving) := by decide
  obtain ⟨s, run, view⟩ := Option.map_eq_some_iff.mp view
  simp only [Prod.mk.injEq] at view
  obtain ⟨settled, main, task, main', task'⟩ := view
  have blocked := (live_of_settled settled).2.blocked main (by simp [task]) main' (by simp [task'])
  exact ⟨s, run_of_exec _ run, blocked,
    no_deadlock sshConfig 8 8 s (by decide) (by decide) (run_of_exec _ run) blocked⟩

/-! ## A session that stands still

A user and an internal service keep both directions of the tunnel busy until everything is full, and
the server's main loop takes a ping: it waits for room for the pong, the frame writer for the
client to read, the client's main loop for the internal connection, its write task for the service,
the service for its own output to be read, the read task for room in the frame channel of the
client, and the client's frame writer for the server's main loop. Until its own output waits the
service is given nothing that it could have read. -/

end Session

namespace Endpoint

variable {τ : Type} {e : Endpoint τ} {o : Owners} {l : Link τ}

theorem jammed_of_full (tunnel : e.tunnel.Holds channelCapacity (.sending datum) [datum])
    (links : e.links = [l]) (writes : ∀ a, a.isTask = true → EndpointAct.reads (.conn 0 a) = false →
      l.conn.step (e.senders o 0) a = none) : e.Jammed o := by
  obtain ⟨queue, task, wire, buf, kept⟩ := tunnel
  intro a isTask inside
  cases a with
  | conn n a =>
      by_cases here : n = 0
      · subst here
        simp [step, links, writes a isTask inside]
      · have beyond : e.links[n]? = none := by simpa [links] using here
        simp [step, beyond]
  | sendData | sendDataErr | remove | finish => cases inside
  | writer a =>
      cases a with
      | sendErr | peerReads => cases isTask
      | _ => simp [step, FrameWriter.step, task, wire, buf, kept]

theorem parked_of_sending (jammed : e.Jammed o)
    (tunnel : e.tunnel.Holds channelCapacity (.sending datum) [datum]) (links : e.links = [l])
    {data : Bytes} (reader : l.conn.reader = .sending data) : e.Parked o := by
  obtain ⟨queue, task, -⟩ := tunnel
  intro a isTask
  cases inside : a.reads with
  | false => exact jammed a isTask inside
  | true =>
      have beyond : ∀ n, n ≠ 0 → e.links[n]? = none := by
        intro n other
        simpa [links] using other
      cases a with
      | writer => cases inside
      | conn n a =>
          by_cases here : n = 0
          · subst here
            cases a <;> first
              | cases inside
                done
              | simp [step, links, Conn.step, reader]
          · simp [step, beyond n here]
      | sendData n | sendDataErr n | remove n | finish n =>
          by_cases here : n = 0
          · subst here
            simp [step, links, reader, FrameWriter.send, FrameWriter.closed, task, queue]
          · simp [step, beyond n here]

structure Choked (held unread : Bytes) (e : Endpoint String) : Prop where
  tunnel : e.tunnel.Holds channelCapacity (.sending datum) [datum]
  link : ∃ l, e.links = [l] ∧ l.conn.reader = .sending [0] ∧ l.conn.inbound.queue = [0] ∧
    l.conn.Stalled (· = []) held unread channelCapacity ([] : List (Link String))

theorem holds_choked (o : Owners) {held unread : Bytes} : Leads (step o) own
    (Holds (Conn.Stalled (· = []) held unread channelCapacity) channelCapacity (.sending datum)
      [datum])
    (Choked held unread) := by
  intro e holds
  obtain ⟨l, rest, links, -, -, -, ⟨reader, read, eof⟩, writer, holding, sent, buf, queued, rfl⟩ :=
    holds.link
  have capacity : 1 ≤ readBufCapacity := by decide
  have fed : (l.conn.inbound.pushAll [0, 0]).queue = [0, 0] := by simp [read]
  let conn : Conn := { l.conn with
    inbound := (l.conn.inbound.pushAll [0, 0]).advance 1, reads := l.conn.reads ++ [[0]]
    reader := .sending [0] }
  refine ⟨{ e with links := [l.setConn conn] },
    run_of_exec [.conn 0 (.peerSends [0, 0]), .conn 0 (.read 1)] ?_, ⟨holds.tunnel, ?_⟩⟩
  · simp [exec, guarded, own, EndpointAct.pushes, ConnAct.pushes, step, links, Conn.step, eof,
      reader, fed, capacity, setLink, Link.setConn, conn]
  · refine ⟨l.setConn conn, rfl, rfl, ?_, writer, holding, sent, buf, queued, rfl⟩
    simp [conn, Link.setConn, Fifo.queue_advance, fed]

theorem Choked.push {e : Endpoint String} (choked : e.Choked [0, 0] []) :
    ∃ e', e.step o (.conn 0 (.push 1)) = some e' ∧ e'.Choked [0] [0] := by
  obtain ⟨tunnel, l, links, reader, read, writer, held, unread, buf, queued, -⟩ := choked
  let conn : Conn := { l.conn with outbound := l.conn.outbound.pushAll [0], held := [0] }
  refine ⟨{ e with links := [l.setConn conn] }, ?_, tunnel, l.setConn conn, rfl, reader, read,
    writer, rfl, ?_, buf, queued, rfl⟩
  · simp [step, links, Conn.step, writer, held, unread, buf, setLink, Link.setConn, conn]
  · simp [Link.setConn, conn, unread]

end Endpoint

namespace Session

variable {s : Session}

def Stage (main : ServerMain) (q : Nat) (task : WriterTask) (wire : List RfrpFrame)
    (main' : ClientMain) (k q' : Nat) (task' : WriterTask) (wire' : List RfrpFrame) :
    Session → Prop :=
  Holds main (Endpoint.Holds (Conn.ReadUp (· = [])) q task wire) main'
    (Endpoint.Holds (Conn.Stalled (· = []) [0, 0] [] k) q' task' wire')

instance (main : ServerMain) (q : Nat) (task : WriterTask) (wire : List RfrpFrame)
    (main' : ClientMain) (k q' : Nat) (task' : WriterTask) (wire' : List RfrpFrame) :
    DecidablePred (Stage main q task wire main' k q' task' wire') :=
  inferInstanceAs (DecidablePred (Holds _ _ _ _))

def Standstill (held unread : Bytes) : Session → Prop :=
  Holds .ponging (Endpoint.Holds (Conn.ReadUp (· = [])) channelCapacity (.sending datum) [datum])
    (.forwarding 0 ⟨0, 0, [0]⟩ 0) (Endpoint.Choked held unread)

theorem stage_standstill : Leads step given
    (Stage .reading 0 .receiving [] .reading 0 0 .receiving [.newPingFrame])
    (Standstill [0, 0] []) := by
  let waits := ClientMain.forwarding 0 ⟨0, 0, [0]⟩ 0
  calc Leads step given _
        (Stage .reading 0 .receiving [] .reading channelCapacity 0 .receiving [.newPingFrame]) :=
      client_full
    Leads step given _
        (Stage .reading 0 .receiving [] waits channelCapacity 0 .receiving [.newPingFrame]) :=
      client_carry
    Leads step given _ (Stage .reading channelCapacity (.sending datum) [datum] waits
        channelCapacity 0 .receiving [.newPingFrame]) :=
      holds_server fun o => Endpoint.holds_full o Conn.unread_readUp
    Leads step given _ (Stage .ponging channelCapacity (.sending datum) [datum] waits
        channelCapacity 0 .receiving []) := holds_ping
    Leads step given _ (Stage .ponging channelCapacity (.sending datum) [datum] waits
        channelCapacity channelCapacity (.sending datum) [datum]) :=
      holds_client fun o => Endpoint.holds_full o (Conn.unread_stalled [0, 0] [] channelCapacity)
    Leads step given _ (Standstill [0, 0] []) := holds_client fun o => Endpoint.holds_choked o

theorem Standstill.push (still : Standstill [0, 0] [] s) :
    ∃ t, s.step (.client (.endpoint (.conn 0 (.push 1)))) = some t ∧ Standstill [0] [0] t := by
  obtain ⟨e, moved, choked⟩ := still.client.push (o := s.client.owners)
  refine ⟨s.onClient e, ?_, { still with client := choked }⟩
  simp [step, ClientAct.isLocal, Client.step, moved, onClient]

section still
variable (still : Standstill [0] [0] s)
include still

theorem Standstill.server_jammed : s.server.endpoint.Jammed s.server.owners := by
  obtain ⟨l, rest, links, -, connId, map, -, writer, empty, -, rfl⟩ := still.server.link
  have senders : s.server.endpoint.senders s.server.owners 0 = true := by
    simp [Endpoint.senders, links, Endpoint.mapAlive, Server.owners, Server.running,
      still.serverMain, map, connId, still.server.entry]
  apply Endpoint.jammed_of_full still.server.tunnel links
  intro a isTask inside
  rw [senders]
  cases a <;> first
    | cases isTask
      done
    | cases inside
      done
    | simp [Conn.step, writer, Fifo.pop, empty]

theorem Standstill.client_parked : s.client.endpoint.Parked s.client.owners := by
  obtain ⟨l, links, reader, -, writer, held, unread, buf, -⟩ := still.client.link
  apply Endpoint.parked_of_sending _ still.client.tunnel links reader
  apply Endpoint.jammed_of_full still.client.tunnel links
  intro a isTask inside
  cases a <;> first
    | cases isTask
      done
    | simp [Conn.step, reader, writer, held, unread, buf]
      try omega

theorem Standstill.attended : s.Attended := by
  obtain ⟨l, rest, links, -, -, -, -, -, -, read, rfl⟩ := still.server.link
  obtain ⟨l', links', reader, unread, -⟩ := still.client.link
  simp [Attended, links, read, links', unread, Conn.readerLeft, reader]

theorem Standstill.blocked : s.Blocked where
  server := by simp [Server.running, still.serverMain, still.server.tunnel.task]
  client := by simp [Client.running, still.clientMain, still.client.tunnel.task]
  parked := by
    have main := still.serverMain
    have main' := still.clientMain
    obtain ⟨l, links, -, -, writer, -, -, -, queued, -⟩ := still.client.link
    intro a isTask inside
    cases a with
    | toServer => simp [step, Server.step, main]
    | toClient => simp [step, Client.step, main']
    | server b =>
        cases b with
        | recv | exit | connect => cases isTask
        | bind | answer | answerErr | accept | acquire | cancel => cases inside
        | reply =>
            simp [step, Server.step, Server.replyFrame, main, Endpoint.enqueue, FrameWriter.send,
              still.server.tunnel.queue]
        | replyErr =>
            simp [step, Server.step, FrameWriter.closed, still.server.tunnel.task]
        | route | routeErr => simp [step, Server.step, main]
        | endpoint b => simp [step, Server.step, still.server_jammed b isTask inside]
    | client b =>
        cases b with
        | recv | exit | connected | refused | tick => cases isTask
        | ping | pingErr | pingCancel => cases inside
        | register | registerErr => simp [step, Client.step, main']
        | forward =>
            simp [step, Client.step, main', Endpoint.deliver, links, Conn.send, queued]
        | forwardErr =>
            simp [step, Client.step, main', Endpoint.undeliverable, links, Conn.closed, writer]
        | endpoint b => simp [step, Client.step, still.client_parked b isTask]
  attended := still.attended
  accepted := by simp [still.clientMain]
  permitted := by simp [still.serverMain]

end still

def primer : List SessionAct :=
  registers 0 ++ accepts 0 1 ++ userSends 0 [0, 0] ++ serverSends ++
    [.client (.connected 1), .client .forward] ++
    ([.recv, .writeDone, .test].map fun a => .client (.endpoint (.conn 0 a))) ++
    [.client .tick, .client .ping, .client (.endpoint (.writer .recv)),
      .client (.endpoint (.writer .sent))]

theorem primed : ∃ s, Run step attentive (start sshConfig 1 1) s ∧
    Stage .reading 0 .receiving [] .reading 0 0 .receiving [.newPingFrame] s :=
  reached_of_exec primer (by decide)

theorem Stage.unsent {main : ServerMain} {main' : ClientMain} {q q' k : Nat}
    {task task' : WriterTask} {wire wire' : List RfrpFrame}
    (stage : Stage main q task wire main' k q' task' wire' s) : s.Unsent := by
  constructor
  · intro n l here
    obtain ⟨_, _, links, -, -, -, -, -, -, read, rfl⟩ := stage.server.link
    rw [links, List.getElem?_singleton] at here
    split at here <;> cases here
    exact read
  · intro n l here
    obtain ⟨_, _, links, -, -, -, -, -, -, read, -, -, rfl⟩ := stage.client.link
    rw [links, List.getElem?_singleton] at here
    split at here <;> cases here
    exact read

theorem wait_cycle : ¬ ∀ (config : ConfigInfo) (serverBuf clientBuf : Nat) (s : Session),
    0 < serverBuf → 0 < clientBuf → Run step attentive (start config serverBuf clientBuf) s →
    s.Blocked → s.server.endpoint.tunnel.chan.queue = [] := by
  intro claim
  obtain ⟨s, run, stage⟩ := primed
  obtain ⟨t, more, choked⟩ := stage_standstill s stage
  obtain ⟨attended, unsent⟩ := stage.unsent.run ⟨1, 1, run.reach⟩ more
  obtain ⟨u, push, still⟩ := choked.push
  have whole := (run.trans attended).tail ⟨rfl, unsent.attended⟩ push
  have empty := claim sshConfig 1 1 u (by decide) (by decide) whole still.blocked
  rw [still.server.tunnel.queue] at empty
  cases empty

end Session

end Rfrp
