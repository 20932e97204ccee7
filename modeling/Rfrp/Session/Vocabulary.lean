import Rfrp.Session.Agreement

/-!
# What the two sides speak of

The kinds of frames that ever stand in a frame channel. `read_buf` returns at least one byte and at
most its capacity, so no Data frame is empty or large; everything else repeats an entry of the
configuration or is a ping or a pong.
-/

namespace Rfrp

open Transition

/-- What one `read_buf` may return. -/
def Chunk (data : Bytes) : Prop := 0 < data.length ∧ data.length ≤ readBufCapacity

namespace Endpoint

variable {τ : Type} {may : Allowed} {e e' : Endpoint τ} {l' : Link τ} {n : Nat}

def Chunked (e : Endpoint τ) : Prop :=
  ∀ (n : Nat) (l : Link τ) (data : Bytes), e.links[n]? = some l → l.conn.reader = .sending data →
    Chunk data

theorem chunked_spawn (sndBuf : Nat) : (spawn sndBuf : Endpoint τ).Chunked :=
  fun _ _ _ here => by simp [spawn] at here

theorem Chunked.setLink (chunked : e.Chunked)
    (new : ∀ data, l'.conn.reader = .sending data → Chunk data) : (e.setLink n l').Chunked := by
  intro m l data here hand
  rcases Slots.get_set here with ⟨-, rfl⟩ | ⟨-, here⟩
  · exact new data hand
  · exact chunked m l data here hand

theorem Chunked.conn (chunked : e.Chunked) {l : Link τ} {conn : Conn} {senders : Bool} {a : ConnAct}
    (here : e.links[n]? = some l) (move : l.conn.step senders a = some conn) :
    (e.setLink n (l.setConn conn)).Chunked := by
  apply chunked.setLink
  intro data hand
  cases Conn.moves_of_step move with
  | read reading some fits there =>
      cases hand
      rw [Chunk, List.length_take, Nat.min_eq_left there]
      exact ⟨some, fits⟩
  | readEof | readErr => cases hand
  | _ => exact chunked n l data here hand

theorem Chunked.step (chunked : e.Chunked) {o : Owners} {a : EndpointAct}
    (h : e.step o a = some e') : e'.Chunked := by
  cases moves_of_step h with
  | writer => exact chunked
  | conn here move => exact chunked.conn here move
  | sendData here hand sent => exact Chunked.setLink chunked fun data new => by cases new
  | sendDataErr here hand => exact chunked.setLink fun data new => by cases new
  | remove here left => exact Chunked.setLink chunked fun data new => by cases new
  | finish here left => exact chunked.setLink fun data new => by cases new

theorem Chunked.evolves (chunked : e.Chunked) (h : Evolves may e e') : e'.Chunked := by
  cases h with
  | step _ h => exact chunked.step h
  | enqueue _ h =>
      obtain ⟨-, rfl⟩ := enqueue_eq_some h
      exact chunked
  | deliver h =>
      obtain ⟨l, here, -, rfl⟩ := deliver_eq_some h
      exact chunked.setLink fun data hand => chunked _ l data here hand
  | addLink _ idle =>
      intro m l data here hand
      rcases Slots.get_append here with here | ⟨-, rfl⟩
      · exact chunked m l data here hand
      · rw [Conn.inHand, show _ = ReadTask.sending data from hand] at idle
        cases idle
  | spawn | drop => exact chunked.setLink fun data new => by cases new
  | _ => exact chunked

end Endpoint

/-! ## The server -/

namespace Server

variable {s : Server}

inductive Speaks (clients : List ClientInfo) : RfrpFrame → Prop
  | data {d : DataInfo} (chunk : Chunk d.data) : Speaks clients (.data d)
  | ack {r : RegisterResponse} (asked : r.client ∈ clients) : Speaks clients (.registerAck r)
  | pong : Speaks clients .newPongFrame

theorem Speaks.mono {clients clients' : List ClientInfo} {f : RfrpFrame} (speaks : Speaks clients f)
    (more : clients ⊆ clients') : Speaks clients' f := by
  cases speaks with
  | data chunk => exact .data chunk
  | ack asked => exact .ack (more asked)
  | pong => exact .pong

theorem Reachable.chunked (reach : s.Reachable) : s.endpoint.Chunked :=
  reach.induct (P := fun s => s.endpoint.Chunked) (fun sndBuf => Endpoint.chunked_spawn sndBuf)
    fun _ _ _ before ih move => ih.evolves (step_endpoint before move)

theorem Reachable.asked (reach : s.Reachable) {r : RegisterResponse}
    (queued : .registerAck r ∈ s.endpoint.tunnel.chan.log) : r.client ∈ registersOf s.received :=
  reach.acks_subperm.subset (List.mem_map_of_mem (mem_acksOf.mpr queued))

theorem Reachable.speaks (reach : s.Reachable) :
    ∀ f ∈ s.endpoint.tunnel.chan.log, Speaks (registersOf s.received) f := by
  obtain ⟨sndBuf, run⟩ := reach
  refine Run.induct run (P := fun s => ∀ f ∈ s.endpoint.tunnel.chan.log,
    Speaks (registersOf s.received) f) (fun f mem => by cases mem) ?_
  intro t a u before ih _ step f mem
  have reach : t.Reachable := ⟨sndBuf, before⟩
  have after : u.Reachable := ⟨sndBuf, before.tail trivial step⟩
  have move := moves_of_step step
  obtain ⟨fs, queues, log⟩ := queues_of_step move
  have queued := mem
  rw [log] at mem
  rcases List.mem_append.mp mem with old | new
  · refine (ih f old).mono ?_
    rcases step_received move with same | ⟨g, -, eq⟩
    · rw [same]
      exact List.Subset.refl _
    · rw [eq, registersOf_append]
      exact List.subset_append_left _ _
  · have answer : ∀ {r : RegisterResponse}, f = .registerAck r → Speaks (registersOf u.received) f := by
      rintro r rfl
      exact .ack (after.asked queued)
    cases queues with
    | nothing => cases new
    | reply frame =>
        rw [List.mem_singleton.mp new] at answer ⊢
        rcases replyFrame_eq_some frame with ⟨client, -, rfl⟩ | ⟨-, rfl⟩
        · exact answer rfl
        · exact .pong
    | answer _ answers =>
        rw [List.mem_singleton.mp new] at answer ⊢
        rcases RegTask.answer_eq_some answers with ⟨-, rfl, -⟩ | ⟨-, rfl, -⟩ <;> exact answer rfl
    | data here hand =>
        rw [List.mem_singleton.mp new]
        exact .data (reach.chunked _ _ _ here hand)

end Server

/-! ## The client -/

namespace Client

variable {c : Client} {config : List ClientInfo}

inductive Speaks (config : List ClientInfo) : RfrpFrame → Prop
  | data {d : DataInfo} (chunk : Chunk d.data) : Speaks config (.data d)
  | register {client : ClientInfo} (entry : client ∈ config) : Speaks config (.register client)
  | ping : Speaks config .newPingFrame

theorem Reachable.chunked (reach : c.Reachable config) : c.endpoint.Chunked :=
  reach.induct (P := fun c => c.endpoint.Chunked)
    (fun sndBuf => endpoint_start config sndBuf ▸ Endpoint.chunked_spawn sndBuf)
    fun _ _ _ _ ih move => ih.evolves (step_endpoint move)

theorem Reachable.speaks (reach : c.Reachable config) :
    ∀ f ∈ c.endpoint.tunnel.chan.log, Speaks config f := by
  refine reach.induct (P := fun c => ∀ f ∈ c.endpoint.tunnel.chan.log, Speaks config f)
    (fun sndBuf => by simp [endpoint_start, Endpoint.spawn, FrameWriter.spawn]) ?_
  intro c a c' before ih move
  have one : ∀ {g : RfrpFrame}, Speaks config g →
      ∀ f ∈ (c.endpoint.tunnel.chan.push g).log, Speaks config f := by
    intro g speaks f mem
    rw [Fifo.log_push] at mem
    rcases List.mem_append.mp mem with old | new
    · exact ih f old
    · rw [List.mem_singleton.mp new]
      exact speaks
  cases move with
  | recvFast _ _ finds | recvNew _ _ finds => cases finds <;> exact ih
  | register _ here sent =>
      obtain ⟨-, rfl⟩ := Endpoint.enqueue_eq_some sent
      rw [before.registered.config_eq] at here
      exact one (.register (List.mem_of_getElem? here))
  | ping _ sent =>
      obtain ⟨-, rfl⟩ := Endpoint.enqueue_eq_some sent
      exact one .ping
  | forward _ sent =>
      obtain ⟨l, -, -, rfl⟩ := Endpoint.deliver_eq_some sent
      exact ih
  | endpoint step =>
      rcases Endpoint.step_tunnel_log step with same | ⟨n, l, data, -, here, hand, -, eq⟩
      · dsimp only
        rw [same]
        exact ih
      · intro f mem
        dsimp only at mem
        rw [eq] at mem
        rcases List.mem_append.mp mem with old | new
        · exact ih f old
        · rw [List.mem_singleton.mp new]
          exact .data (before.chunked _ _ _ here hand)
  | _ => exact ih

end Client

/-! ## Both -/

namespace Session

variable {s : Session} {config : ConfigInfo}

theorem Reachable.client_speaks (reach : s.Reachable config) :
    ∀ f ∈ s.client.endpoint.tunnel.chan.log, Client.Speaks config.init.clientProxy f :=
  reach.client.speaks

theorem Reachable.server_speaks (reach : s.Reachable config) :
    ∀ f ∈ s.server.endpoint.tunnel.chan.log,
      Server.Speaks (config.init.clientProxy.map ClientInfo.skipAddr) f := by
  intro f mem
  refine (reach.server.speaks f mem).mono fun client asked => ?_
  exact List.map_subset _ reach.client.registered.sent.subset (reach.registers_toServer.subset asked)

/-- Every Data frame that is ever queued holds what one read returned, the client speaks only of its
own entries, and the server only repeats them. -/
theorem vocabulary (s : Session) (config : ConfigInfo) (reach : s.Reachable config) :
    (∀ f ∈ s.client.endpoint.tunnel.chan.log, Client.Speaks config.init.clientProxy f) ∧
    (∀ f ∈ s.server.endpoint.tunnel.chan.log,
      Server.Speaks (config.init.clientProxy.map ClientInfo.skipAddr) f) :=
  ⟨reach.client_speaks, reach.server_speaks⟩

def noProxies : ConfigInfo := ⟨.client, ⟨"127.0.0.1", 11000, "token", ""⟩, []⟩

theorem vocabulary_ping : ∃ s : Session, s.client.endpoint.tunnel.chan.log = [.newPingFrame] ∧
    (∀ f ∈ s.client.endpoint.tunnel.chan.log, Client.Speaks [] f) ∧
    (∀ f ∈ s.server.endpoint.tunnel.chan.log, Server.Speaks [] f) := by
  have view : (exec step (start noProxies 1 1) [.client .tick, .client .ping]).map
      (fun s => s.client.endpoint.tunnel.chan.log) = some [.newPingFrame] := by decide
  obtain ⟨s, run, log⟩ := Option.map_eq_some_iff.mp view
  exact ⟨s, log, vocabulary s noProxies ⟨1, 1, run_of_exec _ run⟩⟩

end Session

end Rfrp
