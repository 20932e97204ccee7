import Rfrp.Session.Agreement
import Rfrp.Server.Dispatch
import Rfrp.Client.Dispatch
import Rfrp.Session.Stages

/-!
# Stalled connections

One main loop serves all connections of a side, one frame after the other. It waits for a
connection exactly while it sends to one whose channel is full, the client's also while a connect is
under way; as long as every frame that waits finds room and an open connection, it gets through all
of them, whatever the peers do.
-/

namespace Rfrp

open Transition

/-- The main loop is sending to connection `n`, which neither takes the payload nor is over. -/
def Server.Suspended (s : Server) (n : Nat) : Prop :=
  (∃ data, s.main = .routing n data) ∧ s.step .route = none ∧ s.step .routeErr = none

def Client.Suspended (c : Client) (n : Nat) : Prop :=
  (∃ d m, c.main = .forwarding n d m) ∧ c.step .forward = none ∧ c.step .forwardErr = none

/-- The channel of connection `n` is full and its write task lives. -/
def Endpoint.Full {τ : Type} (e : Endpoint τ) (n : Nat) : Prop :=
  ∃ l, e.links[n]? = some l ∧ l.conn.writer ≠ .done ∧ l.conn.chan.queue.length = channelCapacity

theorem Endpoint.full_iff {τ : Type} {e : Endpoint τ} {n : Nat} (bound : n < e.links.length)
    (capacity : e.Each fun c => c.chan.queue.length ≤ channelCapacity) (data : Bytes) :
    e.Full n ↔ e.deliver n data = none ∧ e.undeliverable n = false := by
  have here := List.getElem?_eq_getElem bound
  have most := capacity n _ here
  constructor
  · rintro ⟨l, there, live, full⟩
    rw [there] at here
    simp [deliver, undeliverable, there, Conn.send, Conn.closed, live, full]
  · rintro ⟨waits, live⟩
    have live : e.links[n].conn.writer ≠ .done := by
      simpa [undeliverable, here, Conn.closed] using live
    refine ⟨_, here, live, ?_⟩
    simp only [deliver, here, Option.bind_some, Option.map_eq_none_iff, Conn.send, Conn.closed,
      live, decide_false, true_and, ite_eq_right_iff, reduceCtorEq, imp_false, not_lt] at waits
    omega

theorem Server.suspended_iff {s : Server} (reach : s.Reachable) (n : Nat) :
    s.Suspended n ↔ (∃ data, s.main = .routing n data) ∧ s.endpoint.Full n := by
  apply and_congr_right
  rintro ⟨data, main⟩
  have bound := reach.hand_lt n data (by simp [hand, main])
  rw [Endpoint.full_iff bound reach.capacity data]
  simp [step, main]

theorem Client.suspended_iff {c : Client} {config : List ClientInfo} (reach : c.Reachable config)
    (n : Nat) : c.Suspended n ↔ (∃ d m, c.main = .forwarding n d m) ∧ c.endpoint.Full n := by
  apply and_congr_right
  rintro ⟨d, m, main⟩
  have bound := reach.hand_lt n d.data (by simp [hand, main])
  rw [Endpoint.full_iff bound reach.capacity d.data]
  simp [step, main]

def SessionAct.ofServerLoop : SessionAct → Bool
  | .server a => a.ofLoop
  | .toServer => true
  | _ => false

def SessionAct.ofClientLoop : SessionAct → Bool
  | .client a => a.ofLoop
  | .toClient => true
  | _ => false

namespace Session

variable {s s' : Session} {config : ConfigInfo}

theorem server_loop {c : Client} {t t' : Server}
    (run : Run Server.step (fun _ a => a.ofLoop = true) t t') :
    Run step (fun _ a => a.ofServerLoop = true) ⟨t, c⟩ ⟨t', c⟩ := by
  apply run.simulate (fun t => (⟨t, c⟩ : Session))
  intro t a u own move
  have here : a.isLocal = true := by
    cases a <;> first | rfl | cases own
  refine (Run.refl _).tail (a := .server a) own ?_
  simp [step, here, move]

theorem client_loop {t : Server} {c c' : Client}
    (run : Run Client.step (fun _ a => a.ofLoop = true) c c') :
    Run step (fun _ a => a.ofClientLoop = true) ⟨t, c⟩ ⟨t, c'⟩ := by
  apply run.simulate (fun c => (⟨t, c⟩ : Session))
  intro c a u own move
  have here : a.isLocal = true := by
    cases a <;> first | rfl | cases own
  refine (Run.refl _).tail (a := .client a) own ?_
  simp [step, here, move]

theorem server_drains (fs : List RfrpFrame) (reach : s.Reachable config)
    (waiting : s.client.endpoint.tunnel.wire.queue = fs)
    (ready : s.server.Ready (fs.map RfrpFrame.skipAddr)) :
    ∃ s', Run step (fun _ a => a.ofServerLoop = true) s s' ∧
      s'.client.endpoint.tunnel.wire.queue = [] ∧
      s.server.Handles (fs.map RfrpFrame.skipAddr) s'.server := by
  induction fs generalizing s with
  | nil => exact ⟨s, Run.refl s, waiting, .refl ready.main⟩
  | cons f fs ih =>
      have split : (f :: fs).map RfrpFrame.skipAddr = [f.skipAddr] ++ fs.map RfrpFrame.skipAddr := rfl
      rw [split] at ready ⊢
      obtain ⟨t₁, t₂, recv, loop, handles⟩ := Server.deals_frame reach.server ready.left
      obtain ⟨g, wire, popped⟩ :=
        Fifo.exists_pop (f := s.client.endpoint.tunnel.wire) (by simp [waiting])
      have rest := (Fifo.pop_eq_some popped).2.2
      rw [waiting, List.cons.injEq] at rest
      obtain ⟨rfl, rest⟩ := rest
      let client : Client := { s.client with endpoint :=
        { s.client.endpoint with tunnel := { s.client.endpoint.tunnel with wire } } }
      have taken : s.step .toServer = some ⟨t₁, client⟩ := by
        simp [step, popped, Client.step, Endpoint.step, FrameWriter.step, recv, client]
      have run : Run step (fun _ a => a.ofServerLoop = true) s ⟨t₂, client⟩ :=
        ((Run.refl s).tail (show SessionAct.ofServerLoop .toServer = true from rfl) taken).trans
          (server_loop loop)
      obtain ⟨s', more, drained, all⟩ := ih (reach.run run) rest.symm (ready.rest handles)
      exact ⟨s', run.trans more, drained, handles.trans all⟩

theorem client_drains (fs : List RfrpFrame) (reach : s.Reachable config)
    (waiting : s.server.endpoint.tunnel.wire.queue = fs)
    (ready : s.client.Ready (fs.map RfrpFrame.skipAddr)) :
    ∃ s', Run step (fun _ a => a.ofClientLoop = true) s s' ∧
      s'.server.endpoint.tunnel.wire.queue = [] ∧
      s.client.Handles (fs.map RfrpFrame.skipAddr) s'.client := by
  induction fs generalizing s with
  | nil => exact ⟨s, Run.refl s, waiting, .refl ready.main⟩
  | cons f fs ih =>
      have split : (f :: fs).map RfrpFrame.skipAddr = [f.skipAddr] ++ fs.map RfrpFrame.skipAddr := rfl
      rw [split] at ready ⊢
      obtain ⟨c₁, c₂, recv, loop, handles⟩ := Client.deals_frame reach.client ready.left
      obtain ⟨g, wire, popped⟩ :=
        Fifo.exists_pop (f := s.server.endpoint.tunnel.wire) (by simp [waiting])
      have rest := (Fifo.pop_eq_some popped).2.2
      rw [waiting, List.cons.injEq] at rest
      obtain ⟨rfl, rest⟩ := rest
      let server : Server := { s.server with endpoint :=
        { s.server.endpoint with tunnel := { s.server.endpoint.tunnel with wire } } }
      have taken : s.step .toClient = some ⟨server, c₁⟩ := by
        simp [step, popped, Server.step, Endpoint.step, FrameWriter.step, recv, server]
      have run : Run step (fun _ a => a.ofClientLoop = true) s ⟨server, c₂⟩ :=
        ((Run.refl s).tail (show SessionAct.ofClientLoop .toClient = true from rfl) taken).trans
          (client_loop loop)
      obtain ⟨s', more, drained, all⟩ := ih (reach.run run) rest.symm (ready.rest handles)
      exact ⟨s', run.trans more, drained, handles.trans all⟩

/-- A main loop waits for a connection exactly while it sends to one whose channel is full, and gets
through all waiting frames where each finds room. -/
theorem stalls (config : ConfigInfo) (serverBuf clientBuf : Nat) (s : Session)
    (run : Reach step (start config serverBuf clientBuf) s) :
    (∀ n, s.server.Suspended n ↔
      (∃ data, s.server.main = .routing n data) ∧ s.server.endpoint.Full n) ∧
    (∀ n, s.client.Suspended n ↔
      (∃ d m, s.client.main = .forwarding n d m) ∧ s.client.endpoint.Full n) ∧
    (∀ fs, s.client.endpoint.tunnel.wire.queue.map RfrpFrame.skipAddr = fs → s.server.Ready fs →
      ∃ s', Run step (fun _ a => a.ofServerLoop = true) s s' ∧
        s'.client.endpoint.tunnel.wire.queue = [] ∧ s.server.Handles fs s'.server) ∧
    (∀ fs, s.server.endpoint.tunnel.wire.queue.map RfrpFrame.skipAddr = fs → s.client.Ready fs →
      ∃ s', Run step (fun _ a => a.ofClientLoop = true) s s' ∧
        s'.server.endpoint.tunnel.wire.queue = [] ∧ s.client.Handles fs s'.client) := by
  have reach : s.Reachable config := ⟨serverBuf, clientBuf, run⟩
  refine ⟨Server.suspended_iff reach.server, Client.suspended_iff reach.client, ?_, ?_⟩
  · rintro _ rfl ready
    exact server_drains _ reach rfl ready
  · rintro _ rfl ready
    exact client_drains _ reach rfl ready

def secondByte : List SessionAct :=
  registers 0 ++ accepts 0 1 ++ userSends 0 [0] ++ serverSends ++
    [.client (.connected 1), .client .forward] ++ internalWrites 0 1 ++
    [.client (.endpoint (.conn 0 (.peerReads 1)))] ++ userSends 0 [0] ++ serverSends.take 2

theorem stalls_secondByte : ∃ s s', Reach step (start sshConfig 1 1) s ∧
    s.server.endpoint.tunnel.wire.queue = [datum] ∧
    Run step (fun _ a => a.ofClientLoop = true) s s' ∧
    s'.server.endpoint.tunnel.wire.queue = [] ∧ s.client.Handles [datum] s'.client := by
  obtain ⟨s, run, holds⟩ : ∃ s, Reach step (start sshConfig 1 1) s ∧
      Holds .reading (Endpoint.Holds (Conn.ReadUp (· = [])) 0 .receiving [datum]) .reading
        (Endpoint.Holds (Conn.ReadUp (· = [])) 0 .receiving []) s :=
    reached_of_exec secondByte (by decide)
  obtain ⟨l, _, links, proxyId, connId, map, -, writer, empty, -, rfl⟩ := holds.client.link
  have here : s.client.endpoint.links[0]? = some l := by simp [links]
  have entry : s.client.endpoint.lookup l.map l.connId = some 0 := by
    rw [map, connId]
    exact holds.client.entry
  have ready : s.client.Ready [datum] := by
    refine ⟨holds.clientMain, fun n k found => ?_, fun d mem => Or.inr ⟨0, l, ⟨here, entry, ?_⟩, ?_⟩⟩
    · have most := (List.length_filter_le (fun d : DataInfo => d.proxyId = k.proxyId ∧
        d.connId = k.connId) (dataOf [datum]))
      rw [links, List.getElem?_singleton] at found
      split at found <;> cases found
      simp only [payloads, List.length_map, empty, List.length_nil]
      exact (Nat.zero_add _).le.trans (most.trans (by decide))
    · simp [writer]
    · obtain rfl := List.mem_singleton.mp mem
      exact ⟨proxyId, connId⟩
  have waiting := holds.server.tunnel.wire
  obtain ⟨s', loop, drained, handles⟩ :=
    (stalls sshConfig 1 1 s run).2.2.2 [datum] (by rw [waiting]; rfl) ready
  exact ⟨s, s', run, waiting, loop, drained, handles⟩

end Session

/-- A ping, or a Data frame of another connection. -/
def RfrpFrame.isOther (p : UInt32) (c : UInt64) (f : RfrpFrame) : Bool :=
  f.isPing || f.dataInfo?.any fun d => !(d.proxyId = p ∧ d.connId = c)

namespace Endpoint

def second (rest : List (Link UInt16)) : Prop :=
  rest.map (fun k => (k.proxyId, k.connId)) = [(0, 1)] ∧ ∀ k ∈ rest, k.conn.Listens

instance : DecidablePred second := fun _ => inferInstanceAs (Decidable (_ ∧ _))

theorem second_sends (o : Owners) : Leads (step o) own
    (Holds (Conn.ReadUp second) 0 .receiving [])
    fun e => e.tunnel.wire.queue = [.newDataFrame [0] 0 1] := by
  intro e holds
  obtain ⟨l, _, links, -, -, -, -, -, -, -, ids, listens⟩ := holds.link
  obtain ⟨k, others, rfl, id, none⟩ := List.map_eq_cons_iff.mp ids
  obtain rfl := List.map_eq_nil_iff.mp none
  simp only [Prod.mk.injEq] at id
  obtain ⟨reader, read, eof⟩ := listens k (List.mem_singleton_self k)
  obtain ⟨w₁, w₂, w₃, queued, taken, sent, held⟩ := holds.tunnel.carry (.newDataFrame [0] 0 1)
  have capacity : 1 ≤ readBufCapacity := by decide
  have fed : (k.conn.inbound.pushAll [0]).queue = [0] := by simp [read]
  let conn : Conn := { k.conn with
    inbound := (k.conn.inbound.pushAll [0]).advance 1, reads := k.conn.reads ++ [[0]]
    reader := .reading }
  refine ⟨{ e with tunnel := w₃, links := [l, k.setConn conn] }, run_of_exec
    [.conn 1 (.peerSends [0]), .conn 1 (.read 1), .sendData 1, .writer .recv, .writer .sent] ?_,
    held.wire⟩
  simp [exec, guarded, own, EndpointAct.pushes, ConnAct.pushes, step, links, Conn.step, eof, reader,
    fed, capacity, setLink, Link.setConn, Link.setReader, id.1, id.2, queued, taken, sent, conn]

end Endpoint

namespace Session

def deafUser : List SessionAct :=
  registers 0 ++ accepts 0 1 ++ userSends 0 [0] ++ serverSends ++
    [.client (.connected 1), .client .forward] ++ internalWrites 0 1 ++
    [.client (.endpoint (.conn 0 (.peerReads 1)))] ++
    serviceSends 0 [0] ++ clientSends ++ .server .route :: externalWrites 0 1 ++
    serviceSends 0 [0] ++ clientSends ++ .server .route ::
    [.recv, .writeDone, .test].map fun a => .server (.endpoint (.conn 0 a))

def deafService : List SessionAct :=
  registers 0 ++ accepts 0 1 ++ accepts 0 1 ++ userSends 0 [0] ++ serverSends ++
    [.client (.connected 1), .client .forward] ++ internalWrites 0 1 ++
    userSends 0 [0] ++ serverSends ++ .client .forward ::
    [.recv, .writeDone, .test].map fun a => .client (.endpoint (.conn 0 a))

def slowConnect : List SessionAct :=
  registers 0 ++ accepts 0 8 ++ accepts 0 8 ++ userSends 0 [0] ++ serverSends ++
    userSends 1 [0] ++ serverSends.take 2

theorem deafUser_stalls : ∃ s l, Reach step (start sshConfig 1 1) s ∧ s.server.Suspended 0 ∧
    s.server.endpoint.links[0]? = some l ∧
    s.client.endpoint.tunnel.wire.queue = [.newPingFrame] := by
  obtain ⟨s, run, primed⟩ : ∃ s, Reach step (start sshConfig 1 1) s ∧
      Holds .reading (Endpoint.Holds (Conn.Stalled (· = []) [0] [0] 0) 0 .receiving []) .reading
        (Endpoint.Holds (Conn.ReadUp (· = [])) 0 .receiving []) s :=
    reached_of_exec deafUser (by decide)
  obtain ⟨t, more, holds⟩ := ((server_full.trans server_carry).trans holds_beat) s primed
  obtain ⟨l, rest, links, -, -, -, -, writer, -, -, -, queued, -⟩ := holds.server.link
  have here : t.server.endpoint.links[0]? = some l := by simp [links]
  refine ⟨t, l, run.trans more.reach, ⟨⟨_, holds.serverMain⟩, ?_, ?_⟩, here, holds.client.tunnel.wire⟩
  · simp [Server.step, holds.serverMain, Endpoint.deliver, here, Conn.send, queued]
  · simp [Server.step, holds.serverMain, Endpoint.undeliverable, here, Conn.closed, writer]

theorem deafService_stalls : ∃ s l, Reach step (start sshConfig 1 1) s ∧ s.client.Suspended 0 ∧
    s.client.endpoint.links[0]? = some l ∧ l.connId = 0 ∧
    s.server.endpoint.tunnel.wire.queue = [.newDataFrame [0] 0 1] := by
  obtain ⟨s, run, primed⟩ : ∃ s, Reach step (start sshConfig 1 1) s ∧
      Holds .reading (Endpoint.Holds (Conn.ReadUp Endpoint.second) 0 .receiving []) .reading
        (Endpoint.Holds (Conn.Stalled (· = []) [0] [0] 0) 0 .receiving []) s :=
    reached_of_exec deafService (by decide)
  obtain ⟨t, more, holds⟩ :=
    ((client_full.trans client_carry).trans (holds_server Endpoint.second_sends)) s primed
  obtain ⟨l, rest, links, -, connId, -, -, writer, -, -, -, queued, -⟩ := holds.client.link
  have here : t.client.endpoint.links[0]? = some l := by simp [links]
  refine ⟨t, l, run.trans more.reach, ⟨⟨_, _, holds.clientMain⟩, ?_, ?_⟩, here, connId, holds.server⟩
  · simp [Client.step, holds.clientMain, Endpoint.deliver, here, Conn.send, queued]
  · simp [Client.step, holds.clientMain, Endpoint.undeliverable, here, Conn.closed, writer]

theorem slowConnect_stalls : ∃ s client m, Reach step (start sshConfig 8 8) s ∧
    s.client.main = .connecting client ⟨0, 0, [0]⟩ m ∧
    s.server.endpoint.tunnel.wire.queue = [.newDataFrame [0] 0 1] := by
  have view : (exec step (start sshConfig 8 8) slowConnect).map
      (fun s => (s.client.main, s.server.endpoint.tunnel.wire.queue)) = some
        (.connecting ⟨"ssh", 22001, "127.0.0.1", 22, "tcp", "127.0.0.1:22"⟩ ⟨0, 0, [0]⟩ 0,
          [.newDataFrame [0] 0 1]) := by decide
  obtain ⟨s, run, view⟩ := Option.map_eq_some_iff.mp view
  simp only [Prod.mk.injEq] at view
  exact ⟨s, _, _, reach_of_exec _ run, view.1, view.2⟩

theorem others_wait :
    (¬ ∀ (config : ConfigInfo) (serverBuf clientBuf : Nat) (s : Session),
      Reach step (start config serverBuf clientBuf) s → ∀ (n : Nat) (l : Link UInt16),
        s.server.Suspended n → s.server.endpoint.links[n]? = some l →
        ∀ f ∈ s.client.endpoint.tunnel.wire.queue, f.isOther l.proxyId l.connId = false) ∧
    (¬ ∀ (config : ConfigInfo) (serverBuf clientBuf : Nat) (s : Session),
      Reach step (start config serverBuf clientBuf) s → ∀ (n : Nat) (l : Link String),
        s.client.Suspended n → s.client.endpoint.links[n]? = some l →
        ∀ f ∈ s.server.endpoint.tunnel.wire.queue, f.isOther l.proxyId l.connId = false) ∧
    (¬ ∀ (config : ConfigInfo) (serverBuf clientBuf : Nat) (s : Session),
      Reach step (start config serverBuf clientBuf) s → ∀ (client : ClientInfo) (d : DataInfo)
        (m : Nat), s.client.main = .connecting client d m →
        ∀ f ∈ s.server.endpoint.tunnel.wire.queue, f.isOther d.proxyId d.connId = false) := by
  refine ⟨fun claim => ?_, fun claim => ?_, fun claim => ?_⟩
  · obtain ⟨s, l, run, suspended, here, waiting⟩ := deafUser_stalls
    have other := claim sshConfig 1 1 s run 0 l suspended here .newPingFrame (by simp [waiting])
    simp [RfrpFrame.isOther, RfrpFrame.newPingFrame, RfrpFrame.isPing] at other
  · obtain ⟨s, l, run, suspended, here, connId, waiting⟩ := deafService_stalls
    have other := claim sshConfig 1 1 s run 0 l suspended here (.newDataFrame [0] 0 1)
      (by simp [waiting])
    simp [RfrpFrame.isOther, RfrpFrame.newDataFrame, RfrpFrame.isPing, RfrpFrame.dataInfo?,
      connId] at other
  · obtain ⟨s, client, m, run, connecting, waiting⟩ := slowConnect_stalls
    have other := claim sshConfig 8 8 s run client _ m connecting (.newDataFrame [0] 0 1)
      (by simp [waiting])
    simp [RfrpFrame.isOther, RfrpFrame.newDataFrame, RfrpFrame.isPing, RfrpFrame.dataInfo?] at other

end Session

end Rfrp
