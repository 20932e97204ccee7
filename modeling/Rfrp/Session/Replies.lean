import Rfrp.Session.Quiescence

/-!
# Replies

A user that shuts down its sending direction counts as gone: the server drops the entry that replies
are routed by. To every other user the server has, in a quiescent state, written all that the client
has read from the connections opened for it.
-/

namespace Rfrp

open Transition

namespace Session

variable {s : Session} {config : ConfigInfo} {m n : Nat}

theorem polite_server {serverBuf clientBuf : Nat}
    (run : Reach step (start config serverBuf clientBuf) s) :
    Run Server.step Server.Polite (.start serverBuf) s.server := by
  refine run.induct (P := fun s => Run Server.step Server.Polite (.start serverBuf) s.server)
    (Run.refl _) fun s a t before ih _ move => ?_
  have reach : s.Reachable config := ⟨serverBuf, clientBuf, before⟩
  cases moves_of_step move with
  | client => exact ih
  | server here step =>
      refine ih.tail ?_ step
      rintro d rfl
      simp [ServerAct.isLocal] at here
  | toClient _ read =>
      refine ih.tail ?_ read
      rintro d same
      cases same
  | @toServer f wire client server popped read recv =>
      refine ih.tail ?_ recv
      intro d same
      have data : f = .data d := by
        cases f <;> simp_all [RfrpFrame.skipAddr]
      have sent : f ∈ s.client.endpoint.tunnel.wire.log := by
        obtain ⟨log, received, -⟩ := Fifo.pop_eq_some popped
        have mem : f ∈ wire.received := by simp [received]
        exact log ▸ (Fifo.received_isPrefix wire).subset mem
      have queued := reach.client.endpoint_ok.tunnel.wire_isPrefix.subset sent
      obtain ⟨origin, up⟩ := reach.client.upstream
      have listed : d ∈ origin.map Prod.snd := by
        rw [← up.frames]
        exact List.mem_filterMap.mpr ⟨f, queued, by simp [data, RfrpFrame.dataInfo?]⟩
      obtain ⟨x, mem, rfl⟩ := List.mem_map.mp listed
      obtain ⟨l, there, proxy, conn⟩ := up.ids x mem
      obtain ⟨k, e, found, proxy', conn'⟩ := reach.external there
      exact ⟨e, List.mem_of_getElem? found, proxy'.trans proxy, conn'.trans conn⟩

theorem Quiescent.hand (quiescent : s.Quiescent) (reach : s.Reachable config) :
    s.server.hand = none := by
  rcases quiescent.server.main reach.server with main | ⟨r, main⟩ <;> simp [Server.hand, main]

theorem Quiescent.chunks (quiescent : s.Quiescent) (reach : s.Reachable config)
    (sound : s.client.endpoint.Sound) (p : UInt32) (c : UInt64) :
    ∃ chunks : List (Nat × Bytes),
      chunks.map Prod.snd = payloads p c (dataOf s.client.endpoint.tunnel.chan.log) ∧
      (∀ x ∈ chunks, ∃ l, s.client.endpoint.links[x.1]? = some l ∧ l.proxyId = p ∧
        l.connId = c) ∧
      ∀ (n : Nat) (l : Link String), s.client.endpoint.links[n]? = some l → l.proxyId = p →
        l.connId = c → ((chunks.filter fun x => x.1 = n).map Prod.snd) = l.conn.reads := by
  obtain ⟨origin, up⟩ := reach.client.upstream
  obtain ⟨chunks, whole, owned, mine⟩ := up.chunks p c
  refine ⟨chunks, whole, owned, fun n l here proxy conn => ?_⟩
  have reads := up.reads_eq n l here (Or.inr sound.serving)
  have idle : l.conn.inHand = [] := by
    unfold Conn.inHand
    rcases quiescent.client.endpoint.reader quiescent.client.drained here with
      reader | ⟨reader, -⟩ | reader <;> rw [reader]
  rw [mine n l here proxy conn, ← reads, idle, List.append_nil]

theorem replies (config : ConfigInfo) (serverBuf clientBuf : Nat) (s : Session)
    (run : Run step (fun _ a => a.socketFails = false) (start config serverBuf clientBuf) s)
    (few : ∀ r, s.server.accepted r < 2 ^ 64) (live : s.Live) (quiescent : s.Quiescent)
    (m : Nat) (e : Link UInt16) (here : s.server.endpoint.links[m]? = some e) :
    ∃ chunks : List (Nat × Bytes),
      (∀ x ∈ chunks, ∃ l, s.client.endpoint.links[x.1]? = some l ∧ l.proxyId = e.proxyId ∧
        l.connId = e.connId) ∧
      (∀ (n : Nat) (l : Link String), s.client.endpoint.links[n]? = some l →
        l.proxyId = e.proxyId → l.connId = e.connId →
        ((chunks.filter fun x => x.1 = n).map Prod.snd).flatten = l.conn.inbound.received) ∧
      e.conn.outbound.log <+: (chunks.map Prod.snd).flatten ∧
      (e.conn.eof = false → e.conn.outbound.log = (chunks.map Prod.snd).flatten) := by
  have reach : s.Reachable config := ⟨serverBuf, clientBuf, run.reach⟩
  have sound := Server.sound_of_run (calm_server run) live.server
  have sound' := Client.sound_of_run (calm_client run) live.client
  obtain ⟨chunks, whole, owned, read⟩ := quiescent.chunks reach sound' e.proxyId e.connId
  have noGaps := Server.polite_noGaps (polite_server run.reach) few m e here
  rw [quiescent.toServer reach sound'.toGoing, dataOf_map_skipAddr, ← whole, quiescent.hand reach]
    at noGaps
  have ok := reach.server.endpoint_ok.conns m e here
  refine ⟨chunks, owned, fun n l there proxy conn => ?_, ?_, fun eof => ?_⟩
  · rw [read n l there proxy conn]
    exact (reach.client.endpoint_ok.conns n l there).reads_eq
  · have handed := (List.prefix_append _ _).trans ok.handed
    exact (handed.trans (Fifo.received_isPrefix _).flatten).trans noGaps.1.flatten
  · have entered := Server.entered_of_run (calm_server run) live.server few
    have attached : e.attached = true := by
      refine Link.attached_of_live (Bool.not_eq_true _ ▸ fun left => ?_)
      rw [sound.left m e here left] at eof
      cases eof
    have serving := entered.served m e here attached
    obtain ⟨-, outgoing, -⟩ := quiescent.server.drained.conns m e here
    obtain ⟨empty, held⟩ := outgoing serving.2
    have handed := ok.handed_eq serving
    have log := noGaps.2 (Or.inl (entered.found m e here attached)) serving.2
    rw [handFor_none, List.append_nil] at log
    rwa [held, List.append_nil, Fifo.received_eq_log empty, log] at handed

theorem few_of_one {e : Link UInt16} (one : s.server.endpoint.links = [e]) : s.Few :=
  few_of_length (by simp [one])

theorem answered_run : ∃ (s : Session) (e : Link UInt16) (l : Link String),
    Run step (fun _ a => a.socketFails = false) (start sshConfig 8 8) s ∧
    s.Live ∧ s.Quiescent ∧ s.server.endpoint.links = [e] ∧ s.client.endpoint.links = [l] ∧
    e.half = ⟨0, 0, [1], [7], false, true⟩ ∧ l.half = ⟨0, 0, [7], [1], false, true⟩ :=
  halves_of_exec (firstByte ++ serviceSends 0 [7] ++ clientSends ++ [.server .route] ++
    externalWrites 0 1 ++ [.server (.endpoint (.conn 0 (.peerReads 1)))]) (by decide)

theorem replies_answered : ∃ (s : Session) (e : Link UInt16) (chunks : List (Nat × Bytes)),
    Run step (fun _ a => a.socketFails = false) (start sshConfig 8 8) s ∧ s.Quiescent ∧
    s.server.endpoint.links[0]? = some e ∧ (chunks.map Prod.snd).flatten = [7] ∧
    e.conn.outbound.log = (chunks.map Prod.snd).flatten := by
  obtain ⟨s, e, l, run, live, quiescent, here, there, half, half'⟩ := answered_run
  have found : s.server.endpoint.links[0]? = some e := by simp [here]
  obtain ⟨chunks, -, -, -, whole⟩ :=
    replies sshConfig 8 8 s run (few_of_one here) live quiescent 0 e found
  simp only [Link.half, Half.mk.injEq] at half
  have wrote := whole half.2.2.2.2.1
  exact ⟨s, e, chunks, run, quiescent, found, wrote.symm.trans half.2.2.2.1, wrote⟩

theorem halfClosed_run : ∃ (s : Session) (e : Link UInt16) (l : Link String),
    Run step (fun _ a => a.socketFails = false) (start sshConfig 8 8) s ∧
    s.Live ∧ s.Quiescent ∧ s.server.endpoint.links = [e] ∧ s.client.endpoint.links = [l] ∧
    e.half = ⟨0, 0, [1], [], true, false⟩ ∧ l.half = ⟨0, 0, [7], [1], false, true⟩ :=
  halves_of_exec (firstByte ++ externalEnds 0 ++ serviceSends 0 [7] ++ clientSends)
    (by decide)

theorem reply_lost : ¬ ∀ (config : ConfigInfo) (serverBuf clientBuf : Nat) (s : Session),
    Run step (fun _ a => a.socketFails = false) (start config serverBuf clientBuf) s →
    (∀ r, s.server.accepted r < 2 ^ 64) → s.Live → s.Quiescent →
    ∀ (m n : Nat) (e : Link UInt16) (l : Link String), s.server.endpoint.links[m]? = some e →
      s.client.endpoint.links[n]? = some l → e.proxyId = l.proxyId → e.connId = l.connId →
      e.conn.outbound.log = l.conn.inbound.received := by
  intro claim
  obtain ⟨s, e, l, run, live, quiescent, here, there, half, half'⟩ := halfClosed_run
  simp only [Link.half, Half.mk.injEq] at half half'
  have whole := claim sshConfig 8 8 s run (few_of_one here) live quiescent 0 0 e l
    (by simp [here]) (by simp [there]) (half.1.trans half'.1.symm)
    (half.2.1.trans half'.2.1.symm)
  simp [half, half'] at whole

end Session

end Rfrp
