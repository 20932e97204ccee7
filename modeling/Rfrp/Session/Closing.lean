import Rfrp.Session.Quiescence

/-!
# Closing connections

There is no frame that says a connection is over. Each side closes its own half of a logical
connection when its own peer does, and keeps it open as long as its own peer does, whatever has
become of the other half.
-/

namespace Rfrp

open Transition

namespace Session

variable {s : Session} {config : ConfigInfo}

theorem closing (config : ConfigInfo) (serverBuf clientBuf : Nat) (s : Session)
    (run : Reach step (start config serverBuf clientBuf) s) (live : s.Live)
    (quiescent : s.Quiescent) :
    (∀ (m : Nat) (e : Link UInt16), s.server.endpoint.links[m]? = some e → e.conn.reads ≠ [] →
      e.conn.eof = true →
      e.conn.isOpen = false ∧ s.server.endpoint.lookup e.map e.connId ≠ some m) ∧
    (∀ (n : Nat) (l : Link String), s.client.endpoint.links[n]? = some l → l.conn.eof = true →
      l.conn.isOpen = false ∧ s.client.endpoint.lookup l.map l.connId ≠ some n) ∧
    (Run step (fun _ a => a.socketFails = false) (start config serverBuf clientBuf) s →
      (∀ (m : Nat) (e : Link UInt16), s.server.endpoint.links[m]? = some e → e.conn.eof = false →
        e.conn.isOpen = true) ∧
      ∀ (n : Nat) (l : Link String), s.client.endpoint.links[n]? = some l → l.conn.eof = false →
        l.conn.isOpen = true) := by
  have reach : s.Reachable config := ⟨serverBuf, clientBuf, run⟩
  refine ⟨fun m e here read eof => ?_, fun n l here eof => ?_, fun calm => ⟨?_, ?_⟩⟩
  · have spawned : e.conn.reader ≠ .unspawned := fun new =>
      read ((reach.server.endpoint_ok.conns m e here).unread new)
    exact quiescent.server.endpoint.closed quiescent.server.drained
      (reach.server.detached live.server) reach.server.endpoint_ok
      (quiescent.server_free reach m) here spawned eof
  · have spawned : l.conn.reader ≠ .unspawned := by
      simpa [Link.waiting] using reach.client.spawned n l here
    exact quiescent.client.endpoint.closed quiescent.client.drained reach.client.detached
      reach.client.endpoint_ok (quiescent.client_free reach n) here spawned eof
  · exact fun m e here eof => (Server.sound_of_run (calm_server calm) live.server).open here eof
  · exact fun n l here eof => (Client.sound_of_run (calm_client calm) live.client).open here eof

theorem userLeaves_run : ∃ (s : Session) (e : Link UInt16) (l : Link String),
    Run step (fun _ a => a.socketFails = false) (start sshConfig 8 8) s ∧
    s.Live ∧ s.Quiescent ∧ s.server.endpoint.links = [e] ∧ s.client.endpoint.links = [l] ∧
    e.half = ⟨0, 0, [1], [], true, false⟩ ∧ l.half = ⟨0, 0, [], [1], false, true⟩ :=
  halves_of_exec (firstByte ++ externalEnds 0) (by decide)

theorem closing_user : ∃ (s : Session) (e : Link UInt16) (l : Link String),
    Run step (fun _ a => a.socketFails = false) (start sshConfig 8 8) s ∧ s.Quiescent ∧
    s.server.endpoint.links[0]? = some e ∧ s.client.endpoint.links[0]? = some l ∧
    e.conn.isOpen = false ∧ s.server.endpoint.lookup e.map e.connId ≠ some 0 ∧
    l.conn.isOpen = true := by
  obtain ⟨s, e, l, run, live, quiescent, here, there, half, half'⟩ := userLeaves_run
  have here : s.server.endpoint.links[0]? = some e := by simp [here]
  have there : s.client.endpoint.links[0]? = some l := by simp [there]
  have ok := (Server.Reachable.endpoint_ok ⟨8, (calm_server run).reach⟩).conns 0 e here
  have read := reads_of_half ok half (by simp)
  simp only [Link.half, Half.mk.injEq] at half half'
  obtain ⟨closed, -, open'⟩ := closing sshConfig 8 8 s run.reach live quiescent
  obtain ⟨finished, dropped⟩ := closed 0 e here read half.2.2.2.2.1
  exact ⟨s, e, l, run, quiescent, here, there, finished, dropped,
    (open' run).2 0 l there half'.2.2.2.2.1⟩

theorem left_open : ¬ ∀ (config : ConfigInfo) (serverBuf clientBuf : Nat) (s : Session),
    Reach step (start config serverBuf clientBuf) s → s.Live → s.Quiescent →
    ∀ (m n : Nat) (e : Link UInt16) (l : Link String), s.server.endpoint.links[m]? = some e →
      s.client.endpoint.links[n]? = some l → e.proxyId = l.proxyId → e.connId = l.connId →
      e.conn.reads ≠ [] → (e.conn.isOpen = true ↔ l.conn.isOpen = true) := by
  intro claim
  obtain ⟨s, e, l, run, live, quiescent, here, there, half, half'⟩ := userLeaves_run
  have here : s.server.endpoint.links[0]? = some e := by simp [here]
  have there : s.client.endpoint.links[0]? = some l := by simp [there]
  have ok := (Server.Reachable.endpoint_ok ⟨8, (calm_server run).reach⟩).conns 0 e here
  have read := reads_of_half ok half (by simp)
  simp only [Link.half, Half.mk.injEq] at half half'
  have both := claim sshConfig 8 8 s run.reach live quiescent 0 0 e l here there (half.1.trans half'.1.symm)
    (half.2.1.trans half'.2.1.symm) read
  simp [half, half'] at both

end Session

end Rfrp
