import Rfrp.Session.Isolation

/-!
# One internal stream per external connection

The client has no memory of a connection whose map entry is gone: the next Data frame under its ids
opens a fresh one, in the middle of the stream. Where every successful connect answers the first
frame of its ids, there is one internal connection and it gets a prefix of what the user sent.
-/

namespace Rfrp

open Transition

namespace Session

variable {s s' : Session} {a : SessionAct} {config : ConfigInfo}

/-- At most one internal connection was opened under any ids, and what was written to it is a
prefix of what the server has read from the external connection with these ids. -/
def OneStream (s : Session) : Prop :=
  (∀ (n k : Nat) (l l' : Link String), s.client.endpoint.links[n]? = some l →
    s.client.endpoint.links[k]? = some l' → l.proxyId = l'.proxyId → l.connId = l'.connId →
    n = k) ∧
  ∀ (n m : Nat) (l : Link String) (e : Link UInt16), s.client.endpoint.links[n]? = some l →
    s.server.endpoint.links[m]? = some e → e.proxyId = l.proxyId → e.connId = l.connId →
    l.conn.outbound.log <+: e.conn.inbound.received

/-- A connect succeeds only while the client handles the first Data frame it has received under
the frame's ids. -/
def firstFrame (s : Session) (a : SessionAct) : Bool :=
  match a with
  | .client b => s.client.firstFrame b
  | _ => true

theorem first_client {serverBuf clientBuf : Nat}
    (run : Run step (fun s a => s.firstFrame a) (start config serverBuf clientBuf) s) :
    Run Client.step (fun c a => c.firstFrame a) (.start config.init.clientProxy clientBuf)
      s.client := by
  refine run.simulate Session.client fun s a t first move => ?_
  cases moves_of_step move with
  | server => exact Run.refl _
  | client _ forward => exact (Run.refl _).tail first forward
  | toServer _ read => exact (Run.refl _).tail rfl read
  | toClient _ _ recv => exact (Run.refl _).tail rfl recv

theorem one_stream (config : ConfigInfo) (serverBuf clientBuf : Nat) (s : Session)
    (run : Run step (fun s a => s.firstFrame a) (start config serverBuf clientBuf) s)
    (few : ∀ r, s.server.accepted r < 2 ^ 64) : s.OneStream := by
  have reach : s.Reachable config := ⟨serverBuf, clientBuf, run.reach⟩
  have clientRun := first_client run
  refine ⟨(Client.first_single clientRun).unique, ?_⟩
  intro n m l e here there proxy conn
  have ok := reach.client.endpoint_ok.conns n l here
  have handed : l.conn.outbound.log <+: l.conn.chan.log.flatten :=
    ((List.prefix_append _ _).trans ok.handed).trans (Fifo.received_isPrefix _).flatten
  have sent := (Client.first_noGaps clientRun n l here).1.flatten
  have crossed := (payloads_isPrefix l.proxyId l.connId reach.data_toClient).flatten
  have read := (reach.queued_isPrefix few there).flatten
  rw [proxy, conn, (reach.server.endpoint_ok.conns m e there).reads_eq] at read
  exact ((handed.trans sent).trans crossed).trans read

def streams (s : Session) : Nat × List (UInt32 × UInt64 × Bytes) :=
  (s.server.endpoint.links.length,
    s.client.endpoint.links.map fun l => (l.proxyId, l.connId, l.conn.outbound.log))

def wholeStream : List SessionAct :=
  registers 0 ++ accepts 0 8 ++ userSends 0 [1, 2] ++ serverSends ++
    [.client (.connected 8), .client .forward] ++ internalWrites 0 2 ++ userSends 0 [3] ++
    serverSends ++ [.client .forward] ++ internalWrites 0 1

theorem wholeStream_streams :
    (exec (guarded step fun s a => s.firstFrame a) (start sshConfig 8 8) wholeStream).map streams =
      some (1, [(0, 0, [1, 2, 3])]) := by
  decide

theorem one_stream_whole : ∃ s, Run step (fun s a => s.firstFrame a) (start sshConfig 8 8) s ∧
    streams s = (1, [(0, 0, [1, 2, 3])]) ∧ s.OneStream := by
  obtain ⟨s, run, view⟩ := Option.map_eq_some_iff.mp wholeStream_streams
  have external : s.server.endpoint.links.length = 1 := congrArg Prod.fst view
  exact ⟨s, run_of_exec _ run, view,
    one_stream sshConfig 8 8 s (run_of_exec _ run) (few_of_length (by omega))⟩

def splitStream : List SessionAct :=
  registers 0 ++ accepts 0 8 ++ userSends 0 [1, 2] ++ serverSends ++
    [.client (.connected 8), .client .forward] ++ internalWrites 0 2 ++ internalCloses 0 ++
    userSends 0 [3] ++ serverSends ++ [.client (.connected 8), .client .forward] ++
    internalWrites 1 1

theorem splitStream_streams : (exec step (start sshConfig 8 8) splitStream).map streams =
    some (1, [(0, 0, [1, 2]), (0, 0, [3])]) := by
  decide

theorem stream_split :
    ¬ ∀ (config : ConfigInfo) (serverBuf clientBuf : Nat) (s : Session),
      Reach step (start config serverBuf clientBuf) s →
      (∀ r, s.server.accepted r < 2 ^ 64) → s.OneStream := by
  intro claim
  obtain ⟨s, run, view⟩ := Option.map_eq_some_iff.mp splitStream_streams
  simp only [streams, Prod.mk.injEq] at view
  obtain ⟨external, internal⟩ := view
  have few : s.Few := few_of_length (by omega)
  have first := congrArg (fun ls => ls[0]?) internal
  have second := congrArg (fun ls => ls[1]?) internal
  simp only [List.getElem?_map, List.getElem?_cons_zero, List.getElem?_cons_succ,
    Option.map_eq_some_iff, Prod.mk.injEq] at first second
  obtain ⟨l, here, proxy, conn, -⟩ := first
  obtain ⟨l', here', proxy', conn', -⟩ := second
  have := (claim sshConfig 8 8 s (reach_of_exec _ run) few).1 0 1 l l' here here'
    (proxy.trans proxy'.symm) (conn.trans conn'.symm)
  cases this

end Session

end Rfrp
