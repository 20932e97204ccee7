import Rfrp.Session.Agreement
import Rfrp.Server.Routing
import Rfrp.Client.Forwarding

/-!
# End-to-end isolation

An internal connection belongs to the one external connection with its ids: it was opened to the
address of the configuration entry whose port that connection was accepted on, what is written to
it was read there, and the other way round.
-/

namespace Rfrp

open Transition

namespace Session

variable {s s' : Session} {config : ConfigInfo} {n m : Nat}

def Few (s : Session) : Prop := ∀ r, s.server.accepted r < 2 ^ 64

theorem few_of_length (count : s.server.endpoint.links.length < 2 ^ 64) : s.Few :=
  fun r => Nat.lt_of_le_of_lt (s.server.accepted_le r) count

theorem Reachable.external_unique (reach : s.Reachable config) (few : s.Few)
    {e e' : Link UInt16} {k : Nat} (here : s.server.endpoint.links[m]? = some e)
    (here' : s.server.endpoint.links[k]? = some e') (proxy : e'.proxyId = e.proxyId)
    (conn : e'.connId = e.connId) : k = m :=
  reach.server.accepted.unique here here' (few _) (reach.server.same_map here' here proxy) conn

theorem Reachable.external_of_data (reach : s.Reachable config) {d : DataInfo}
    (queued : d ∈ dataOf s.server.endpoint.tunnel.chan.log) :
    ∃ (m : Nat) (e : Link UInt16), s.server.endpoint.links[m]? = some e ∧
      e.proxyId = d.proxyId ∧ e.connId = d.connId := by
  obtain ⟨origin, up⟩ := reach.server.upstream
  rw [up.frames] at queued
  obtain ⟨x, mem, rfl⟩ := List.mem_map.mp queued
  obtain ⟨e, here, proxy, conn⟩ := up.ids x mem
  exact ⟨x.1, e, here, proxy, conn⟩

theorem Reachable.external (reach : s.Reachable config) {l : Link String}
    (here : s.client.endpoint.links[n]? = some l) :
    ∃ (m : Nat) (e : Link UInt16), s.server.endpoint.links[m]? = some e ∧
      e.proxyId = l.proxyId ∧ e.connId = l.connId := by
  obtain ⟨d, received, proxy, conn⟩ := reach.client.opened.links n l here
  obtain ⟨m, e, found, proxy', conn'⟩ :=
    reach.external_of_data (reach.data_toClient.subset received)
  exact ⟨m, e, found, proxy'.trans proxy, conn'.trans conn⟩

theorem Reachable.entry (reach : s.Reachable config) {l : Link String} {e : Link UInt16}
    (here : s.client.endpoint.links[n]? = some l) (there : s.server.endpoint.links[m]? = some e)
    (proxy : e.proxyId = l.proxyId) :
    ∃ client ∈ config.clientProxy, l.info = formatAddr client.proxyIp client.proxyPort ∧
      e.info = client.bindPort := by
  obtain ⟨client, known, info⟩ := reach.client.kept.1.source n l here
  obtain ⟨i, -, entry, -⟩ := reach.client.registered.configs _ client known
  obtain ⟨client', mem, rfl⟩ := List.mem_map.mp (List.mem_of_getElem? entry)
  obtain ⟨r, t, task, id, configured, -⟩ := reach.configured known
  obtain ⟨t', task', proxy', port⟩ := reach.server.accepted.task m e there
  -- the two tasks have the same id, so they are the same
  have first := reach.server.booked.task r t task
  have second := reach.server.booked.task _ t' task'
  have same : r = e.map := by
    have count := reach.server.booked.count
    have hr := Slots.get_lt task
    have he := Slots.get_lt task'
    refine Server.ofNat_inj (by omega) (by omega) ?_
    rw [← first.1, ← second.1, ← proxy', proxy, id]
  rw [← same, task] at task'
  cases task'
  exact ⟨client', mem, info, by rw [port, configured]; rfl⟩

theorem Reachable.queued_isPrefix (reach : s.Reachable config) (few : s.Few) {e : Link UInt16}
    (here : s.server.endpoint.links[m]? = some e) :
    payloads e.proxyId e.connId (dataOf s.server.endpoint.tunnel.chan.log) <+: e.conn.reads := by
  obtain ⟨origin, up⟩ := reach.server.upstream
  rw [up.payloads_eq here fun k e' found => reach.external_unique few here found]
  exact (List.prefix_append _ _).trans (up.reads m e here)

theorem isolation (config : ConfigInfo) (serverBuf clientBuf : Nat) (s : Session)
    (run : Reach step (start config serverBuf clientBuf) s)
    (few : ∀ r, s.server.accepted r < 2 ^ 64) :
    (∀ (n : Nat) (l : Link String), s.client.endpoint.links[n]? = some l →
      ∃ (m : Nat) (e : Link UInt16), s.server.endpoint.links[m]? = some e ∧
        e.proxyId = l.proxyId ∧ e.connId = l.connId ∧
        (∃ client ∈ config.clientProxy, l.info = formatAddr client.proxyIp client.proxyPort ∧
          e.info = client.bindPort) ∧
        ∃ chunks : List Bytes, chunks.Sublist e.conn.reads ∧
          l.conn.written ++ l.conn.inWrite <+: chunks ∧
          l.conn.outbound.log <+: chunks.flatten) ∧
    (∀ (m : Nat) (e : Link UInt16), s.server.endpoint.links[m]? = some e →
      (∀ (k : Nat) (e' : Link UInt16), s.server.endpoint.links[k]? = some e' →
        e'.proxyId = e.proxyId → e'.connId = e.connId → k = m) ∧
      ∃ chunks : List (Nat × Bytes),
        (∀ x ∈ chunks, ∃ l, s.client.endpoint.links[x.1]? = some l ∧ l.proxyId = e.proxyId ∧
          l.connId = e.connId) ∧
        (∀ (n : Nat) (l : Link String), s.client.endpoint.links[n]? = some l →
          ((chunks.filter fun x => x.1 = n).map Prod.snd).Sublist l.conn.reads) ∧
        e.conn.written ++ e.conn.inWrite <+: chunks.map Prod.snd ∧
        e.conn.outbound.log <+: (chunks.map Prod.snd).flatten) := by
  have reach : s.Reachable config := ⟨serverBuf, clientBuf, run⟩
  constructor
  · intro n l here
    obtain ⟨m, e, there, proxy, conn⟩ := reach.external here
    have ok := reach.client.endpoint_ok.conns n l here
    refine ⟨m, e, there, proxy, conn, reach.entry here there proxy, l.conn.chan.received, ?_,
      ok.written, (List.prefix_append _ _).trans ok.handed⟩
    have crossed := (payloads_isPrefix l.proxyId l.connId reach.data_toClient).sublist
    have read := (reach.queued_isPrefix few there).sublist
    rw [proxy, conn] at read
    exact ((reach.client.downstream.received here).trans crossed).trans read
  · intro m e here
    refine ⟨fun k e' there => reach.external_unique few here there, ?_⟩
    obtain ⟨origin, up⟩ := reach.client.upstream
    have crossed := (payloads_isPrefix e.proxyId e.connId reach.data_toServer).sublist
    obtain ⟨chunks, whole, owned, read⟩ :=
      up.tagged ((reach.server.downstream.received here).trans crossed)
    have ok := reach.server.endpoint_ok.conns m e here
    refine ⟨chunks, owned, read, ?_, ?_⟩
    · rw [whole]
      exact ok.written
    · rw [whole]
      exact (List.prefix_append _ _).trans ok.handed

theorem isolation_firstByte : ∃ (s : Session) (l : Link String) (e : Link UInt16),
    Reach step (start sshConfig 8 8) s ∧ s.client.endpoint.links[0]? = some l ∧
    s.server.endpoint.links[0]? = some e ∧ l.info = "127.0.0.1:22" ∧ e.info = 22001 ∧
    l.conn.outbound.log = [1] ∧
    ∃ chunks : List Bytes, chunks.Sublist e.conn.reads ∧
      l.conn.outbound.log <+: chunks.flatten := by
  have view : (exec step (start sshConfig 8 8) firstByte).map (fun s =>
      (s.server.endpoint.links.length, s.client.endpoint.links.map fun l => l.conn.outbound.log)) =
      some (1, [[1]]) := by decide
  obtain ⟨s, run, view⟩ := Option.map_eq_some_iff.mp view
  simp only [Prod.mk.injEq] at view
  obtain ⟨one, wrote⟩ := view
  obtain ⟨l, rest, there, wrote, -⟩ := List.map_eq_cons_iff.mp wrote
  have there : s.client.endpoint.links[0]? = some l := by simp [there]
  have run := reach_of_exec _ run
  obtain ⟨upstream, -⟩ := isolation sshConfig 8 8 s run (few_of_length (by omega))
  obtain ⟨m, e, here, -, -, ⟨client, mem, info, port⟩, chunks, read, -, log⟩ := upstream 0 l there
  obtain rfl : m = 0 := by
    have bound := Slots.get_lt here
    omega
  obtain rfl := List.mem_singleton.mp mem
  exact ⟨s, l, e, run, there, here, info, port, wrote, chunks, read, log⟩

end Session

end Rfrp
