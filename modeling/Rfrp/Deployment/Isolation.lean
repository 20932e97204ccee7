import Rfrp.Deployment.Sessions
import Rfrp.Session.Isolation

/-!
# Isolation in a deployment

Whatever other client processes and other programs are connected, however often a process has
reconnected and whatever tasks its earlier calls have left in its heap: an internal service hears
users of the port that its own process registered for it, and a user hears that service. No two
listeners of the server process share a port.
-/

namespace Rfrp

open Transition Naming

namespace Deployment

variable {d : Deployment} {i p k n m : Nat}

/-- No listener has accepted so often that its ids start over. -/
def Few (d : Deployment) : Prop :=
  ∀ (i : Nat) (s : Server) (r : Nat), d.host.serverAt i = some s → s.accepted r < 2 ^ 64

/-- The service behind an internal connection, and the user it speaks with. -/
theorem Reachable.hears (reach : d.Reachable) (few : d.Few) {process : ClientProcess}
    {l : Link String} {captured : Captured} (here : d.processes[p]? = some process)
    (opened : process.loop.links[n]? = some l)
    (caught : process.loop.captured[n]? = some captured) :
    ∃ (i m : Nat) (s : Server) (e : Link UInt16) (client : ClientInfo) (chunks : List Bytes),
      d.peers[i]? = some (.call p captured.call) ∧ d.host.serverAt i = some s ∧
      s.endpoint.links[m]? = some e ∧ e.proxyId = l.proxyId ∧ e.connId = l.connId ∧
      client ∈ process.config.clientProxy ∧
      l.info = formatAddr client.proxyIp client.proxyPort ∧ e.info = client.bindPort ∧
      chunks.Sublist e.conn.reads ∧ l.conn.outbound.log <+: chunks.flatten := by
  have bound := ((reach.sound.apart here).caught n captured caught).2
  obtain ⟨i, s, c, there, has, hosts, session⟩ := reach.session here bound
  obtain ⟨call, w, ls, ms, standing⟩ := hosts
  obtain ⟨n₀, named⟩ := Names.of_mem ((standing.links n).mpr ⟨captured, caught, rfl⟩)
  obtain ⟨l₀, own, same⟩ := standing.hosted.heap.links.get named opened
  obtain ⟨m, e, user, proxy, conn⟩ := session.external own
  obtain ⟨client, mem, info, port⟩ := session.entry own user proxy
  refine ⟨i, m, s, e, client, l₀.conn.chan.received, there, has, user, proxy.trans same.proxyId,
    conn.trans same.connId, mem, same.info ▸ info, port, ?_, ?_⟩
  · have crossed := (payloads_isPrefix l₀.proxyId l₀.connId session.data_toClient).sublist
    have read := (session.queued_isPrefix (fun r => few i s r has) user).sublist
    rw [proxy, conn] at read
    exact ((session.client.downstream.received own).trans crossed).trans read
  · rw [← same.conn]
    exact (List.prefix_append _ _).trans (session.client.endpoint_ok.conns n₀ l₀ own).handed

/-- What reaches a user was read from internal connections of that call, under the ids of the user. -/
theorem Reachable.answers (reach : d.Reachable) {s : Server} {e : Link UInt16}
    {process : ClientProcess} (there : d.peers[i]? = some (.call p k))
    (here : d.processes[p]? = some process) (has : d.host.serverAt i = some s)
    (user : s.endpoint.links[m]? = some e) :
    ∃ chunks : List (Nat × Bytes),
      (∀ x ∈ chunks, process.loop.opened k x.1 ∧ ∃ l, process.loop.links[x.1]? = some l ∧
        l.proxyId = e.proxyId ∧ l.connId = e.connId) ∧
      (∀ (n : Nat) (l : Link String), process.loop.links[n]? = some l → process.loop.opened k n →
        ((chunks.filter fun x => x.1 = n).map Prod.snd).Sublist l.conn.reads) ∧
      e.conn.outbound.log <+: (chunks.map Prod.snd).flatten := by
  obtain ⟨process', t, c, found, has', hosts, session⟩ := reach.sound.joined i _ there
  rw [here] at found
  cases found
  obtain rfl := Option.some.inj (has.symm.trans has')
  obtain ⟨call, w, ls, ms, standing⟩ := hosts
  obtain ⟨origin, up⟩ := session.client.upstream
  have crossed := (payloads_isPrefix e.proxyId e.connId session.data_toServer).sublist
  obtain ⟨chunks, whole, owned, read⟩ :=
    up.tagged ((session.server.downstream.received user).trans crossed)
  have embeds := standing.hosted.heap.links
  have known : ∀ x ∈ chunks, ∃ n', Names ls x.1 n' := by
    intro x mem
    obtain ⟨l, own, -⟩ := owned x mem
    exact embeds.names own
  refine ⟨chunks.map (addressed ls), ?_, ?_, ?_⟩
  · intro y mem
    obtain ⟨x, held, rfl⟩ := List.mem_map.mp mem
    obtain ⟨l, own, proxy, conn⟩ := owned x held
    obtain ⟨n', named⟩ := embeds.names own
    obtain ⟨l', opened, same⟩ := embeds.get_own named own
    rw [addressed_fst named]
    exact ⟨(standing.links n').mp named.mem, l', opened, same.proxyId.symm.trans proxy,
      same.connId.symm.trans conn⟩
  · intro n' l' opened mine
    obtain ⟨n, named⟩ := Names.of_mem ((standing.links n').mpr mine)
    obtain ⟨l, own, same⟩ := embeds.get named opened
    rw [filter_addressed embeds.distinct known named, ← same.conn]
    exact read n l own
  · rw [List.map_map]
    show e.conn.outbound.log <+: (chunks.map Prod.snd).flatten
    rw [whole]
    exact (List.prefix_append _ _).trans (session.server.endpoint_ok.conns m e user).handed

theorem tunnels_apart (d : Deployment) (reach : d.Reachable)
    (few : ∀ (i : Nat) (s : Server) (r : Nat), d.host.serverAt i = some s → s.accepted r < 2 ^ 64) :
    (∀ (p n : Nat) (process : ClientProcess) (l : Link String) (captured : Captured),
      d.processes[p]? = some process → process.loop.links[n]? = some l →
      process.loop.captured[n]? = some captured →
      ∃ (i m : Nat) (s : Server) (e : Link UInt16) (client : ClientInfo) (chunks : List Bytes),
        d.peers[i]? = some (.call p captured.call) ∧ d.host.serverAt i = some s ∧
        s.endpoint.links[m]? = some e ∧ e.proxyId = l.proxyId ∧ e.connId = l.connId ∧
        client ∈ process.config.clientProxy ∧
        l.info = formatAddr client.proxyIp client.proxyPort ∧ e.info = client.bindPort ∧
        chunks.Sublist e.conn.reads ∧ l.conn.outbound.log <+: chunks.flatten) ∧
    (∀ (i p k m : Nat) (s : Server) (e : Link UInt16) (process : ClientProcess),
      d.peers[i]? = some (.call p k) → d.processes[p]? = some process →
      d.host.serverAt i = some s → s.endpoint.links[m]? = some e →
      ∃ chunks : List (Nat × Bytes),
        (∀ x ∈ chunks, process.loop.opened k x.1 ∧ ∃ l, process.loop.links[x.1]? = some l ∧
          l.proxyId = e.proxyId ∧ l.connId = e.connId) ∧
        (∀ (n : Nat) (l : Link String), process.loop.links[n]? = some l →
          process.loop.opened k n →
          ((chunks.filter fun x => x.1 = n).map Prod.snd).Sublist l.conn.reads) ∧
        e.conn.outbound.log <+: (chunks.map Prod.snd).flatten) ∧
    ∀ (i j r q : Nat) (s t : Server) (port : UInt16), d.host.serverAt i = some s →
      s.listens r port → d.host.serverAt j = some t → t.listens q port → i = j ∧ r = q := by
  refine ⟨?_, ?_, ?_⟩
  · intro p n process l captured here opened caught
    exact reach.hears few here opened caught
  · intro i p k m s e process there here has user
    exact reach.answers there here has user
  · intro i j r q s t port has listens has' listens'
    obtain ⟨client, here, server⟩ := Option.bind_eq_some_iff.mp has
    obtain ⟨other, here', server'⟩ := Option.bind_eq_some_iff.mp has'
    exact reach.sound.host.exclusive.apart i j r q client other s t port here server listens here'
      server' listens'

theorem tunnels_apart_twoProcesses : ∃ (d : Deployment) (i k m : Nat) (s : Server) (e : Link UInt16)
    (chunks : List Bytes), d.Reachable ∧ d.peers[i]? = some (.call 1 k) ∧
    d.host.serverAt i = some s ∧ s.endpoint.links[m]? = some e ∧ e.info = 22002 ∧
    chunks.Sublist e.conn.reads ∧ [1] <+: chunks.flatten := by
  have view : (exec step (start serverConfig) twoProcesses).map (fun d =>
      (d.host.clients.all fun client => client.server?.all fun s => s.endpoint.links.length ≤ 1,
        d.processes[1]?.map fun process => (process.config.clientProxy.map ClientInfo.bindPort,
          process.loop.links[0]?.map fun l => l.conn.outbound.log))) =
      some (true, some ([22002], some [1])) := by decide +kernel
  obtain ⟨d, run, view⟩ := Option.map_eq_some_iff.mp view
  obtain ⟨small, view⟩ := Prod.mk.inj view
  obtain ⟨process, here, view⟩ := Option.map_eq_some_iff.mp view
  obtain ⟨ports, link⟩ := Prod.mk.inj view
  obtain ⟨l, opened, wrote⟩ := Option.map_eq_some_iff.mp link
  have reach : d.Reachable := ⟨serverConfig, by decide +kernel, reach_of_exec _ run⟩
  have few : d.Few := by
    intro i s r has
    obtain ⟨client, here, server⟩ := Option.bind_eq_some_iff.mp has
    have one := List.all_eq_true.mp small client (List.mem_of_getElem? here)
    rw [server] at one
    exact Nat.lt_of_le_of_lt (Nat.le_trans (s.accepted_le r) (of_decide_eq_true one)) (by decide)
  have bound : 0 < process.loop.captured.length := by
    rw [(reach.sound.apart here).captured]
    exact Slots.get_lt opened
  obtain ⟨captured, caught⟩ : ∃ captured, process.loop.captured[0]? = some captured :=
    ⟨_, List.getElem?_eq_getElem bound⟩
  obtain ⟨hears, -, -⟩ := tunnels_apart d reach few
  obtain ⟨i, m, s, e, client, chunks, there, has, user, -, -, mem, -, port, read, log⟩ :=
    hears 1 0 process l captured here opened caught
  have web : client.bindPort = 22002 := by
    have mem := List.mem_map_of_mem (f := ClientInfo.bindPort) mem
    rw [ports] at mem
    exact List.mem_singleton.mp mem
  exact ⟨d, i, _, m, s, e, chunks, reach, there, has, user, port.trans web, read, wrote ▸ log⟩

end Deployment

end Rfrp
