import Rfrp.Session.Wires

/-!
# Registration agreement

The client pairs answers with its entries by position; the server answers from tasks that run in
any order. They agree because the client never has two Registers open: the server has received at
most one that it has not answered, so its answers are in the order of the Registers.
-/

namespace Rfrp

open Transition

theorem prefix_snoc_of_subperm {α : Type*} {xs ys : List α} {x : α} (pre : xs <+: ys)
    (covered : (xs ++ [x]).Subperm ys) (few : ys.length ≤ xs.length + 1) : xs ++ [x] <+: ys := by
  obtain ⟨rest, rfl⟩ := pre
  have fits := covered.length_le
  simp only [List.length_append, List.length_singleton] at fits few
  obtain ⟨y, rfl⟩ := List.length_eq_one_iff.mp (show rest.length = 1 by omega)
  have perm := covered.perm_of_length_le (by simp)
  have last := (List.perm_append_left_iff xs).mp perm
  rw [List.singleton_perm_singleton.mp last]

namespace Session

variable {s s' : Session} {a : SessionAct} {config : ConfigInfo}

section counts
variable (reach : s.Reachable config)
include reach

theorem Reachable.one_open : (registersOf s.server.received).length ≤
    (acksOf s.server.endpoint.tunnel.chan.log).length + 1 := by
  have sent := reach.registers_toServer.length_le
  have pace := reach.client.registered.pace
  have answered := reach.acks_toClient.length_le
  simp only [List.length_map] at sent answered
  omega

theorem Reachable.acks_le : (acksOf s.server.endpoint.tunnel.chan.log).length ≤
    config.init.clientProxy.length := by
  have covered := reach.server.acks_subperm.length_le
  have sent := reach.registers_toServer.length_le
  have all := reach.client.registered.sent.length_le
  simp only [List.length_map] at covered sent
  omega

end counts

def Ordered (s : Session) : Prop :=
  (acksOf s.server.endpoint.tunnel.chan.log).map RegisterResponse.client <+:
    registersOf s.server.received

theorem Ordered.step (ordered : s.Ordered) (before : s.Reachable config)
    (after : s'.Reachable config) {b : ServerAct} (h : Server.Moves s.server b s'.server) :
    s'.Ordered := by
  obtain ⟨fs, queues, log⟩ := Server.queues_of_step h
  have received : s.server.received <+: s'.server.received := by
    rcases Server.step_received h with same | ⟨f, -, eq⟩
    · rw [same]
    · rw [eq]
      exact List.prefix_append _ _
  have answer : ∀ {response : RegisterResponse}, fs = [.registerAck response] →
      s'.server.received = s.server.received → s'.Ordered := by
    intro response only same
    have covered := after.server.acks_subperm
    have one := before.one_open
    unfold Ordered at ordered ⊢
    rw [log, only, same, acksOf_append, acksOf_registerAck, List.map_append,
      List.map_singleton] at *
    exact prefix_snoc_of_subperm ordered covered (by simpa using one)
  have keep : acksOf fs = [] → s'.Ordered := by
    intro none
    unfold Ordered at ordered ⊢
    rw [log, acksOf_append, none, List.append_nil]
    exact ordered.trans (registersOf_isPrefix received)
  have same : (∀ f, b ≠ .recv f) → s'.server.received = s.server.received := by
    intro other
    rcases Server.step_received h with same | ⟨f, eq, -⟩
    · exact same
    · exact absurd eq (other f)
  cases queues with
  | nothing => exact keep rfl
  | data => exact keep (by simp [RfrpFrame.newDataFrame])
  | reply frame =>
      rcases Server.replyFrame_eq_some frame with ⟨client, -, rfl⟩ | ⟨-, rfl⟩
      · exact answer rfl (same (by simp))
      · exact keep (by simp [RfrpFrame.newPongFrame])
  | answer _ move =>
      rcases RegTask.answer_eq_some move with ⟨-, rfl, -⟩ | ⟨-, rfl, -⟩ <;>
        exact answer rfl (same (by simp))

theorem Reachable.ordered (reach : s.Reachable config) : s.Ordered := by
  refine reach.induct (P := Ordered) (fun _ _ => List.nil_prefix) fun s a s' before after ih move => ?_
  rcases move.sides.1 with same | ⟨b, step⟩
  · unfold Ordered
    rw [same]
    exact ih
  · exact ih.step before after (Server.moves_of_step step)

theorem Reachable.ack (reach : s.Reachable config) {i : Nat} {ack : RegisterResponse}
    (received : (acksOf s.client.received)[i]? = some ack) :
    ∃ b, (acksOf s.server.endpoint.tunnel.chan.log)[i]? = some b ∧
      { b with client := b.client.skipAddr } = ack := by
  have queued := Slots.get_isPrefix reach.acks_toClient received
  rwa [List.getElem?_map, Option.map_eq_some_iff] at queued

theorem Reachable.answer (reach : s.Reachable config) {i : Nat} {ack : RegisterResponse}
    {client : ClientInfo} (entry : config.init.clientProxy[i]? = some client)
    (received : (acksOf s.client.received)[i]? = some ack) :
    ∃ b ∈ acksOf s.server.endpoint.tunnel.chan.log, b.success = ack.success ∧
      b.proxyId = ack.proxyId ∧ b.client = client.skipAddr := by
  obtain ⟨b, here, rfl⟩ := reach.ack received
  have request : (registersOf s.server.received)[i]? = some b.client :=
    Slots.get_isPrefix reach.ordered (by simp [here])
  have sent := Slots.get_isPrefix reach.registers_toServer request
  have configured := Slots.get_isPrefix (reach.client.registered.sent.map ClientInfo.skipAddr) sent
  rw [List.getElem?_map, entry, Option.map_some, Option.some.injEq] at configured
  exact ⟨b, List.mem_of_getElem? here, rfl, rfl, configured.symm⟩

theorem Reachable.configured (reach : s.Reachable config) {p : UInt32} {client : ClientInfo}
    (entry : s.client.proxyConfigs p = some client) :
    ∃ (r : Nat) (t : RegTask), s.server.tasks[r]? = some t ∧ t.proxyId = p ∧
      t.clientInfo = client.skipAddr ∧ (s.server.running = true → t.serving = true) := by
  obtain ⟨i, ack, here, received, success, id⟩ := reach.client.registered.configs p client entry
  obtain ⟨b, queued, success', id', info⟩ := reach.answer here received
  obtain ⟨r, t, task, p', client', -, serving⟩ :=
    reach.server.acked.task b queued (success'.trans success)
  exact ⟨r, t, task, p'.trans (id'.trans id), client'.trans info, serving⟩

theorem Reachable.known (reach : s.Reachable config) (forwarding : s.client.forwarding = true)
    {d : DataInfo} (coming : .data d ∈ s.server.endpoint.tunnel.wire.queue) :
    (s.client.proxyConfigs d.proxyId).isSome := by
  obtain ⟨before, after, queue⟩ := List.append_of_mem coming
  have wire : s.server.endpoint.tunnel.wire.log =
      (s.server.endpoint.tunnel.wire.received ++ before) ++ .data d :: after := by
    rw [← Fifo.received_append_queue, queue, List.append_assoc]
  obtain ⟨rest, chan⟩ := reach.server.endpoint_ok.tunnel.wire_isPrefix
  rw [wire, List.append_assoc, List.cons_append] at chan
  obtain ⟨ack, mem, success, id⟩ := reach.server.acked.first _ _ _ chan.symm
  have queued : ack ∈ acksOf s.server.endpoint.tunnel.chan.log := by
    rw [← chan, acksOf_append]
    exact List.mem_append_left _ mem
  -- all answers ever queued were received in the registration phase
  obtain ⟨-, acks, length, first, known⟩ :=
    (Client.stage_iff forwarding).mp reach.client.registered.stage
  have prefixed := (acksOf_isPrefix first).trans reach.acks_toClient
  rw [acksOf_map_registerAck] at prefixed
  have all := prefixed.eq_of_length_le (by simpa [length] using reach.acks_le)
  have here : ({ ack with client := ack.client.skipAddr } : RegisterResponse) ∈ acks := by
    rw [all]
    exact List.mem_map.mpr ⟨ack, queued, rfl⟩
  rw [← id]
  exact (known _ here).2

/-- Answers are at most one for each Register and each task, success answers have distinct ids and
a bound listener with its routing table, and they precede the data of their proxies, for any
client. Against the real client, `proxy_configs` holds the server's ids and covers all data. -/
theorem registration_agreement :
    (∀ sndBuf labels server, exec Server.step (.start sndBuf) labels = some server →
      ((acksOf server.endpoint.tunnel.chan.log).map RegisterResponse.client).Subperm
          (registersOf server.received) ∧
        (∀ r, labels.count (.answer r) ≤ 1) ∧
        (((acksOf server.endpoint.tunnel.chan.log).filter RegisterResponse.success).map
          RegisterResponse.proxyId).Nodup ∧
        ((acksOf server.endpoint.tunnel.chan.log).filter RegisterResponse.success).length ≤ 16 ∧
        (server.running = true → ∀ ack ∈ acksOf server.endpoint.tunnel.chan.log,
          ack.success = true → ∃ (r : Nat) (t : RegTask), server.tasks[r]? = some t ∧
            t.clientInfo = ack.client ∧ t.proxyId = ack.proxyId ∧ t.bound = true ∧
            server.proxyRouting ack.proxyId = some t.routing) ∧
        (∀ before d after, server.endpoint.tunnel.chan.log = before ++ .data d :: after →
          ∃ ack ∈ acksOf before, ack.success = true ∧ ack.proxyId = d.proxyId)) ∧
    (∀ config serverBuf clientBuf s, Reach step (start config serverBuf clientBuf) s →
      (∀ p client, s.client.proxyConfigs p = some client →
        client ∈ config.init.clientProxy ∧
        ∃ (r : Nat) (t : RegTask), s.server.tasks[r]? = some t ∧ t.proxyId = p ∧
          t.clientInfo.bindPort = client.bindPort ∧ (s.server.running = true → t.bound = true)) ∧
      (s.client.forwarding = true → ∀ d, .data d ∈ s.server.endpoint.tunnel.wire.queue →
        (s.client.proxyConfigs d.proxyId).isSome)) := by
  have bound : ∀ t : RegTask, t.serving = true → t.bound = true := by
    intro t serving
    unfold RegTask.serving at serving
    unfold RegTask.bound
    cases pc : t.pc <;> simp_all
  constructor
  · intro sndBuf labels server run
    have reach : server.Reachable := ⟨sndBuf, reach_of_exec labels run⟩
    refine ⟨reach.acks_subperm, Server.exec_answers run, reach.acked.ids, reach.successes_le, ?_,
      reach.acked.first⟩
    intro running ack queued success
    obtain ⟨r, t, task, id, client, -, serving⟩ := reach.acked.task ack queued success
    obtain ⟨proxy, routing⟩ := reach.booked.task r t task
    refine ⟨r, t, task, client, id, bound t (serving running), ?_⟩
    rw [← id, proxy, routing]
    exact reach.booked.routed running r (Slots.get_lt task)
  · intro config serverBuf clientBuf s run
    have reach : s.Reachable config := ⟨serverBuf, clientBuf, run⟩
    refine ⟨fun p client entry => ?_, fun forwarding d => reach.known forwarding⟩
    obtain ⟨i, -, here, -⟩ := reach.client.registered.configs p client entry
    obtain ⟨r, t, task, id, info, serving⟩ := reach.configured entry
    exact ⟨List.mem_of_getElem? here, r, t, task, id, by simp [info],
      fun running => bound t (serving running)⟩

end Session

end Rfrp
