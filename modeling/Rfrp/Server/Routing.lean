import Rfrp.Server.Answers
import Rfrp.Proto.Downstream
import Rfrp.Proto.Backpressure

/-!
# Routing Data frames

The server hands a payload to the external connection that its routing tables hold for the frame's
ids. Whatever the client sends, a connection gets a subsequence of what was sent under its ids; from
a client that only answers connections it knows of, it gets a prefix.
-/

namespace Rfrp.Server

open Transition Endpoint

variable {s s' : Server} {a : ServerAct} {n m : Nat} {l k : Link UInt16}

def hand (s : Server) : Option (Nat × Bytes) :=
  match s.main with
  | .routing n data => some (n, data)
  | _ => none

theorem Reachable.link_proxy (reach : s.Reachable) (here : s.endpoint.links[n]? = some l) :
    l.proxyId = UInt32.ofNat l.map ∧ l.map < s.tasks.length := by
  obtain ⟨t, task, proxy, -⟩ := reach.accepted.task n l here
  exact ⟨proxy.trans (reach.booked.task _ t task).1, Slots.get_lt task⟩

theorem Reachable.map_eq (reach : s.Reachable) {p : UInt32} (hn : s.endpoint.links[n]? = some l)
    (hp : l.proxyId = p) (bound : m < s.tasks.length) (hm : p = UInt32.ofNat m) : l.map = m := by
  obtain ⟨proxy, less⟩ := reach.link_proxy hn
  have count := reach.booked.count
  exact ofNat_inj (by omega) (by omega) (proxy.symm.trans (hp.trans hm))

theorem Reachable.same_map (reach : s.Reachable) (hn : s.endpoint.links[n]? = some l)
    (hm : s.endpoint.links[m]? = some k) (same : l.proxyId = k.proxyId) : l.map = k.map := by
  obtain ⟨proxy, less⟩ := reach.link_proxy hm
  exact reach.map_eq hn same less proxy

theorem Reachable.routingFor_link (reach : s.Reachable) (running : s.running = true)
    (here : s.endpoint.links[n]? = some l) : (s.routingFor l.proxyId).1 = some l.map := by
  obtain ⟨proxy, bound⟩ := reach.link_proxy here
  rw [(reach.booked.routingFor _).1, proxy]
  exact reach.booked.routed running _ bound

theorem Reachable.routed_link (reach : s.Reachable) {d : DataInfo} {t : Nat}
    (table : (s.routingFor d.proxyId).1 = some t) (found : s.endpoint.lookup t d.connId = some n) :
    ∃ l, s.endpoint.links[n]? = some l ∧ l.proxyId = d.proxyId ∧ l.connId = d.connId ∧
      l.map = t := by
  obtain ⟨l, here, map, conn⟩ := reach.mapped _ _ _ found
  obtain ⟨-, id⟩ := reach.booked.routing d.proxyId t ((reach.booked.routingFor _).1 ▸ table)
  exact ⟨l, here, by rw [(reach.link_proxy here).1, map, id], conn, map⟩

theorem feeds_of_step (reach : s.Reachable) (h : Moves s a s') :
    Feeds s.endpoint s.hand (dataOf s.received) s'.endpoint s'.hand (dataOf s'.received) := by
  have idle : Undisturbed s.endpoint s'.endpoint → s'.hand = s.hand →
      dataOf s'.received = dataOf s.received →
      Feeds s.endpoint s.hand (dataOf s.received) s'.endpoint s'.hand (dataOf s'.received) := by
    intro quiet hand frames
    rw [hand, frames]
    exact .idle quiet
  cases h with
  | recvLimit main | recvPing main =>
      exact idle (.refl _) (by simp [hand, main]) (by simp)
  | recvOther main _ data => exact idle (.refl _) rfl (by simp [dataOf, data])
  | recvRegister main => exact idle undisturbed_addMap rfl (by simp)
  | @recvRouted d t n main entry found =>
      obtain ⟨l, here, proxy, conn, map⟩ := reach.routed_link entry found
      have before : s.hand = none := by simp [hand, main]
      rw [before, dataOf_append, dataOf_data]
      refine .route (.refl _) here proxy conn (by rw [map, conn]; exact found) ?_
      intro k l' here' proxy' conn' found'
      rw [conn', reach.same_map here' here (proxy'.trans proxy.symm), map, found] at found'
      exact (Option.some.inj found').symm
  | @recvUnrouted d main miss =>
      have before : s.hand = none := by simp [hand, main]
      have after : hand { s with
          received := s.received ++ [.data d]
          cachedRouting := (s.routingFor d.proxyId).2 } = none := before
      rw [before, after, dataOf_append, dataOf_data]
      refine .miss (.refl _) ?_
      intro k l' here' proxy conn found
      have running : s.running = true := by simp [running, main]
      rw [← proxy, reach.routingFor_link running here', Option.bind_some, ← conn, found] at miss
      cases miss
  | exit main | pongErr main | replyErr main =>
      exact idle (.refl _) (by simp [hand, teardown, main]) rfl
  | reply frame sent =>
      refine idle (undisturbed_enqueue sent) ?_ rfl
      rcases replyFrame_eq_some frame with ⟨client, main, -⟩ | ⟨main, -⟩ <;> simp [hand, main]
  | route main sent =>
      simp only [hand, main]
      exact .deliver sent
  | routeErr main gone =>
      simp only [hand, main]
      exact .lose (.refl _) gone
  | connect | bind | answerErr | cancel => exact idle (.refl _) rfl rfl
  | answer _ _ sent => exact idle (undisturbed_enqueue sent) rfl rfl
  | accept => exact .add rfl
  | acquire here pc link =>
      obtain ⟨k, found, -, waiting⟩ := reach.accepted.waits _ _ _ here pc
      rw [link] at found
      cases found
      have unspawned := (reach.endpoint_ok.conns _ _ link).spawned.mp
        (by simpa [Link.waiting] using waiting)
      refine idle (.setLink link ?_ ?_) rfl rfl
      · rfl
      · simp [unspawned]
  | cancelWaiting _ _ _ link =>
      refine idle (.setLink link ?_ ?_) rfl rfl
      · rfl
      · exact fun _ => rfl
  | endpoint move => exact idle (undisturbed_step move) rfl rfl

theorem Reachable.hand_lt (reach : s.Reachable) :
    ∀ n data, s.hand = some (n, data) → n < s.endpoint.links.length :=
  reach.induct (P := fun s => ∀ n data, s.hand = some (n, data) → n < s.endpoint.links.length)
    (fun _ _ _ h => by simp [start, hand] at h)
    fun _ _ _ before ih move => (feeds_of_step before move).hand_lt ih

theorem step_grown (h : Moves s a s')
    (grown : s.endpoint.links.length < s'.endpoint.links.length) :
    ∃ r t sndBuf, a = .accept r sndBuf ∧ s.tasks[r]? = some t ∧ s' = s.acceptConn r t sndBuf := by
  cases h with
  | accept here => exact ⟨_, _, _, rfl, here, rfl⟩
  | endpoint move =>
      exact absurd grown (by simp [(undisturbed_step move).length])
  | reply _ sent | answer _ _ sent =>
      obtain ⟨-, rfl⟩ := enqueue_eq_some sent
      exact absurd grown (Nat.lt_irrefl _)
  | route _ sent =>
      obtain ⟨l, -, -, rfl⟩ := deliver_eq_some sent
      exact absurd grown (by simp)
  | acquire | cancelWaiting => exact absurd grown (by simp [setTask])
  | _ => exact absurd grown (Nat.lt_irrefl _)

theorem new_conn (h : Moves s a s') (new : s'.endpoint.links[s.endpoint.links.length]? = some l) :
    ∃ r sndBuf, a = .accept r sndBuf ∧ l.conn = .fresh sndBuf := by
  obtain ⟨r, t, sndBuf, act, -, rfl⟩ := step_grown h (Slots.get_lt new)
  rcases Slots.get_append new with old | ⟨-, rfl⟩
  · exact absurd (Slots.get_lt old) (Nat.lt_irrefl _)
  · exact ⟨r, sndBuf, act, rfl⟩

theorem Reachable.capacity (reach : s.Reachable) :
    s.endpoint.Each fun c => c.chan.queue.length ≤ channelCapacity := by
  refine reach.induct (P := fun s => s.endpoint.Each fun c => c.chan.queue.length ≤ channelCapacity)
    (fun _ _ _ h => by simp [start, Endpoint.spawn] at h) ?_
  intro s a s' before ih move
  refine ih.evolves (Conn.steady_capacity fun _ => True) (fun _ _ _ _ => trivial)
    (step_endpoint before move) fun l new => ?_
  obtain ⟨r, sndBuf, -, fresh⟩ := new_conn move new
  rw [fresh]
  exact Nat.zero_le _

theorem hand_new (reach : s.Reachable) (h : Moves s a s')
    (grown : s.endpoint.links.length < s'.endpoint.links.length) :
    handFor s'.hand s.endpoint.links.length = [] := by
  have held := reach.hand_lt
  obtain ⟨r, t, sndBuf, -, -, rfl⟩ := step_grown h grown
  have same : (s.acceptConn r t sndBuf).hand = s.hand := rfl
  rw [same]
  cases hand : s.hand with
  | none => rfl
  | some entry => exact handFor_ne (Nat.ne_of_gt (held entry.1 entry.2 hand)) entry.2

theorem Reachable.downstream (reach : s.Reachable) :
    s.endpoint.Downstream s.hand (dataOf s.received) := by
  refine reach.induct (P := fun s => s.endpoint.Downstream s.hand (dataOf s.received))
    (fun _ _ _ h => by simp [start, Endpoint.spawn] at h) ?_
  intro s a s' before ih move
  refine ih.feeds (feeds_of_step before move) fun l new => ?_
  rw [hand_new before move (Slots.get_lt new)]
  exact List.nil_sublist _

/-! ## Clients that answer -/

/-- The client sends data only under the ids of a connection that exists. -/
def Polite (s : Server) (a : ServerAct) : Prop :=
  ∀ d, a = .recv (.data d) →
    ∃ l ∈ s.endpoint.links, l.proxyId = d.proxyId ∧ l.connId = d.connId

theorem polite_owned {sndBuf : Nat} (run : Run step Polite (start sndBuf) s) :
    ∀ d ∈ dataOf s.received,
      ∃ l ∈ s.endpoint.links, l.proxyId = d.proxyId ∧ l.connId = d.connId := by
  refine run.induct (P := fun s => ∀ d ∈ dataOf s.received,
    ∃ l ∈ s.endpoint.links, l.proxyId = d.proxyId ∧ l.connId = d.connId)
    (fun _ h => by simp [start] at h) ?_
  intro s a s' before ih polite step d mem
  have reach : s.Reachable := ⟨sndBuf, before.reach⟩
  have persists : (∃ l ∈ s.endpoint.links, l.proxyId = d.proxyId ∧ l.connId = d.connId) →
      ∃ l ∈ s'.endpoint.links, l.proxyId = d.proxyId ∧ l.connId = d.connId := by
    rintro ⟨l, mem, proxy, conn⟩
    obtain ⟨n, here⟩ := List.mem_iff_getElem?.mp mem
    obtain ⟨l', here', ident⟩ := (step_endpoint reach (moves_of_step step)).persists here
    simp only [Link.ident, Prod.mk.injEq] at ident
    exact ⟨l', List.mem_of_getElem? here', ident.2.1.trans proxy, ident.2.2.1.trans conn⟩
  rcases step_received (moves_of_step step) with same | ⟨f, rfl, eq⟩
  · exact persists (ih d (same ▸ mem))
  · rw [eq, dataOf_append] at mem
    rcases List.mem_append.mp mem with old | new
    · exact persists (ih d old)
    · cases f with
      | data d' =>
          obtain rfl := List.mem_singleton.mp new
          exact persists (polite d rfl)
      | _ => simp at new

theorem accepted_mono (reach : s.Reachable) (h : Moves s a s') (r : Nat) :
    s.accepted r ≤ s'.accepted r := by
  have grown := ((step_endpoint reach h).ident_isPrefix.map
    fun i : UInt16 × UInt32 × UInt64 × Nat => i.2.2.2).sublist.count_le r
  simpa [Server.accepted, Link.ident, Function.comp_def] using grown

theorem polite_noGaps {sndBuf : Nat} (run : Run step Polite (start sndBuf) s)
    (few : ∀ r, s.accepted r < 2 ^ 64) : s.endpoint.NoGaps s.hand (dataOf s.received) := by
  refine run.induct (P := fun s => (∀ r, s.accepted r < 2 ^ 64) →
    s.endpoint.NoGaps s.hand (dataOf s.received))
    (fun _ _ _ h => by simp [start, Endpoint.spawn] at h) ?_ few
  intro s a s' before ih polite step few
  have reach : s.Reachable := ⟨sndBuf, before.reach⟩
  have move := moves_of_step step
  have after : s'.Reachable := ⟨sndBuf, (before.tail polite step).reach⟩
  have less := fun r => Nat.lt_of_le_of_lt (accepted_mono reach move r) (few r)
  refine (ih less).feeds (feeds_of_step reach move) fun l new => ?_
  rw [hand_new reach move (Slots.get_lt new)]
  -- nothing was received under the ids of a connection before it was accepted
  refine (List.eq_nil_iff_forall_not_mem.mpr fun data mem => ?_).symm
  obtain ⟨d, listed, -⟩ := List.mem_map.mp mem
  obtain ⟨received, ids⟩ := List.mem_filter.mp listed
  simp only [decide_eq_true_eq] at ids
  obtain ⟨r, t, sndBuf, -, -, rfl⟩ := step_grown move (Slots.get_lt new)
  obtain ⟨k, old, proxy, conn⟩ := polite_owned before d received
  obtain ⟨n, here⟩ := List.mem_iff_getElem?.mp old
  obtain ⟨k', here', ident⟩ := (step_endpoint reach move).persists here
  simp only [Link.ident, Prod.mk.injEq] at ident
  have map := after.same_map here' new (ident.2.1.trans (proxy.trans ids.1))
  have same := after.accepted.unique new here' (few _) map
    (ident.2.2.1.trans (conn.trans ids.2))
  exact absurd same (Nat.ne_of_lt (Slots.get_lt here))

end Rfrp.Server
