import Rfrp.Client.Registration
import Rfrp.Proto.Downstream
import Rfrp.Proto.Backpressure

/-!
# Forwarding Data frames

The client hands a payload to the internal connection of the frame's ids, opening one when none is
entered. A connection gets a subsequence of what was sent under its ids.
-/

namespace Rfrp.Client

open Transition Endpoint

variable {c c' : Client} {a : ClientAct} {config : List ClientInfo} {p : UInt32} {n m : Nat}

def hand (c : Client) : Option (Nat × Bytes) :=
  match c.main with
  | .forwarding n d _ => some (n, d.data)
  | _ => none

theorem undisturbed_of_finds (h : Finds c p m c') : Undisturbed c.endpoint c'.endpoint := by
  cases h with
  | cached => exact .refl _
  | known => exact .refl _
  | created => exact undisturbed_addMap

theorem Kept.lookup_of_finds (kept : c.Kept) (h : Finds c p m c') {k : Nat} {l : Link String}
    (here : c.endpoint.links[k]? = some l) (proxy : l.proxyId = p) :
    l.map = m ∧ ∀ connId, c'.endpoint.lookup m connId = c.endpoint.lookup m connId := by
  have entry := kept.links k l here
  rw [proxy] at entry
  cases h with
  | cached hit =>
      rw [kept.cache _ _ hit] at entry
      exact ⟨(Option.some.inj entry).symm, fun _ => rfl⟩
  | known known =>
      rw [known] at entry
      exact ⟨(Option.some.inj entry).symm, fun _ => rfl⟩
  | created new =>
      rw [new] at entry
      cases entry

theorem feeds_of_step (reach : c.Reachable config) (h : Moves c a c') :
    Feeds c.endpoint c.hand (dataOf c.received) c'.endpoint c'.hand (dataOf c'.received) := by
  obtain ⟨kept, holds⟩ := reach.kept
  have idle : Undisturbed c.endpoint c'.endpoint → c'.hand = c.hand →
      dataOf c'.received = dataOf c.received →
      Feeds c.endpoint c.hand (dataOf c.received) c'.endpoint c'.hand (dataOf c'.received) := by
    intro quiet hand frames
    rw [hand, frames]
    exact .idle quiet
  cases h with
  | recvAck main | recvLastAck main | recvReject main =>
      exact idle (.refl _) (by simp [hand, main]) (by simp)
  | recvStray => exact idle (.refl _) rfl (by simp)
  | @recvUnexpected i f main other =>
      simp only [Holds, main] at holds
      have before : c.hand = none := by simp [hand, main]
      cases f with
      | data d =>
          rw [before, dataOf_append, dataOf_data]
          exact .miss (.refl _) fun k l here => by simp [holds] at here
      | registerAck => cases other
      | _ => exact idle (.refl _) (by simp [hand, main]) (by simp)
  | recvOther _ other => exact idle (.refl _) rfl (by simp [dataOf, other])
  | @recvUnknown d main unknown =>
      have before : c.hand = none := by simp [hand, main]
      have after : hand { c with received := c.received ++ [.data d] } = none := before
      rw [before, after, dataOf_append, dataOf_data]
      refine .miss (.refl _) fun k l here proxy _ _ => ?_
      obtain ⟨client, known, -⟩ := kept.source k l here
      rw [proxy, unknown] at known
      cases known
  | @recvFast d client m n c' main known finds found =>
      have before : c.hand = none := by simp [hand, main]
      rw [before, dataOf_append, dataOf_data]
      have quiet := undisturbed_of_finds finds
      obtain ⟨l, here, map, conn⟩ := reach.mapped _ _ _ (quiet.fewer _ _ _ found)
      obtain ⟨kept', entry⟩ := kept.finds finds
      have links := (config_of_finds finds).2
      have proxy : l.proxyId = d.proxyId :=
        kept'.inj _ _ _ (map ▸ kept'.links n l (links ▸ here)) entry
      refine .route quiet here proxy conn ?_ ?_
      · rw [map, conn]
        exact quiet.fewer _ _ _ found
      · intro k l' here' proxy' conn' found'
        obtain ⟨map', same⟩ := kept.lookup_of_finds finds here' proxy'
        rw [map', conn', ← same, found] at found'
        exact (Option.some.inj found').symm
  | @recvNew d client m c' main known finds miss =>
      have before : c.hand = none := by simp [hand, main]
      rw [before, dataOf_append, dataOf_data]
      have quiet := undisturbed_of_finds finds
      refine .miss quiet fun k l here proxy conn found => ?_
      obtain ⟨map, same⟩ := kept.lookup_of_finds finds here proxy
      rw [map, conn, ← same, miss] at found
      cases found
  | giveUp main | registerErr main | refused main =>
      exact idle (.refl _) (by simp [hand, giveUp, main]) rfl
  | exit main => exact idle (.same rfl fun _ _ _ found => found) (by simp [hand, teardown, main]) rfl
  | register main _ sent => exact idle (undisturbed_enqueue sent) (by simp [hand, main]) rfl
  | connectedTwice main found =>
      simp only [Holds, main] at holds
      rw [holds.2.2] at found
      cases found
  | connected main =>
      have before : c.hand = none := by simp [hand, main]
      rw [before]
      exact .open rfl
  | forward main sent =>
      simp only [hand, main]
      exact .deliver sent
  | forwardErr main gone =>
      simp only [hand, main]
      exact .lose undisturbed_removeEntry gone
  | tick | pingErr | pingCancel => exact idle (.refl _) rfl rfl
  | ping _ sent => exact idle (undisturbed_enqueue sent) rfl rfl
  | endpoint move => exact idle (undisturbed_step move) rfl rfl

theorem step_grown (h : Moves c a c')
    (grown : c.endpoint.links.length < c'.endpoint.links.length) :
    ∃ client d m sndBuf, a = .connected sndBuf ∧ c.main = .connecting client d m ∧
      c'.main = .forwarding c.endpoint.links.length d m ∧ c'.received = c.received ∧
      c'.endpoint = c.endpoint.addLink client.addr d.proxyId d.connId m (Conn.fresh sndBuf).spawn := by
  cases h with
  | connected main => exact ⟨_, _, _, _, rfl, main, rfl, rfl, rfl⟩
  | recvFast _ _ finds | recvNew _ _ finds =>
      exact absurd grown (by simp [(config_of_finds finds).2])
  | endpoint move =>
      exact absurd grown (by simp [(undisturbed_step move).length])
  | register _ _ sent | ping _ sent =>
      obtain ⟨-, rfl⟩ := enqueue_eq_some sent
      exact absurd grown (Nat.lt_irrefl _)
  | forward _ sent =>
      obtain ⟨l, -, -, rfl⟩ := deliver_eq_some sent
      exact absurd grown (by simp)
  | _ => exact absurd grown (Nat.lt_irrefl _)

theorem new_conn (h : Moves c a c') {l : Link String}
    (new : c'.endpoint.links[c.endpoint.links.length]? = some l) :
    ∃ sndBuf, a = .connected sndBuf ∧ l.conn = (Conn.fresh sndBuf).spawn := by
  obtain ⟨client, d, m, sndBuf, act, -, -, -, endpoint⟩ := step_grown h (Slots.get_lt new)
  rw [endpoint] at new
  rcases Slots.get_append new with old | ⟨-, rfl⟩
  · exact absurd (Slots.get_lt old) (Nat.lt_irrefl _)
  · exact ⟨sndBuf, act, rfl⟩

theorem Reachable.capacity (reach : c.Reachable config) :
    c.endpoint.Each fun c => c.chan.queue.length ≤ channelCapacity := by
  refine reach.induct (P := fun c => c.endpoint.Each fun c => c.chan.queue.length ≤ channelCapacity)
    (fun sndBuf n l here => by simp [endpoint_start, Endpoint.spawn] at here) ?_
  intro c a c' before ih move
  refine ih.evolves (Conn.steady_capacity fun _ => True) (fun _ _ _ _ => trivial)
    (step_endpoint move) fun l new => ?_
  obtain ⟨sndBuf, -, fresh⟩ := new_conn move new
  rw [fresh]
  exact Nat.zero_le _

structure Opened (c : Client) : Prop where
  pending : ∀ client d m, c.main = .connecting client d m → d ∈ dataOf c.received
  links : ∀ (n : Nat) (l : Link String), c.endpoint.links[n]? = some l →
    ∃ d ∈ dataOf c.received, d.proxyId = l.proxyId ∧ d.connId = l.connId

theorem Opened.step (opened : c.Opened) (h : Moves c a c') : c'.Opened := by
  have more : ∀ d ∈ dataOf c.received, d ∈ dataOf c'.received :=
    (dataOf_isPrefix (received_isPrefix h)).subset
  constructor
  · intro client d m main'
    have kept : c'.main = c.main → d ∈ dataOf c'.received :=
      fun same => more d (opened.pending client d m (same ▸ main'))
    cases h with
    | recvNew => cases main'; simp
    | recvStray | recvOther | recvUnknown | tick | ping | pingErr | pingCancel | endpoint =>
        exact kept rfl
    | _ => cases main'
  · intro n l here
    rcases (step_endpoint h).link here with ⟨k, old, ident⟩ | rfl
    · obtain ⟨d, mem, proxy, conn⟩ := opened.links n k old
      simp only [Link.ident, Prod.mk.injEq] at ident
      exact ⟨d, more d mem, proxy.trans ident.2.1, conn.trans ident.2.2.1⟩
    · obtain ⟨client, d, m, sndBuf, -, main, -, -, endpoint⟩ := step_grown h (Slots.get_lt here)
      rw [endpoint] at here
      rcases Slots.get_append here with old | ⟨-, rfl⟩
      · exact absurd (Slots.get_lt old) (Nat.lt_irrefl _)
      · exact ⟨d, more d (opened.pending client d m main), rfl, rfl⟩

theorem Reachable.opened (reach : c.Reachable config) : c.Opened := by
  refine reach.induct (fun sndBuf => ⟨?_, ?_⟩) fun _ _ _ _ ih move => ih.step move
  · intro client d m main
    rcases main_start config sndBuf with ⟨-, start⟩ | ⟨-, start⟩ <;> rw [start] at main <;> cases main
  · intro n l here
    simp [endpoint_start, Endpoint.spawn] at here

theorem Reachable.hand_lt (reach : c.Reachable config) :
    ∀ n data, c.hand = some (n, data) → n < c.endpoint.links.length := by
  refine reach.induct (P := fun c => ∀ n data, c.hand = some (n, data) →
    n < c.endpoint.links.length) (fun sndBuf n data held => ?_)
    fun _ _ _ before ih move => (feeds_of_step before move).hand_lt ih
  rcases main_start config sndBuf with ⟨-, start⟩ | ⟨-, start⟩ <;> simp [hand, start] at held

theorem Reachable.downstream (reach : c.Reachable config) :
    c.endpoint.Downstream c.hand (dataOf c.received) := by
  refine reach.induct (P := fun c => c.endpoint.Downstream c.hand (dataOf c.received))
    (fun sndBuf n l here => by simp [endpoint_start, Endpoint.spawn] at here) ?_
  intro c a c' before ih move
  refine ih.feeds (feeds_of_step before move) fun l new => ?_
  obtain ⟨client, d, m, sndBuf, -, main, main', received, endpoint⟩ :=
    step_grown move (Slots.get_lt new)
  have pending := before.opened.pending client d m main
  rw [endpoint] at new
  obtain rfl := (Slots.get_append new).elim
    (fun old => absurd (Slots.get_lt old) (Nat.lt_irrefl _)) And.right
  simp only [hand, main', handFor_self, received, List.singleton_sublist, payloads, List.mem_map,
    List.mem_filter, decide_eq_true_eq]
  exact ⟨d, ⟨pending, rfl, rfl⟩, rfl⟩

/-! ## One connect for each connection -/

/-- A connect succeeds only for the first Data frame received under its ids. -/
def firstFrame (c : Client) (a : ClientAct) : Bool :=
  match a, c.main with
  | .connected _, .connecting _ d _ =>
      payloads d.proxyId d.connId (dataOf c.received) = [d.data]
  | _, _ => true

theorem payloads_of_first {client : ClientInfo} {d : DataInfo} {sndBuf : Nat}
    (first : c.firstFrame (.connected sndBuf) = true) (main : c.main = .connecting client d m) :
    payloads d.proxyId d.connId (dataOf c.received) = [d.data] := by
  simpa [firstFrame, main] using first

structure Single (c : Client) : Prop where
  unique : ∀ (n k : Nat) (l l' : Link String), c.endpoint.links[n]? = some l →
    c.endpoint.links[k]? = some l' → l.proxyId = l'.proxyId → l.connId = l'.connId → n = k
  later : ∀ (client : ClientInfo) (d : DataInfo) (m n : Nat) (l : Link String),
    c.main = .connecting client d m → c.endpoint.links[n]? = some l → l.proxyId = d.proxyId →
    l.connId = d.connId → 2 ≤ (payloads d.proxyId d.connId (dataOf c.received)).length

theorem Single.step (single : c.Single) (opened : c.Opened) (first : c.firstFrame a = true)
    (h : Moves c a c') : c'.Single := by
  have old : ∀ {n : Nat} {l : Link String}, c'.endpoint.links[n]? = some l →
      (∃ k, c.endpoint.links[n]? = some k ∧ k.proxyId = l.proxyId ∧ k.connId = l.connId) ∨
        n = c.endpoint.links.length := by
    intro n l here
    rcases (step_endpoint h).link here with ⟨k, found, ident⟩ | last
    · simp only [Link.ident, Prod.mk.injEq] at ident
      exact Or.inl ⟨k, found, ident.2.1, ident.2.2.1⟩
    · exact Or.inr last
  -- the new connection is alone with its ids
  have alone : ∀ {n : Nat} {k l' : Link String}, c.endpoint.links[n]? = some k →
      c'.endpoint.links[c.endpoint.links.length]? = some l' → k.proxyId = l'.proxyId →
      k.connId = l'.connId → False := by
    intro n k l' here new proxy conn
    obtain ⟨client, d, m, sndBuf, act, main, -, -, endpoint⟩ := step_grown h (Slots.get_lt new)
    rw [endpoint] at new
    obtain rfl := (Slots.get_append new).elim
      (fun old => absurd (Slots.get_lt old) (Nat.lt_irrefl _)) And.right
    have twice := single.later client d m n k main here proxy conn
    subst act
    rw [payloads_of_first first main] at twice
    simp at twice
  constructor
  · intro n k l l' here here' proxy conn
    rcases old here with ⟨u, found, p, c⟩ | rfl <;> rcases old here' with ⟨u', found', p', c'⟩ | rfl
    · exact single.unique n k u u' found found' (p.trans (proxy.trans p'.symm))
        (c.trans (conn.trans c'.symm))
    · exact (alone found here' (p.trans proxy) (c.trans conn)).elim
    · exact (alone found' here (p'.trans proxy.symm) (c'.trans conn.symm)).elim
    · rfl
  · intro client d m n l main' here proxy conn
    have still : c'.main = c.main → c'.received = c.received →
        2 ≤ (payloads d.proxyId d.connId (dataOf c'.received)).length := by
      intro main received
      rw [received]
      rcases old here with ⟨k, found, p, c⟩ | rfl
      · exact single.later client d m n k (main ▸ main') found (p.trans proxy) (c.trans conn)
      · obtain ⟨_, _, _, _, -, -, forwarding, -⟩ := step_grown h (Slots.get_lt here)
        rw [forwarding] at main'
        cases main'
    cases h with
    | recvNew main known finds =>
        cases main'
        have found : c.endpoint.links[n]? = some l := (config_of_finds finds).2 ▸ here
        obtain ⟨d', received, proxy', conn'⟩ := opened.links n l found
        have counted : d'.data ∈ payloads d.proxyId d.connId (dataOf c.received) :=
          List.mem_map.mpr ⟨d', List.mem_filter.mpr
            ⟨received, by simp [proxy', conn', proxy, conn]⟩, rfl⟩
        have some := List.length_pos_of_mem counted
        simp only [dataOf_append, dataOf_data, payloads_append, payloads_singleton, and_self,
          if_true, List.length_append, List.length_singleton]
        omega
    | recvStray main | recvOther main | recvUnknown main =>
        exact absurd (main.symm.trans main') (by simp)
    | tick | ping | pingErr | pingCancel | endpoint => exact still rfl rfl
    | _ => cases main'

theorem first_single {sndBuf : Nat} (run : Run step (fun c a => c.firstFrame a) (start config sndBuf) c) :
    c.Single := by
  refine run.induct ⟨?_, ?_⟩ fun t a u before ih first step =>
    ih.step (Reachable.opened ⟨sndBuf, before.reach⟩) first (moves_of_step step)
  · intro n k l l' here
    simp [endpoint_start, Endpoint.spawn] at here
  · intro client d m n l main here
    simp [endpoint_start, Endpoint.spawn] at here

theorem first_noGaps {sndBuf : Nat} (run : Run step (fun c a => c.firstFrame a) (start config sndBuf) c) :
    c.endpoint.NoGaps c.hand (dataOf c.received) := by
  refine run.induct (P := fun c => c.endpoint.NoGaps c.hand (dataOf c.received))
    (fun n l here => by simp [endpoint_start, Endpoint.spawn] at here) ?_
  intro t a u before ih first step
  have move := moves_of_step step
  refine ih.feeds (feeds_of_step ⟨sndBuf, before.reach⟩ move) fun l new => ?_
  obtain ⟨client, d, m, sndBuf, act, main, main', received, endpoint⟩ :=
    step_grown move (Slots.get_lt new)
  rw [endpoint] at new
  obtain rfl := (Slots.get_append new).elim
    (fun old => absurd (Slots.get_lt old) (Nat.lt_irrefl _)) And.right
  simp only [hand, main', handFor_self, received]
  subst act
  exact (payloads_of_first first main).symm

end Rfrp.Client
