import Rfrp.Client.Quiescence

/-!
# Cleanup of internal connections

The maps of internal connections are keyed by `conn_id` alone, and two tasks remove from them by
key. The main loop removes the connection it failed to send to. A read task that ends removes
whatever is there, which is its own connection as long as none was opened under its ids before.
-/

namespace Rfrp

variable {τ : Type}

/-- Both tasks are in their loops. -/
def Conn.normal (c : Conn) : Bool :=
  (c.reader matches .reading | .sending _) && !(c.writer matches .unspawned | .closing | .done)

theorem Conn.normal_of_step {c c' : Conn} {senders : Bool} {a : ConnAct}
    (h : c.step senders a = some c') (normal : c'.normal = true) : c.normal = true := by
  cases moves_of_step h with
  | readEof | readErr | recvNone | writeErr | closeDone | closeErr => simp [Conn.normal] at normal
  | read before | recv before | writeDone before | testEmpty before | testMore before
  | flushDone before | flushErr before => simp_all [Conn.normal]
  | _ => exact normal

theorem Link.attached_of_normal {l : Link τ} (normal : l.conn.normal = true) :
    l.attached = true := by
  unfold Conn.normal at normal
  unfold Link.attached
  cases reader : l.conn.reader <;> simp_all

namespace Endpoint

variable {o : Owners} {e e' : Endpoint τ} {a : EndpointAct} {n m : Nat} {l l' : Link τ}

structure Stored (e : Endpoint τ) : Prop where
  alone : ∀ (n k : Nat) (l l' : Link τ), e.links[n]? = some l → e.links[k]? = some l' →
    l.map = l'.map → l.connId = l'.connId → l.attached = true → l'.attached = true → n = k
  found : ∀ (n : Nat) (l : Link τ), e.links[n]? = some l → l.conn.normal = true →
    e.lookup l.map l.connId = some n

theorem stored_spawn (sndBuf : Nat) : (spawn sndBuf : Endpoint τ).Stored :=
  ⟨fun _ _ _ _ here => by simp [spawn] at here, fun _ _ here => by simp [spawn] at here⟩

theorem alone_set {links : List (Link τ)}
    (alone : ∀ (n k : Nat) (l l' : Link τ), links[n]? = some l → links[k]? = some l' →
      l.map = l'.map → l.connId = l'.connId → l.attached = true → l'.attached = true → n = k)
    (here : links[n]? = some l) (ident : l'.ident = l.ident)
    (attached : l'.attached = true → l.attached = true) :
    ∀ (i k : Nat) (u u' : Link τ), (links.set n l')[i]? = some u → (links.set n l')[k]? = some u' →
      u.map = u'.map → u.connId = u'.connId → u.attached = true → u'.attached = true → i = k := by
  have old : ∀ (i : Nat) (u : Link τ), (links.set n l')[i]? = some u → u.attached = true →
      ∃ v, links[i]? = some v ∧ v.ident = u.ident ∧ v.attached = true := by
    intro i u found there
    rcases Slots.get_set found with ⟨rfl, rfl⟩ | ⟨-, found⟩
    · exact ⟨l, here, ident.symm, attached there⟩
    · exact ⟨u, found, rfl, there⟩
  intro i k u u' hu hu' map connId there there'
  obtain ⟨v, hv, same, live⟩ := old i u hu there
  obtain ⟨v', hv', same', live'⟩ := old k u' hu' there'
  simp only [Link.ident, Prod.mk.injEq] at same same'
  apply alone i k v v' hv hv' _ _ live live'
  · rw [same.2.2.2, same'.2.2.2, map]
  · rw [same.2.2.1, same'.2.2.1, connId]

theorem Stored.setLink (stored : e.Stored) (tunnel : FrameWriter) (here : e.links[n]? = some l)
    (ident : l'.ident = l.ident) (attached : l'.attached = true → l.attached = true)
    (normal : l'.conn.normal = true → l.conn.normal = true) :
    ({ e with tunnel }.setLink n l').Stored := by
  refine ⟨alone_set stored.alone here ident attached, ?_⟩
  intro k u found live
  rcases Slots.get_set found with ⟨rfl, rfl⟩ | ⟨-, found⟩
  · simp only [Link.ident, Prod.mk.injEq] at ident
    rw [ident.2.2.1, ident.2.2.2]
    exact stored.found _ l here (normal live)
  · exact stored.found k u found live

theorem Stored.removeEntry (stored : e.Stored) {c : UInt64}
    (finished : ∀ (n : Nat) (l : Link τ), e.links[n]? = some l → l.map = m → l.connId = c →
      l.conn.normal = false) :
    ({ e with maps := e.maps.modify m fun map => map.remove c } : Endpoint τ).Stored := by
  refine ⟨stored.alone, ?_⟩
  intro n l here live
  refine (lookup_modify fun map _ => DashMap.remove_ne fun connId => ?_).trans
    (stored.found n l here live)
  rw [finished n l here map connId] at live
  cases live

theorem Stored.step (stored : e.Stored) (h : e.step o a = some e') : e'.Stored := by
  cases moves_of_step h with
  | writer => exact ⟨stored.alone, stored.found⟩
  | conn here move =>
      exact stored.setLink e.tunnel here rfl (attached_of_step move) (Conn.normal_of_step move)
  | @sendData n l data _ here hand =>
      refine stored.setLink _ here rfl (fun _ => by simp [Link.attached, hand]) fun live => ?_
      simpa [Conn.normal, Link.setReader, hand] using live
  | @sendDataErr n l data here hand =>
      refine stored.setLink e.tunnel here rfl (fun _ => by simp [Link.attached, hand]) fun live => ?_
      simp [Conn.normal, Link.setReader] at live
  | @remove n l here left =>
      have there : l.attached = true := by simp [Link.attached, left]
      have removed : ({ e with maps := e.maps.modify l.map fun map => map.remove l.connId } :
          Endpoint τ).Stored := by
        apply stored.removeEntry
        intro k u found map connId
        by_contra live
        have same := stored.alone k n u l found here map connId
          (Link.attached_of_normal (by simpa using live)) there
        subst same
        cases here.symm.trans found
        simp [Conn.normal, left] at live
      refine removed.setLink e.tunnel here rfl (fun there => ?_) fun live => ?_
      · simp [Link.attached, Link.setReader] at there
      · simp [Conn.normal, Link.setReader] at live
  | finish here =>
      refine stored.setLink e.tunnel here rfl (fun there => ?_) fun live => ?_
      · simp [Link.attached, Link.setReader] at there
      · simp [Conn.normal, Link.setReader] at live

theorem Stored.addLink (stored : e.Stored) {info : τ} {p : UInt32} {c : UInt64} {conn : Conn}
    (bound : m < e.maps.length)
    (fresh : ∀ (n : Nat) (l : Link τ), e.links[n]? = some l → l.map = m → l.connId = c →
      l.attached = false) : (e.addLink info p c m conn).Stored := by
  constructor
  · intro n k l l' here here' map connId there there'
    rcases Slots.get_append here with old | ⟨rfl, rfl⟩ <;>
      rcases Slots.get_append here' with old' | ⟨rfl, rfl⟩
    · exact stored.alone n k l l' old old' map connId there there'
    · rw [fresh n l old map connId] at there
      cases there
    · rw [fresh k l' old' map.symm connId.symm] at there'
      cases there'
    · rfl
  · intro n l here live
    rcases Slots.get_append here with old | ⟨rfl, rfl⟩
    · refine (lookup_modify fun map _ => DashMap.insert_ne fun connId => ?_).trans
        (stored.found n l old live)
      have there := Link.attached_of_normal live
      rw [fresh n l old map connId] at there
      cases there
    · simp [Endpoint.lookup, Endpoint.addLink, bound]

end Endpoint

namespace Client

open Transition Endpoint

variable {c c' : Client} {a : ClientAct} {config : List ClientInfo}

/-- No connect succeeds under ids of which an earlier connection is still to be cleaned up. -/
def cleanIds (c : Client) (a : ClientAct) : Bool :=
  match a, c.main with
  | .connected _, .connecting _ d _ => c.endpoint.links.all fun l =>
      !(l.proxyId = d.proxyId ∧ l.connId = d.connId) || !l.attached
  | _, _ => true

def Aims (c : Client) : Prop :=
  ∀ n d m, c.main = .forwarding n d m → ∀ k, c.endpoint.lookup m d.connId = some k → k = n

theorem Aims.step (aims : c.Aims) (h : Moves c a c') : c'.Aims := by
  have idle : c'.main = c.main →
      (∀ m k n, c'.endpoint.lookup m k = some n → c.endpoint.lookup m k = some n) → c'.Aims := by
    intro main fewer n d m held k entry
    exact aims n d m (main ▸ held) k (fewer _ _ _ entry)
  intro n d m held k entry
  cases h with
  | recvFast _ _ _ found =>
      cases held
      exact Option.some.inj (entry.symm.trans found)
  | connectedTwice _ found =>
      cases held
      exact Option.some.inj (entry.symm.trans found)
  | connected _ miss =>
      cases held
      rcases lookup_addLink entry with ⟨-, -, last⟩ | ⟨other, -⟩
      · exact last
      · exact absurd ⟨rfl, rfl⟩ other
  | recvStray | recvOther | recvUnknown | tick | pingErr | pingCancel =>
      exact idle rfl (fun _ _ _ found => found) n d m held k entry
  | ping _ sent =>
      obtain ⟨-, rfl⟩ := enqueue_eq_some sent
      exact idle rfl (fun _ _ _ found => found) n d m held k entry
  | endpoint move => exact idle rfl (step_lookup move) n d m held k entry
  | _ => cases held

theorem Reachable.aims (reach : c.Reachable config) : c.Aims := by
  refine reach.induct (fun sndBuf n d m main => ?_) fun _ _ _ _ ih move => ih.step move
  rcases main_start config sndBuf with ⟨-, start⟩ | ⟨-, start⟩ <;> rw [start] at main <;> cases main

theorem fresh_of_cleanIds (reach : c.Reachable config) {sndBuf : Nat}
    (clean : c.cleanIds (.connected sndBuf) = true) {client : ClientInfo} {d : DataInfo} {m : Nat}
    (main : c.main = .connecting client d m) {n : Nat} {l : Link String}
    (here : c.endpoint.links[n]? = some l) (map : l.map = m) (connId : l.connId = d.connId) :
    l.attached = false := by
  obtain ⟨kept, holds⟩ := reach.kept
  simp only [Holds, main] at holds
  have proxy : l.proxyId = d.proxyId := by
    have entry := kept.links n l here
    rw [map] at entry
    exact kept.inj _ _ _ entry holds.1
  simp only [cleanIds, main, List.all_eq_true] at clean
  simpa [proxy, connId] using clean l (List.mem_of_getElem? here)

theorem stored_of_step (reach : c.Reachable config) (stored : c.endpoint.Stored)
    (clean : c.cleanIds a = true) (h : Moves c a c') : c'.endpoint.Stored := by
  cases h with
  | recvFast _ _ finds | recvNew _ _ finds =>
      cases finds with
      | created =>
          refine ⟨stored.alone, fun n l here live => ?_⟩
          obtain ⟨map, known, entry⟩ := Option.bind_eq_some_iff.mp (stored.found n l here live)
          exact Option.bind_eq_some_iff.mpr ⟨map, Slots.get_append_left known, entry⟩
      | _ => exact stored
  | register _ _ sent | ping _ sent =>
      obtain ⟨-, rfl⟩ := enqueue_eq_some sent
      exact ⟨stored.alone, stored.found⟩
  | exit => exact ⟨stored.alone, stored.found⟩
  | connected main =>
      obtain ⟨kept, holds⟩ := reach.kept
      simp only [Holds, main] at holds
      refine stored.addLink (kept.conns _ _ holds.1) fun n l here map connId => ?_
      exact fresh_of_cleanIds reach clean main here map connId
  | forward _ sent =>
      obtain ⟨l, here, -, rfl⟩ := deliver_eq_some sent
      exact stored.setLink c.endpoint.tunnel here rfl id id
  | @forwardErr n m d main gone =>
      apply stored.removeEntry
      intro k l here map connId
      by_contra live
      have entry := stored.found k l here (by simpa using live)
      rw [map, connId] at entry
      obtain rfl := reach.aims n d m main k entry
      simp only [undeliverable, here, Conn.closed, decide_eq_true_eq] at gone
      simp [Conn.normal, gone] at live
  | endpoint move => exact stored.step move
  | _ => exact stored

theorem removed_by (reach : c.Reachable config) (stored : c.endpoint.Stored) (h : Moves c a c')
    {m n : Nat} {k : UInt64} (entry : c.endpoint.lookup m k = some n)
    (removed : c'.endpoint.lookup m k ≠ some n) :
    a = .endpoint (.remove n) ∨
      (a = .forwardErr ∧ c.hand.map Prod.fst = some n ∧ c.endpoint.undeliverable n = true) := by
  cases h with
  | recvFast _ _ finds | recvNew _ _ finds =>
      cases finds with
      | created =>
          obtain ⟨map, known, found⟩ := Option.bind_eq_some_iff.mp entry
          refine absurd ?_ removed
          exact Option.bind_eq_some_iff.mpr ⟨map, Slots.get_append_left known, found⟩
      | _ => exact absurd entry removed
  | register _ _ sent | ping _ sent =>
      obtain ⟨-, rfl⟩ := enqueue_eq_some sent
      exact absurd entry removed
  | forward _ sent =>
      obtain ⟨l, here, -, rfl⟩ := deliver_eq_some sent
      exact absurd entry removed
  | connected _ miss =>
      refine absurd ((lookup_modify fun same map => DashMap.insert_ne fun id => ?_).trans entry)
        removed
      rw [same, id, miss] at entry
      cases entry
  | @forwardErr n' m' d main gone =>
      by_cases same : m = m' ∧ k = d.connId
      · obtain ⟨rfl, rfl⟩ := same
        obtain rfl := reach.aims n' d m main n entry
        exact Or.inr ⟨rfl, by simp [hand, main], gone⟩
      · exact absurd ((lookup_modify fun map _ => DashMap.remove_ne fun id => same ⟨map, id⟩).trans
          entry) removed
  | endpoint move =>
      cases Endpoint.moves_of_step move with
      | @remove n' l here left =>
          by_cases same : m = l.map ∧ k = l.connId
          · obtain ⟨u, found, map, connId⟩ := reach.mapped m k n entry
            have live : u.attached = true := by
              by_contra gone
              apply reach.detached n u found (by simpa using gone)
              rw [map, connId]
              exact entry
            have there : l.attached = true := by simp [Link.attached, left]
            have eq := stored.alone n n' u l found here (map.trans same.1) (connId.trans same.2)
              live there
            exact Or.inl (by rw [eq])
          · refine absurd ?_ removed
            exact (lookup_modify fun map _ => DashMap.remove_ne fun id => same ⟨map, id⟩).trans entry
      | _ => exact absurd entry removed
  | _ => exact absurd entry removed

theorem stored_of_run {sndBuf : Nat}
    (run : Run step (fun c a => c.cleanIds a) (start config sndBuf) c) : c.endpoint.Stored := by
  apply run.induct
  · rw [endpoint_start]
    exact stored_spawn sndBuf
  · intro t a u before ih clean step
    exact stored_of_step ⟨sndBuf, before.reach⟩ ih clean (moves_of_step step)

/-- Where no connect succeeds before the cleanup of the connections it succeeds, a connection in
its loops is stored under its id, and every removal is of the remover's own connection. -/
theorem cleanup_own (config : List ClientInfo) (sndBuf : Nat) (c : Client)
    (run : Run step (fun c a => c.cleanIds a) (start config sndBuf) c) :
    (∀ (n : Nat) (l : Link String), c.endpoint.links[n]? = some l → l.conn.normal = true →
      c.endpoint.lookup l.map l.connId = some n) ∧
    ∀ a c', c.step a = some c' → ∀ m k n, c.endpoint.lookup m k = some n →
      c'.endpoint.lookup m k ≠ some n →
        a = .endpoint (.remove n) ∨
          (a = .forwardErr ∧ c.hand.map Prod.fst = some n ∧ c.endpoint.undeliverable n = true) := by
  have stored := stored_of_run run
  refine ⟨stored.found, ?_⟩
  intro a c' step m k n entry removed
  exact removed_by ⟨sndBuf, run.reach⟩ stored (moves_of_step step) entry removed

/-! ## A connection reopened -/

def sshEntry : ClientInfo := ⟨"ssh", 22001, "127.0.0.1", 22, "tcp", ""⟩

def writerFails : List ClientAct :=
  [.register, .endpoint (.writer .recv), .endpoint (.writer .sent),
    .recv (.newRegAckFrame sshEntry true 0), .recv (.data ⟨1, 0, [1]⟩), .connected 8, .forward,
    .endpoint (.conn 0 .recv), .endpoint (.conn 0 (.writeErr 0)), .endpoint (.conn 0 .closeErr),
    .recv (.data ⟨1, 0, [2]⟩), .forwardErr]

def readerEnds : List ClientAct :=
  [.endpoint (.conn 0 .peerShutdown), .endpoint (.conn 0 .readEof), .endpoint (.remove 0)]

def reopen : List ClientAct := [.recv (.data ⟨1, 0, [3]⟩), .connected 8, .forward]

def storedView (c : Client) : List (Bool × Nat × UInt64) × Option Nat :=
  (c.endpoint.links.map fun l => (l.conn.normal, l.map, l.connId), c.endpoint.lookup 0 1)

theorem cleanup_own_reopened : ∃ c : Client,
    Run step (fun c a => c.cleanIds a) (start [sshEntry] 8) c ∧ c.endpoint.lookup 0 1 = some 1 ∧
      ∀ l, c.endpoint.links[1]? = some l → l.conn.normal = true →
        c.endpoint.lookup l.map l.connId = some 1 := by
  have view : (exec (guarded step fun c a => c.cleanIds a) (start [sshEntry] 8)
      (writerFails ++ readerEnds ++ reopen)).map storedView =
        some ([(false, 0, 1), (true, 0, 1)], some 1) := by decide
  obtain ⟨c, moved, seen⟩ := Option.map_eq_some_iff.mp view
  have run := run_of_exec _ moved
  exact ⟨c, run, congrArg Prod.snd seen, (cleanup_own [sshEntry] 8 c run).1 1⟩

theorem newer_removed : ¬ ∀ (config : List ClientInfo) (sndBuf : Nat) (c : Client),
    Reach step (start config sndBuf) c → ∀ (n : Nat) (l : Link String),
      c.endpoint.links[n]? = some l → l.conn.normal = true →
        c.endpoint.lookup l.map l.connId = some n := by
  intro claim
  have view : (exec step (start [sshEntry] 8) (writerFails ++ reopen ++ readerEnds)).map
      storedView = some ([(false, 0, 1), (true, 0, 1)], none) := by decide
  obtain ⟨c, moved, seen⟩ := Option.map_eq_some_iff.mp view
  obtain ⟨links, gone⟩ := Prod.mk.inj seen
  obtain ⟨l₀, rest, first, -, later⟩ := List.map_eq_cons_iff.mp links
  obtain ⟨l, last, second, ids, -⟩ := List.map_eq_cons_iff.mp later
  simp only [Prod.mk.injEq] at ids
  obtain ⟨normal, map, connId⟩ := ids
  have here : c.endpoint.links[1]? = some l := by rw [first, second]; rfl
  have entry := claim [sshEntry] 8 c (reach_of_exec _ moved) 1 l here normal
  rw [map, connId, gone] at entry
  cases entry

end Client

end Rfrp
