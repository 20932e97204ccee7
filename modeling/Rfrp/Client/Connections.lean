import Rfrp.Client.Steps

/-!
# Internal connections

Every connection of the client's endpoint was opened for one `(proxy_id, conn_id)`: to the address
of the proxy's configuration entry, and entered into the proxy's own map.
-/

namespace Rfrp.Client

open Transition Endpoint

variable {c c' : Client} {a : ClientAct} {p : UInt32} {n m : Nat}

def Reachable (config : List ClientInfo) (c : Client) : Prop :=
  ∃ sndBuf, Reach step (start config sndBuf) c

variable {config : List ClientInfo}

theorem Reachable.induct {P : Client → Prop} (reach : c.Reachable config)
    (fresh : ∀ sndBuf, P (start config sndBuf))
    (preserve : ∀ c a c', c.Reachable config → P c → Moves c a c' → P c') : P c := by
  obtain ⟨sndBuf, run⟩ := reach
  exact Run.induct run (fresh sndBuf) fun _ _ _ before ih _ move =>
    preserve _ _ _ ⟨sndBuf, before⟩ ih (moves_of_step move)

def allowed (c : Client) (a : ClientAct) : Allowed where
  act o b := o = c.owners ∧ a = .endpoint b
  remove := a = .forwardErr
  drop := False
  abort := ∃ r, a = .exit r

theorem evolves_of_finds (may : Allowed) (h : Finds c p m c') :
    Evolves may c.endpoint c'.endpoint := by
  cases h with
  | cached => exact .same
  | known => exact .same
  | created => exact .addMap

theorem step_endpoint (h : Moves c a c') : Evolves (c.allowed a) c.endpoint c'.endpoint := by
  cases h with
  | @recvFast d _ _ _ _ _ _ finds | @recvNew d _ _ _ _ _ finds =>
      have evolves := evolves_of_finds (c.allowed (.recv (.data d))) finds
      exact evolves
  | exit => exact .abort ⟨_, rfl⟩
  | register _ _ sent => exact .enqueue rfl sent
  | ping _ sent => exact .enqueue rfl sent
  | connected =>
      refine .addLink ?_ rfl rfl rfl
      exact (Conn.ok_fresh _).spawn rfl
  | forward _ sent => exact .deliver sent
  | forwardErr => exact .removeEntry rfl
  | endpoint move => exact .step ⟨rfl, rfl⟩ move
  | _ => exact .same

theorem main_start (config : List ClientInfo) (sndBuf : Nat) :
    (0 < config.length ∧ (start config sndBuf).main = .registering 0) ∨
      (config = [] ∧ (start config sndBuf).main = .reading) := by
  unfold start registerFrom
  split
  · rename_i some
    exact Or.inl ⟨some, rfl⟩
  · rename_i none
    exact Or.inr ⟨List.eq_nil_of_length_eq_zero (by simpa using none), rfl⟩

theorem endpoint_start (config : List ClientInfo) (sndBuf : Nat) :
    (start config sndBuf).endpoint = .spawn sndBuf := by
  unfold start registerFrom
  split <;> rfl

theorem Reachable.endpoint_ok (reach : c.Reachable config) : c.endpoint.Ok :=
  reach.induct (P := fun c => c.endpoint.Ok) (fun sndBuf => endpoint_start config sndBuf ▸ ok_spawn sndBuf)
    fun _ _ _ _ ih move => ih.evolves (step_endpoint move)

theorem Reachable.mapped (reach : c.Reachable config) : c.endpoint.Mapped :=
  reach.induct (P := fun c => c.endpoint.Mapped)
    (fun sndBuf => endpoint_start config sndBuf ▸ mapped_spawn sndBuf)
    fun _ _ _ _ ih move => ih.evolves (step_endpoint move)

theorem Reachable.upstream (reach : c.Reachable config) :
    ∃ origin, c.endpoint.Upstream origin := by
  refine reach.induct (P := fun c => ∃ origin, c.endpoint.Upstream origin)
    (fun sndBuf => ⟨[], endpoint_start config sndBuf ▸ upstream_spawn sndBuf⟩) ?_
  intro c a c' _ ⟨origin, up⟩ move
  obtain ⟨origin', up', -⟩ := up.evolves (step_endpoint move)
  exact ⟨origin', up'⟩

structure Kept (c : Client) : Prop where
  conns : ∀ p m, c.proxyConns p = some m → m < c.endpoint.maps.length
  inj : ∀ p q m, c.proxyConns p = some m → c.proxyConns q = some m → p = q
  cache : ∀ p m, c.cachedConns = some (p, m) → c.proxyConns p = some m
  links : ∀ (n : Nat) (l : Link String), c.endpoint.links[n]? = some l →
    c.proxyConns l.proxyId = some l.map
  source : ∀ (n : Nat) (l : Link String), c.endpoint.links[n]? = some l →
    ∃ client, c.proxyConfigs l.proxyId = some client ∧ l.info = client.addr

def Holds (c : Client) : Prop :=
  match c.main with
  | .registering _ | .awaiting _ => c.endpoint.links = []
  -- no one else enters a connection while the connect is under way
  | .connecting client d m =>
      c.proxyConns d.proxyId = some m ∧ c.proxyConfigs d.proxyId = some client ∧
        c.endpoint.lookup m d.connId = none
  | .forwarding n d m =>
      c.proxyConns d.proxyId = some m ∧
        ∃ l, c.endpoint.links[n]? = some l ∧ l.map = m ∧ l.connId = d.connId
  | .reading | .ended _ => True

theorem kept_start (config : List ClientInfo) (sndBuf : Nat) :
    (start config sndBuf).Kept ∧ (start config sndBuf).Holds := by
  have links : (start config sndBuf).endpoint.links = [] := by
    rw [endpoint_start]
    rfl
  have conns : (start config sndBuf).proxyConns = .empty := by
    unfold start registerFrom
    split <;> rfl
  have cache : (start config sndBuf).cachedConns = none := by
    unfold start registerFrom
    split <;> rfl
  refine ⟨⟨?_, ?_, ?_, ?_, ?_⟩, ?_⟩
  · simp [conns]
  · simp [conns]
  · simp [cache]
  · simp [links]
  · simp [links]
  · rcases main_start config sndBuf with ⟨-, main⟩ | ⟨-, main⟩ <;> simp [Holds, main, links]

theorem Kept.keep (kept : c.Kept) (conns : c'.proxyConns = c.proxyConns)
    (configs : c'.proxyConfigs = c.proxyConfigs) (cache : c'.cachedConns = c.cachedConns)
    (maps : c'.endpoint.maps.length = c.endpoint.maps.length)
    (ident : c'.endpoint.links.map Link.ident = c.endpoint.links.map Link.ident) : c'.Kept := by
  have old : ∀ (n : Nat) (l' : Link String), c'.endpoint.links[n]? = some l' →
      ∃ l : Link String, c.endpoint.links[n]? = some l ∧ l.ident = l'.ident :=
    fun _ _ => Slots.get_of_map Link.ident ident
  refine ⟨?_, ?_, ?_, ?_, ?_⟩
  · rw [conns, maps]
    exact kept.conns
  · rw [conns]
    exact kept.inj
  · rw [conns, cache]
    exact kept.cache
  · intro n l' h
    obtain ⟨l, here, same⟩ := old n l' h
    simp only [Link.ident, Prod.mk.injEq] at same
    rw [conns, ← same.2.1, ← same.2.2.2]
    exact kept.links n l here
  · intro n l' h
    obtain ⟨l, here, same⟩ := old n l' h
    simp only [Link.ident, Prod.mk.injEq] at same
    rw [configs, ← same.2.1, ← same.1]
    exact kept.source n l here

theorem Kept.finds (kept : c.Kept) (h : Finds c p m c') :
    c'.Kept ∧ c'.proxyConns p = some m := by
  cases h with
  | cached hit => exact ⟨kept, kept.cache p m hit⟩
  | known entry =>
      refine ⟨{ kept with cache := fun q k h => ?_ }, entry⟩
      cases h
      exact entry
  | created new =>
      have other : ∀ {q k}, c.proxyConns q = some k → q ≠ p := by
        rintro q k h rfl
        rw [new] at h
        cases h
      refine ⟨⟨?_, ?_, ?_, ?_, kept.source⟩, DashMap.insert_self⟩
      · intro q k h
        rw [List.length_append, List.length_singleton]
        rcases DashMap.insert_eq_some h with ⟨-, rfl⟩ | ⟨-, h⟩
        · exact Nat.lt_succ_self _
        · exact Nat.lt_succ_of_lt (kept.conns q k h)
      · intro q q' k h h'
        rcases DashMap.insert_eq_some h with ⟨here, last⟩ | ⟨-, old⟩ <;>
          rcases DashMap.insert_eq_some h' with ⟨here', last'⟩ | ⟨-, old'⟩
        · exact here.trans here'.symm
        · exact absurd (kept.conns _ _ old') (by omega)
        · exact absurd (kept.conns _ _ old) (by omega)
        · exact kept.inj q q' k old old'
      · intro q k h
        cases h
        exact DashMap.insert_self
      · intro n l h
        have entry := kept.links n l h
        exact (DashMap.insert_ne (other entry)).trans entry

theorem Kept.connected (kept : c.Kept) {client : ClientInfo} {d : DataInfo} {m : Nat}
    (conns : c.proxyConns d.proxyId = some m) (known : c.proxyConfigs d.proxyId = some client)
    (main : ClientMain) (conn : Conn) :
    Kept { c with main, endpoint := c.endpoint.addLink client.addr d.proxyId d.connId m conn } := by
  refine ⟨?_, kept.inj, kept.cache, ?_, ?_⟩
  · intro q k h
    simpa [Endpoint.addLink] using kept.conns q k h
  · intro n l h
    rcases Slots.get_append h with h | ⟨-, rfl⟩
    · exact kept.links n l h
    · exact conns
  · intro n l h
    rcases Slots.get_append h with h | ⟨-, rfl⟩
    · exact kept.source n l h
    · exact ⟨client, known, rfl⟩

theorem config_of_finds (h : Finds c p m c') :
    c'.proxyConfigs = c.proxyConfigs ∧ c'.endpoint.links = c.endpoint.links := by
  cases h <;> exact ⟨rfl, rfl⟩

theorem Kept.step (kept : c.Kept) (holds : c.Holds) (h : Moves c a c') : c'.Kept := by
  cases h with
  | recvAck main | recvLastAck main =>
      simp only [Holds, main] at holds
      refine ⟨kept.conns, kept.inj, kept.cache, ?_, ?_⟩ <;> simp [holds]
  | recvFast _ _ finds => exact (kept.finds finds).1.keep rfl rfl rfl rfl rfl
  | recvNew _ _ finds => exact (kept.finds finds).1.keep rfl rfl rfl rfl rfl
  | register _ _ sent =>
      obtain ⟨-, rfl⟩ := enqueue_eq_some sent
      exact kept.keep rfl rfl rfl rfl rfl
  | ping _ sent =>
      obtain ⟨-, rfl⟩ := enqueue_eq_some sent
      exact kept.keep rfl rfl rfl rfl rfl
  | connected main =>
      simp only [Holds, main] at holds
      exact kept.connected holds.1 holds.2.1 _ _
  | forward _ sent =>
      obtain ⟨l, here, -, rfl⟩ := deliver_eq_some sent
      exact kept.keep rfl rfl rfl rfl (map_setLink _ here rfl)
  | forwardErr => exact kept.keep rfl rfl rfl (by simp [removeConn]) rfl
  | endpoint move =>
      exact kept.keep rfl rfl rfl (step_maps_length move) (step_ident move)
  | _ => exact kept.keep rfl rfl rfl rfl rfl

theorem Holds.keep (holds : c.Holds) (main : c'.main = c.main)
    (conns : c'.proxyConns = c.proxyConns) (configs : c'.proxyConfigs = c.proxyConfigs)
    (ident : c'.endpoint.links.map Link.ident = c.endpoint.links.map Link.ident)
    (fewer : ∀ m k n, c'.endpoint.lookup m k = some n → c.endpoint.lookup m k = some n) :
    c'.Holds := by
  unfold Holds at holds ⊢
  rw [main, conns, configs]
  split at holds
  · simpa [holds] using ident
  · simpa [holds] using ident
  · refine ⟨holds.1, holds.2.1, Option.eq_none_iff_forall_ne_some.mpr fun n found => ?_⟩
    rw [fewer _ _ n found] at holds
    cases holds.2.2
  · obtain ⟨entry, l, here, map, id⟩ := holds
    obtain ⟨l', here', same⟩ := Slots.get_of_map Link.ident ident.symm here
    simp only [Link.ident, Prod.mk.injEq] at same
    exact ⟨entry, l', here', same.2.2.2.trans map, same.2.2.1.trans id⟩
  · trivial
  · trivial

theorem Holds.step (holds : c.Holds) (kept : c.Kept) (mapped : c.endpoint.Mapped)
    (h : Moves c a c') : c'.Holds := by
  have idle : c'.main = c.main → c'.proxyConns = c.proxyConns →
      c'.proxyConfigs = c.proxyConfigs → c'.endpoint.links = c.endpoint.links →
      c'.endpoint.maps = c.endpoint.maps → c'.Holds := fun main conns configs links maps =>
    holds.keep main conns configs (by rw [links]) fun m k n found => by
      rwa [lookup, maps] at found
  cases h with
  | recvAck main =>
      simp only [Holds, main] at holds
      exact holds
  | recvStray | recvOther | recvUnknown => exact idle rfl rfl rfl rfl rfl
  | recvFast _ _ finds found =>
      exact ⟨(kept.finds finds).2, mapped.evolves (evolves_of_finds (c.allowed .tick) finds) _ _ _ found⟩
  | recvNew _ known finds miss =>
      exact ⟨(kept.finds finds).2, by rw [(config_of_finds finds).1, known], miss⟩
  | register main _ sent =>
      obtain ⟨-, rfl⟩ := enqueue_eq_some sent
      simp only [Holds, main] at holds
      exact holds
  | connectedTwice main found =>
      simp only [Holds, main] at holds
      exact ⟨holds.1, mapped _ _ _ found⟩
  | connected main =>
      simp only [Holds, main] at holds
      exact ⟨holds.1, _, by simp [Endpoint.addLink]; rfl, rfl, rfl⟩
  | tick | pingErr | pingCancel => exact idle rfl rfl rfl rfl rfl
  | ping _ sent =>
      obtain ⟨-, rfl⟩ := enqueue_eq_some sent
      exact idle rfl rfl rfl rfl rfl
  | endpoint move => exact holds.keep rfl rfl rfl (step_ident move) (step_lookup move)
  | _ => trivial

theorem Reachable.kept (reach : c.Reachable config) : c.Kept ∧ c.Holds :=
  reach.induct (P := fun c => c.Kept ∧ c.Holds) (fun sndBuf => kept_start config sndBuf)
    fun _ _ _ before ih move =>
      ⟨ih.1.step ih.2 move, ih.2.step ih.1 before.mapped move⟩

end Rfrp.Client
