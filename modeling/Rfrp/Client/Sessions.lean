import Rfrp.Client.Reconnect
import Rfrp.Client.Connections

/-!
# Sessions across reconnects

A call of `run_proxy` reaches only maps that it made itself, and through them only connections that
it opened; the tasks of such a connection captured the channel of that call and one of its maps. So
the calls are apart in the heap, whatever tasks of earlier calls still do, and although all of them
use the same numeric ids.
-/

namespace Rfrp

open Transition

def ClientMain.hand : ClientMain → Option Nat
  | .connecting _ _ m | .forwarding _ _ m => some m
  | _ => none

namespace Client

open Endpoint

variable {c c' : Client} {a : ClientAct} {mine ours : Nat → Prop}

structure Owns (mine ours : Nat → Prop) (c : Client) : Prop where
  conns : ∀ p m, c.proxyConns p = some m → mine m
  cached : ∀ p m, c.cachedConns = some (p, m) → mine m
  connecting : ∀ client d m, c.main = .connecting client d m → mine m
  forwarding : ∀ n d m, c.main = .forwarding n d m → mine m ∧ ours n
  entries : ∀ m map k n, mine m → c.endpoint.maps[m]? = some map → map k = some n → ours n

/-- What a step of the main loop does to the heap: new objects aside, it changes its own. -/
structure Within (mine ours : Nat → Prop) (e e' : Endpoint String) : Prop where
  maps_le : e.maps.length ≤ e'.maps.length
  links_le : e.links.length ≤ e'.links.length
  maps : ∀ m < e.maps.length, ¬ mine m → e'.maps[m]? = e.maps[m]?
  links : ∀ n < e.links.length, ¬ ours n → e'.links[n]? = e.links[n]?
  home : ∀ n l', e'.links[n]? = some l' →
    (∃ l, e.links[n]? = some l ∧ l.map = l'.map) ∨ (e.links.length ≤ n ∧ mine l'.map)

def grown (own : Nat → Prop) (before after : Nat) (i : Nat) : Prop :=
  own i ∨ before ≤ i ∧ i < after

theorem within_same {e e' : Endpoint String} (maps : e'.maps = e.maps) (links : e'.links = e.links) :
    Within mine ours e e' := by
  refine ⟨by rw [maps], by rw [links], fun _ _ _ => by rw [maps], fun _ _ _ => by rw [links], ?_⟩
  intro n l' here
  rw [links] at here
  exact Or.inl ⟨l', here, rfl⟩

theorem Owns.keep (owns : c.Owns mine ours) {new : Nat → Prop} (more : ∀ n, ours n → new n)
    (conns : c'.proxyConns = c.proxyConns)
    (cached : c'.cachedConns = c.cachedConns) (maps : c'.endpoint.maps = c.endpoint.maps)
    (connecting : ∀ client d m, c'.main = .connecting client d m → mine m)
    (forwarding : ∀ n d m, c'.main = .forwarding n d m → mine m ∧ new n) : c'.Owns mine new where
  conns := by
    rw [conns]
    exact owns.conns
  cached := by
    rw [cached]
    exact owns.cached
  connecting := connecting
  forwarding := forwarding
  entries := by
    rw [maps]
    exact fun m map k n own here entry => more n (owns.entries m map k n own here entry)

theorem Owns.view {call : Call} {config config' : List ClientInfo} {e e' : Endpoint String}
    (owns : (call.view config e).Owns mine ours) (maps : e'.maps = e.maps) :
    (call.view config' e').Owns mine ours :=
  owns.keep (fun _ own => own) rfl rfl maps owns.connecting owns.forwarding

theorem Owns.finds (owns : c.Owns mine ours) {p : UInt32} {m : Nat} (finds : Finds c p m c')
    (reading : c.main = .reading) :
    grown mine c.endpoint.maps.length c'.endpoint.maps.length m ∧
      c'.Owns (grown mine c.endpoint.maps.length c'.endpoint.maps.length) ours ∧
      Within mine ours c.endpoint c'.endpoint := by
  have old : ∀ m, mine m → grown mine c.endpoint.maps.length c.endpoint.maps.length m :=
    fun _ own => Or.inl own
  have only : ∀ m, grown mine c.endpoint.maps.length c.endpoint.maps.length m → mine m := by
    rintro m (own | ⟨low, high⟩)
    · exact own
    · omega
  cases finds with
  | cached hit =>
      refine ⟨old m (owns.cached p m hit), ⟨fun q n h => old n (owns.conns q n h),
        fun q n h => old n (owns.cached q n h), ?_, ?_, fun m map k n own =>
          owns.entries m map k n (only m own)⟩, within_same rfl rfl⟩
      · simp [reading]
      · simp [reading]
  | known entry =>
      refine ⟨old m (owns.conns p m entry), ⟨fun q n h => old n (owns.conns q n h), ?_, ?_, ?_,
        fun m map k n own => owns.entries m map k n (only m own)⟩, within_same rfl rfl⟩
      · intro q n h
        cases h
        exact old _ (owns.conns p _ entry)
      · simp [reading]
      · simp [reading]
  | created new =>
      have fresh : grown mine c.endpoint.maps.length (c.endpoint.maps ++ [DashMap.empty]).length
          c.endpoint.maps.length := Or.inr ⟨Nat.le_refl _, by simp⟩
      refine ⟨fresh, ⟨?_, ?_, ?_, ?_, ?_⟩, ⟨by simp, Nat.le_refl _, ?_, fun _ _ _ => rfl, ?_⟩⟩
      · intro q n h
        rcases DashMap.insert_eq_some h with ⟨rfl, rfl⟩ | ⟨-, h⟩
        · exact fresh
        · exact Or.inl (owns.conns q n h)
      · intro q n h
        cases h
        exact fresh
      · simp [reading]
      · simp [reading]
      · intro i map k n own here entry
        rcases Slots.get_append here with here | ⟨rfl, rfl⟩
        · rcases own with own | ⟨low, -⟩
          · exact owns.entries i map k n own here entry
          · exact absurd (Slots.get_lt here) (Nat.not_lt.mpr low)
        · cases entry
      · intro i bound _
        exact List.getElem?_append_left bound
      · exact fun n l here => Or.inl ⟨l, here, rfl⟩

theorem finds_links {p : UInt32} {m : Nat} (finds : Finds c p m c') :
    c'.endpoint.links = c.endpoint.links := by
  cases finds <;> rfl

theorem grown_same {own : Nat → Prop} {i n : Nat} : grown own n n i ↔ own i := by
  unfold grown
  constructor
  · rintro (h | ⟨low, high⟩)
    · exact h
    · omega
  · exact Or.inl

theorem grown_same_eq (own : Nat → Prop) (n : Nat) : grown own n n = own := by
  funext i
  exact propext grown_same

theorem Owns.lookup (owns : c.Owns mine ours) {m n : Nat} {k : UInt64} (own : mine m)
    (found : c.endpoint.lookup m k = some n) : ours n := by
  obtain ⟨map, here, entry⟩ := Option.bind_eq_some_iff.mp found
  exact owns.entries m map k n own here entry

/-- The main loop gets to where it holds no map, and the heap stays what it was. -/
theorem Owns.quiet (owns : c.Owns mine ours) (conns : c'.proxyConns = c.proxyConns)
    (cached : c'.cachedConns = c.cachedConns) (maps : c'.endpoint.maps = c.endpoint.maps)
    (links : c'.endpoint.links = c.endpoint.links)
    (main : c'.main = c.main ∨ c'.main.hand = none) :
    c'.Owns (grown mine c.endpoint.maps.length c'.endpoint.maps.length)
        (grown ours c.endpoint.links.length c'.endpoint.links.length) ∧
      Within mine ours c.endpoint c'.endpoint := by
  rw [maps, links, grown_same_eq, grown_same_eq]
  refine ⟨owns.keep (fun _ own => own) conns cached maps ?_ ?_, within_same maps links⟩
  · intro client d m at'
    rcases main with same | none
    · exact owns.connecting client d m (same ▸ at')
    · rw [at'] at none
      cases none
  · intro n d m at'
    rcases main with same | none
    · exact owns.forwarding n d m (same ▸ at')
    · rw [at'] at none
      cases none

section heap
variable {e : Endpoint String} {m n : Nat}

theorem within_addLink {info : String} {p : UInt32} {k : UInt64} {conn : Conn} (own : mine m) :
    Within mine ours e (e.addLink info p k m conn) := by
  refine ⟨by simp [addLink], by simp [addLink], ?_, ?_, ?_⟩
  · intro i bound other
    apply List.getElem?_modify_ne
    rintro rfl
    exact other own
  · exact fun n bound _ => List.getElem?_append_left bound
  · intro i l here
    rcases Slots.get_append here with here | ⟨rfl, rfl⟩
    · exact Or.inl ⟨l, here, rfl⟩
    · exact Or.inr ⟨Nat.le_refl _, own⟩

theorem within_setLink {l l' : Link String} (own : ours n) (here : e.links[n]? = some l)
    (same : l.map = l'.map) : Within mine ours e (e.setLink n l') := by
  refine ⟨Nat.le_refl _, by simp, fun _ _ _ => rfl, ?_, ?_⟩
  · intro i bound other
    apply Slots.get_set_ne
    rintro rfl
    exact other own
  · intro i k found
    rcases Slots.get_set found with ⟨rfl, rfl⟩ | ⟨-, found⟩
    · exact Or.inl ⟨l, here, same⟩
    · exact Or.inl ⟨k, found, rfl⟩

theorem within_modify {f : DashMap UInt64 Nat → DashMap UInt64 Nat} (own : mine m) :
    Within mine ours e { e with maps := e.maps.modify m f } := by
  refine ⟨by simp, Nat.le_refl _, ?_, fun _ _ _ => rfl, fun n l here => Or.inl ⟨l, here, rfl⟩⟩
  intro i bound other
  apply List.getElem?_modify_ne
  rintro rfl
  exact other own

end heap

theorem Owns.connected (owns : c.Owns mine ours) {client : ClientInfo} {d : DataInfo}
    {m sndBuf : Nat} (main : c.main = .connecting client d m) :
    Owns mine (grown ours c.endpoint.links.length (c.endpoint.links.length + 1)) { c with
      main := .forwarding c.endpoint.links.length d m
      endpoint :=
        c.endpoint.addLink client.addr d.proxyId d.connId m (Conn.fresh sndBuf).spawn } := by
  have own := owns.connecting _ _ _ main
  have fresh : grown ours c.endpoint.links.length (c.endpoint.links.length + 1)
      c.endpoint.links.length := Or.inr ⟨Nat.le_refl _, Nat.lt_succ_self _⟩
  refine ⟨owns.conns, owns.cached, by simp, ?_, ?_⟩
  · intro n d' m' at'
    cases at'
    exact ⟨own, fresh⟩
  · intro i map k n held here entry
    rcases Slots.get_modify here with ⟨-, old, before, rfl⟩ | ⟨-, before⟩
    · rcases DashMap.insert_eq_some entry with ⟨-, rfl⟩ | ⟨-, entry⟩
      · exact fresh
      · exact Or.inl (owns.entries i old k n held before entry)
    · exact Or.inl (owns.entries i map k n held before entry)

theorem Owns.removeConn (owns : c.Owns mine ours) (m : Nat) (k : UInt64) :
    Owns mine ours { c.removeConn m k with main := .reading } := by
  refine ⟨owns.conns, owns.cached, by simp, by simp, ?_⟩
  intro i map k' n held here entry
  rcases Slots.get_modify here with ⟨-, old, before, rfl⟩ | ⟨-, before⟩
  · exact owns.entries i old k' n held before (DashMap.remove_eq_some entry).2
  · exact owns.entries i map k' n held before entry

theorem Owns.step (owns : c.Owns mine ours) (h : Moves c a c') (here : a.isEndpoint = false) :
    c'.Owns (grown mine c.endpoint.maps.length c'.endpoint.maps.length)
        (grown ours c.endpoint.links.length c'.endpoint.links.length) ∧
      Within mine ours c.endpoint c'.endpoint := by
  cases h with
  | endpoint => cases here
  | recvFast main _ finds lookup =>
      obtain ⟨own, owns', within⟩ := owns.finds finds main
      rw [finds_links finds, grown_same_eq]
      refine ⟨⟨owns'.conns, owns'.cached, by simp, ?_, owns'.entries⟩, within⟩
      intro n d m at'
      cases at'
      exact ⟨own, owns'.lookup own lookup⟩
  | recvNew main _ finds =>
      obtain ⟨own, owns', within⟩ := owns.finds finds main
      rw [finds_links finds, grown_same_eq]
      refine ⟨⟨owns'.conns, owns'.cached, ?_, by simp, owns'.entries⟩, within⟩
      intro client d m at'
      cases at'
      exact own
  | connectedTwice main lookup =>
      have own := owns.connecting _ _ _ main
      simp only [grown_same_eq]
      refine ⟨owns.keep (fun _ own => own) rfl rfl rfl (by simp) ?_, within_same rfl rfl⟩
      intro n d m at'
      cases at'
      exact ⟨own, owns.lookup own lookup⟩
  | connected main =>
      have own := owns.connecting _ _ _ main
      simp only [addLink, List.length_modify, List.length_append, List.length_singleton, grown_same_eq]
      exact ⟨owns.connected main, within_addLink own⟩
  | forward main sent =>
      obtain ⟨l, here, -, rfl⟩ := deliver_eq_some sent
      obtain ⟨-, own⟩ := owns.forwarding _ _ _ main
      simp only [setLink_links, setLink_maps, List.length_set, grown_same_eq]
      exact ⟨owns.keep (fun _ own => own) rfl rfl rfl (by simp) (by simp),
        within_setLink own here rfl⟩
  | forwardErr main =>
      obtain ⟨own, -⟩ := owns.forwarding _ _ _ main
      simp only [Client.removeConn, List.length_modify, grown_same_eq]
      exact ⟨owns.removeConn _ _, within_modify own⟩
  | register _ _ sent =>
      obtain ⟨-, rfl⟩ := enqueue_eq_some sent
      exact owns.quiet rfl rfl rfl rfl (Or.inr rfl)
  | ping _ sent =>
      obtain ⟨-, rfl⟩ := enqueue_eq_some sent
      exact owns.quiet rfl rfl rfl rfl (Or.inl rfl)
  | tick | pingErr | pingCancel | recvStray | recvOther | recvUnknown =>
      exact owns.quiet rfl rfl rfl rfl (Or.inl rfl)
  | _ => exact owns.quiet rfl rfl rfl rfl (Or.inr rfl)

theorem tunnel_of_step (h : Moves c a c') (here : a.isEndpoint = false) :
    c.endpoint.tunnel.chan.log <+: c'.endpoint.tunnel.chan.log ∧
      (c.endpoint.tunnel.Ok → c'.endpoint.tunnel.Ok) := by
  have same : c'.endpoint.tunnel = c.endpoint.tunnel →
      c.endpoint.tunnel.chan.log <+: c'.endpoint.tunnel.chan.log ∧
        (c.endpoint.tunnel.Ok → c'.endpoint.tunnel.Ok) := by
    intro same
    rw [same]
    exact ⟨List.prefix_refl _, id⟩
  cases h with
  | endpoint => cases here
  | recvFast _ _ finds | recvNew _ _ finds => cases finds <;> exact same rfl
  | register _ _ sent | ping _ sent =>
      obtain ⟨tunnel, pushed, rfl⟩ := Option.map_eq_some_iff.mp sent
      refine ⟨?_, fun ok => ok.send pushed⟩
      obtain ⟨-, rfl⟩ := FrameWriter.send_eq_some pushed
      exact List.prefix_append _ _
  | forward _ sent =>
      obtain ⟨l, -, -, rfl⟩ := deliver_eq_some sent
      exact same rfl
  | exit => exact ⟨List.prefix_refl _, fun ok => ⟨ok.sent_isPrefix, ok.sent_eq⟩⟩
  | _ => exact same rfl

end Client

namespace Endpoint

variable {o : Owners} {e e' : Endpoint String} {a : EndpointAct} {n : Nat} {l : Link String}

structure Tasked (e e' : Endpoint String) (n : Nat) (l : Link String) : Prop where
  links_length : e'.links.length = e.links.length
  maps_length : e'.maps.length = e.maps.length
  link : ∃ l', e'.links[n]? = some l' ∧ l'.map = l.map
  links : ∀ i, i ≠ n → e'.links[i]? = e.links[i]?
  maps : ∀ m, m ≠ l.map → e'.maps[m]? = e.maps[m]?
  entries : ∀ (m : Nat) (map' : DashMap UInt64 Nat) (k : UInt64) (i : Nat), e'.maps[m]? = some map' → map' k = some i →
    ∃ map, e.maps[m]? = some map ∧ map k = some i
  chan : e.tunnel.chan.log <+: e'.tunnel.chan.log
  ok : e.tunnel.Ok → e'.tunnel.Ok

theorem tasked_of_step (h : Moves o e a e') (task : a.link? = some n)
    (here : e.links[n]? = some l) : Tasked e e' n l := by
  -- the maps and the channel stay, and the connection's own slot is rewritten
  have own : ∀ l' : Link String, l'.map = l.map → Tasked e (e.setLink n l') n l := by
    intro l' same
    exact ⟨by simp, rfl, ⟨l', Slots.get_set_self here, same⟩, fun i other => Slots.get_set_ne other,
      fun _ _ => rfl, fun m map' k i found entry => ⟨map', found, entry⟩, List.prefix_refl _, id⟩
  cases h with
  | writer => cases task
  | conn found | sendDataErr found | finish found =>
      cases task
      rw [here] at found
      cases found
      exact own _ rfl
  | sendData found hand sent =>
      cases task
      rw [here] at found
      cases found
      refine ⟨by simp, rfl, ⟨_, Slots.get_set_self here, rfl⟩, fun i other => Slots.get_set_ne other,
        fun _ _ => rfl, fun m map' k i found entry => ⟨map', found, entry⟩, ?_,
        fun ok => ok.send sent⟩
      obtain ⟨-, rfl⟩ := FrameWriter.send_eq_some sent
      exact List.prefix_append _ _
  | remove found left =>
      cases task
      rw [here] at found
      cases found
      refine ⟨by simp, by simp, ⟨_, Slots.get_set_self here, rfl⟩,
        fun i other => Slots.get_set_ne other, ?_, ?_, List.prefix_refl _, id⟩
      · intro m other
        simp [Ne.symm other]
      · intro m map' k i found entry
        rcases Slots.get_modify found with ⟨-, old, before, rfl⟩ | ⟨-, before⟩
        · exact ⟨old, before, (DashMap.remove_eq_some entry).2⟩
        · exact ⟨map', before, entry⟩

end Endpoint

namespace Reconnect

variable {s s' : Reconnect} {a : ReconnectAct} {j k n m : Nat}

/-- The session whose task takes this step, by the call that spawned it. -/
def actor (s : Reconnect) : ReconnectAct → Option Nat
  | .call k _ | .writer k _ => some k
  | .task a => a.link?.bind fun n => s.captured[n]?.map Captured.call
  | _ => none

/-- The frames that tasks of call `k` produced, in the order of their sends. -/
def sentBy (s : Reconnect) (k : Nat) : List RfrpFrame :=
  s.sent.filterMap fun (j, f) => if j = k then some f else none

def holds (s : Reconnect) (k m : Nat) : Prop := s.holders[m]? = some k

/-- The connection was opened by call `k`. -/
def opened (s : Reconnect) (k n : Nat) : Prop :=
  ∃ captured, s.captured[n]? = some captured ∧ captured.call = k

/-- Every reference stays within its session. -/
structure Apart (s : Reconnect) : Prop where
  holders : s.holders.length = s.maps.length
  captured : s.captured.length = s.links.length
  tunnels : s.tunnels.length = s.calls.length
  own : ∀ (k : Nat) (call : Call), s.calls[k]? = some call → call.tunnel = k
  caught : ∀ (n : Nat) (c : Captured), s.captured[n]? = some c →
    c.tunnel = c.call ∧ c.call < s.calls.length
  held : ∀ k m, s.holds k m → k < s.calls.length
  owns : ∀ (k : Nat) (call : Call) (w : FrameWriter), s.calls[k]? = some call →
    (call.view s.config (s.heap w)).Owns (s.holds k) (s.opened k)
  home : ∀ (n : Nat) (l : Link String) (c : Captured), s.links[n]? = some l →
    s.captured[n]? = some c → s.holds c.call l.map
  queued : ∀ (k : Nat) (w : FrameWriter), s.tunnels[k]? = some w → w.Ok ∧ w.chan.log = s.sentBy k
  past : ∀ k f, (k, f) ∈ s.sent → k < s.calls.length
  handed : ∀ k d n, (k, d, n) ∈ s.delivered → s.opened k n

/-- Session `j` is the same in both states: its main loop with its tables, its channel and
connection to the server, its maps and its internal connections. -/
structure Untouched (s s' : Reconnect) (j : Nat) : Prop where
  call : s'.calls[j]? = s.calls[j]?
  tunnel : ∀ call, s.calls[j]? = some call → s'.tunnels[call.tunnel]? = s.tunnels[call.tunnel]?
  holds : ∀ m, s'.holds j m ↔ s.holds j m
  maps : ∀ m, s.holds j m → s'.maps[m]? = s.maps[m]?
  opened : ∀ n, s'.opened j n ↔ s.opened j n
  links : ∀ n, s.opened j n → s'.links[n]? = s.links[n]?

theorem sentBy_append (s : Reconnect) (sent : List (Nat × RfrpFrame)) (k : Nat)
    (fs : List RfrpFrame) (j : Nat) :
    sentBy { s with sent := sent ++ fs.map fun f => (k, f) } j =
      sentBy { s with sent } j ++ if k = j then fs else [] := by
  have news : (fs.map fun f => (k, f)).filterMap
      (fun (p : Nat × RfrpFrame) => if p.1 = j then some p.2 else none) =
        if k = j then fs else [] := by
    induction fs with
    | nil => simp
    | cons f fs ih => by_cases same : k = j <;> simp_all
  show ((sent ++ fs.map fun f => (k, f)).filterMap _) = _
  rw [List.filterMap_append, news]
  rfl

theorem apart_start (config : List ClientInfo) : (start config).Apart where
  holders := rfl
  captured := rfl
  tunnels := rfl
  own := fun _ _ h => by cases h
  caught := fun _ _ h => by cases h
  held := fun _ _ h => by cases h
  owns := fun _ _ _ h => by cases h
  home := fun _ _ _ h => by cases h
  queued := fun _ _ h => by cases h
  past := fun _ _ h => by cases h
  handed := fun _ _ _ h => by cases h

theorem untouched_loop {loop : LoopMain} {attempt : UInt32} :
    Untouched s { s with loop, attempt } j where
  call := rfl
  tunnel := fun _ _ => rfl
  holds := fun _ => Iff.rfl
  maps := fun _ _ => rfl
  opened := fun _ => Iff.rfl
  links := fun _ _ => rfl

section call
variable {call : Call} {w : FrameWriter} {c' : Client} {b : ClientAct}

theorem holds_commit (apart : s.Apart) (longer : s.maps.length ≤ c'.endpoint.maps.length) :
    (s.commit k call.tunnel w c').holds j m ↔
      s.holds j m ∨ (j = k ∧ s.maps.length ≤ m ∧ m < c'.endpoint.maps.length) := by
  have count : s.maps.length + (c'.endpoint.maps.length - s.maps.length) =
      c'.endpoint.maps.length := by omega
  unfold holds commit
  rw [Slots.get_append_replicate, apart.holders, count]

theorem opened_commit (apart : s.Apart) (longer : s.links.length ≤ c'.endpoint.links.length) :
    (s.commit k call.tunnel w c').opened j n ↔
      s.opened j n ∨ (j = k ∧ s.links.length ≤ n ∧ n < c'.endpoint.links.length) := by
  have count : s.links.length + (c'.endpoint.links.length - s.links.length) =
      c'.endpoint.links.length := by omega
  unfold opened commit
  simp only [Slots.get_append_replicate, apart.captured, count]
  constructor
  · rintro ⟨captured, old | ⟨rfl, new⟩, rfl⟩
    · exact Or.inl ⟨captured, old, rfl⟩
    · exact Or.inr ⟨rfl, new⟩
  · rintro (⟨captured, old, rfl⟩ | ⟨rfl, new⟩)
    · exact ⟨captured, Or.inl old, rfl⟩
    · exact ⟨⟨call.tunnel, j⟩, Or.inr ⟨rfl, new⟩, rfl⟩

theorem opened_ne (h : s.opened j n) (other : j ≠ k) : ¬ s.opened k n := by
  rintro ⟨captured, here, rfl⟩
  obtain ⟨captured', here', rfl⟩ := h
  rw [here] at here'
  cases here'
  exact other rfl

theorem holds_ne (h : s.holds j m) (other : j ≠ k) : ¬ s.holds k m := by
  intro h'
  unfold holds at h h'
  rw [h] at h'
  exact other (Option.some.inj h')

theorem untouched_call (apart : s.Apart) (here : s.calls[k]? = some call)
    (within : Client.Within (s.holds k) (s.opened k) (s.heap w) c'.endpoint) (other : j ≠ k) :
    Untouched s (s.commit k call.tunnel w c') j where
  call := Slots.get_set_ne other
  tunnel := fun call' found => by
    rw [apart.own j call' found]
    exact Slots.get_set_ne ((apart.own k call here).symm ▸ other)
  holds := fun m => by
    rw [holds_commit apart within.maps_le]
    simp [other]
  maps := fun m own =>
    within.maps m (apart.holders ▸ Slots.get_lt own) (holds_ne own other)
  opened := fun n => by
    rw [opened_commit apart within.links_le]
    simp [other]
  links := fun n own => by
    obtain ⟨captured, caught, -⟩ := id own
    exact within.links n (apart.captured ▸ Slots.get_lt caught) (opened_ne own other)

theorem Untouched.owns (untouched : Untouched s s' j) {w' : FrameWriter}
    (owns : (call.view s.config (s.heap w)).Owns (s.holds j) (s.opened j)) :
    (call.view s'.config (s'.heap w')).Owns (s'.holds j) (s'.opened j) := by
  obtain ⟨conns, cached, connecting, forwarding, entries⟩ := owns
  refine ⟨fun p m h => (untouched.holds m).mpr (conns p m h),
    fun p m h => (untouched.holds m).mpr (cached p m h),
    fun client d m h => (untouched.holds m).mpr (connecting client d m h), ?_, ?_⟩
  · intro n d m h
    obtain ⟨mine, ours⟩ := forwarding n d m h
    exact ⟨(untouched.holds m).mpr mine, (untouched.opened n).mpr ours⟩
  · intro m map key n held found entry
    have held := (untouched.holds m).mp held
    apply (untouched.opened n).mpr
    exact entries m map key n held ((untouched.maps m held).symm.trans found) entry

theorem apart_call (apart : s.Apart) (here : s.calls[k]? = some call)
    (behind : s.tunnels[call.tunnel]? = some w)
    (h : Client.Moves (call.view s.config (s.heap w)) b c') (main : b.isEndpoint = false) :
    (s.commit k call.tunnel w c').Apart := by
  have own := apart.own k call here
  obtain ⟨owns, within⟩ := (apart.owns k call w here).step h main
  obtain ⟨grows, ok⟩ := Client.tunnel_of_step h main
  have old : s.maps.length ≤ c'.endpoint.maps.length := within.maps_le
  have old' : s.links.length ≤ c'.endpoint.links.length := within.links_le
  obtain ⟨fs, log⟩ := grows
  have pushed : c'.endpoint.tunnel.chan.log.drop w.chan.log.length = fs := by
    rw [← log]
    exact List.drop_left' rfl
  have sent : ∀ i, (s.commit k call.tunnel w c').sentBy i =
      s.sentBy i ++ if k = i then fs else [] := by
    intro i
    have all := sentBy_append s s.sent k fs i
    unfold commit
    rw [pushed]
    exact all
  constructor
  case holders =>
    show (s.holders ++ List.replicate _ k).length = c'.endpoint.maps.length
    rw [List.length_append, List.length_replicate, apart.holders]
    omega
  case captured =>
    show (s.captured ++ List.replicate _ _).length = c'.endpoint.links.length
    rw [List.length_append, List.length_replicate, apart.captured]
    omega
  case tunnels =>
    show (s.tunnels.set _ _).length = (s.calls.set _ _).length
    rw [List.length_set, List.length_set, apart.tunnels]
  case own =>
    intro i call' found
    rcases Slots.get_set found with ⟨rfl, rfl⟩ | ⟨-, found⟩
    · exact own
    · exact apart.own i call' found
  case caught =>
    intro n c found
    show c.tunnel = c.call ∧ c.call < (s.calls.set _ _).length
    rw [List.length_set]
    rcases Slots.get_append_replicate.mp found with found | ⟨rfl, -⟩
    · exact apart.caught n c found
    · exact ⟨own, Slots.get_lt here⟩
  case held =>
    intro i m held
    show i < (s.calls.set _ _).length
    rw [List.length_set]
    rcases (holds_commit apart old).mp held with held | ⟨rfl, -⟩
    · exact apart.held i m held
    · exact Slots.get_lt here
  case owns =>
    intro i call' w' found
    by_cases same : i = k
    · subst same
      rcases Slots.get_set found with ⟨-, rfl⟩ | ⟨other, -⟩
      · have maps : (s.commit i call.tunnel w c').holds i =
            Client.grown (s.holds i) s.maps.length c'.endpoint.maps.length := by
          funext m
          exact propext ((holds_commit apart old).trans (by simp [Client.grown]))
        have links : (s.commit i call.tunnel w c').opened i =
            Client.grown (s.opened i) s.links.length c'.endpoint.links.length := by
          funext n
          exact propext ((opened_commit apart old').trans (by simp [Client.grown]))
        rw [maps, links]
        exact ⟨owns.conns, owns.cached, owns.connecting, owns.forwarding, owns.entries⟩
      · exact absurd rfl other
    · have untouched : Untouched s (s.commit k call.tunnel w c') i :=
        untouched_call apart here within same
      have found : s.calls[i]? = some call' := by rw [← untouched.call, found]
      exact untouched.owns (apart.owns i call' w' found)
  case home =>
    intro n l c found caught
    refine (holds_commit apart old).mpr (Or.inl ?_)
    rcases Slots.get_append_replicate.mp caught with caught | ⟨rfl, low, -⟩
    · rcases within.home n l found with ⟨l', before, same⟩ | ⟨new, -⟩
      · exact same ▸ apart.home n l' c before caught
      · have bound := Slots.get_lt caught
        rw [apart.captured] at bound
        exact absurd bound (Nat.not_lt.mpr new)
    · rcases within.home n l found with ⟨l', before, -⟩ | ⟨-, mine⟩
      · have bound : n < s.links.length := Slots.get_lt before
        rw [apart.captured] at low
        exact absurd bound (Nat.not_lt.mpr low)
      · exact mine
  case queued =>
    intro i w' found
    rw [sent i]
    rcases Slots.get_set found with ⟨rfl, rfl⟩ | ⟨other, found⟩
    · obtain ⟨fine, before⟩ := apart.queued _ w behind
      refine ⟨ok fine, ?_⟩
      rw [if_pos own.symm, ← before]
      exact log.symm
    · have apart' : k ≠ i := by
        rintro rfl
        exact other own.symm
      rw [if_neg apart', List.append_nil]
      exact apart.queued i w' found
  case past =>
    intro i f mem
    show i < (s.calls.set _ _).length
    rw [List.length_set]
    rcases List.mem_append.mp mem with mem | mem
    · exact apart.past i f mem
    · obtain ⟨f, -, same⟩ := List.mem_map.mp mem
      cases same
      exact Slots.get_lt here
  case handed =>
    intro i d n mem
    exact (opened_commit apart old').mpr (Or.inl (apart.handed i d n mem))

end call

theorem owns_start {mine ours : Nat → Prop} {config : List ClientInfo} {sndBuf t : Nat}
    {e : Endpoint String} (nothing : ∀ m, ¬ mine m) :
    (((Client.start config sndBuf).call t).view config e).Owns mine ours := by
  have fields : (Client.start config sndBuf).proxyConns = .empty ∧
      (Client.start config sndBuf).cachedConns = none := by
    unfold Client.start Client.registerFrom
    split <;> exact ⟨rfl, rfl⟩
  have main : (Client.start config sndBuf).main.hand = none := by
    rcases Client.main_start config sndBuf with ⟨-, main⟩ | ⟨-, main⟩ <;> rw [main] <;> rfl
  refine ⟨fun p m h => ?_, fun p m h => ?_, fun client d m h => ?_, fun n d m h => ?_,
    fun m map key n held => absurd held (nothing m)⟩
  · have none : (Client.start config sndBuf).proxyConns p = some m := h
    rw [fields.1] at none
    cases none
  · have none : (Client.start config sndBuf).cachedConns = some (p, m) := h
    rw [fields.2] at none
    cases none
  · have at' : (Client.start config sndBuf).main = .connecting client d m := h
    rw [at'] at main
    cases main
  · have at' : (Client.start config sndBuf).main = .forwarding n d m := h
    rw [at'] at main
    cases main

theorem apart_connected (apart : s.Apart) (sndBuf : Nat) {loop : LoopMain} :
    Apart { s with
      loop
      calls := s.calls ++ [(Client.start s.config sndBuf).call s.tunnels.length]
      tunnels := s.tunnels ++ [(Client.start s.config sndBuf).endpoint.tunnel] } := by
  have more : s.calls.length < (s.calls ++ [(Client.start s.config sndBuf).call
      s.tunnels.length]).length := by simp
  constructor
  case holders => exact apart.holders
  case captured => exact apart.captured
  case tunnels => simp [apart.tunnels]
  case own =>
    intro k call found
    rcases Slots.get_append found with found | ⟨rfl, rfl⟩
    · exact apart.own k call found
    · exact apart.tunnels
  case caught =>
    intro n c found
    obtain ⟨same, bound⟩ := apart.caught n c found
    exact ⟨same, Nat.lt_trans bound more⟩
  case held => exact fun k m held => Nat.lt_trans (apart.held k m held) more
  case owns =>
    intro k call w found
    rcases Slots.get_append found with found | ⟨rfl, rfl⟩
    · exact (apart.owns k call w found).view rfl
    · exact owns_start fun m held => absurd (apart.held _ m held) (Nat.lt_irrefl _)
  case home => exact apart.home
  case queued =>
    intro k w found
    rcases Slots.get_append found with found | ⟨rfl, rfl⟩
    · exact apart.queued k w found
    · rw [Client.endpoint_start]
      refine ⟨FrameWriter.ok_spawn sndBuf, ?_⟩
      have none : s.sentBy s.tunnels.length = [] := by
        refine List.filterMap_eq_nil_iff.mpr ?_
        rintro ⟨i, f⟩ mem
        have bound := apart.past i f mem
        rw [← apart.tunnels] at bound
        simp [Nat.ne_of_lt bound]
      exact none.symm
  case past => exact fun k f mem => Nat.lt_trans (apart.past k f mem) more
  case handed => exact apart.handed

theorem untouched_connected (apart : s.Apart) (bound : j < s.calls.length) {loop : LoopMain}
    {call : Call} {w : FrameWriter} :
    Untouched s { s with loop, calls := s.calls ++ [call], tunnels := s.tunnels ++ [w] } j where
  call := List.getElem?_append_left bound
  tunnel := fun call' found => by
    rw [apart.own j call' found]
    exact List.getElem?_append_left (apart.tunnels ▸ bound)
  holds := fun _ => Iff.rfl
  maps := fun _ _ => rfl
  opened := fun _ => Iff.rfl
  links := fun _ _ => rfl

section tunnel
variable {call : Call} {w w' : FrameWriter} {senders : Bool} {b : WriterAct}

theorem apart_writer (apart : s.Apart)
    (behind : s.tunnels[call.tunnel]? = some w) (h : w.step senders b = some w') :
    Apart { s with tunnels := s.tunnels.set call.tunnel w' } := by
  obtain ⟨holders, captured, tunnels, own, caught, held, owns, home, queued, past, handed⟩ := apart
  refine ⟨holders, captured, by simp [tunnels], own, caught, held, ?_, home, ?_, past, handed⟩
  · exact fun i call' w₁ found => (owns i call' w₁ found).view rfl
  · intro i w₁ found
    rcases Slots.get_set found with ⟨rfl, rfl⟩ | ⟨-, found⟩
    · obtain ⟨ok, log⟩ := queued _ w behind
      exact ⟨ok.step h, (FrameWriter.step_log h).trans log⟩
    · exact queued i w₁ found

theorem untouched_writer (apart : s.Apart) (here : s.calls[k]? = some call) (other : j ≠ k) :
    Untouched s { s with tunnels := s.tunnels.set call.tunnel w' } j where
  call := rfl
  tunnel := fun call' found => by
    rw [apart.own j call' found]
    exact Slots.get_set_ne ((apart.own k call here).symm ▸ other)
  holds := fun _ => Iff.rfl
  maps := fun _ _ => rfl
  opened := fun _ => Iff.rfl
  links := fun _ _ => rfl

end tunnel

section task
variable {captured : Captured} {w : FrameWriter} {e : Endpoint String} {l : Link String}

theorem untouched_task (apart : s.Apart) (caught : s.captured[n]? = some captured)
    (here : s.links[n]? = some l) (tasked : Endpoint.Tasked (s.heap w) e n l)
    (other : j ≠ captured.call) {sent : List (Nat × RfrpFrame)} :
    Untouched s { s with
      tunnels := s.tunnels.set captured.tunnel e.tunnel
      maps := e.maps
      links := e.links
      sent } j where
  call := rfl
  tunnel := fun call' found => by
    rw [apart.own j call' found]
    exact Slots.get_set_ne ((apart.caught n captured caught).1.symm ▸ other)
  holds := fun _ => Iff.rfl
  maps := fun m held => by
    refine tasked.maps m ?_
    rintro rfl
    exact holds_ne held other (apart.home n l captured here caught)
  opened := fun _ => Iff.rfl
  links := fun i opened => by
    refine tasked.links i ?_
    rintro rfl
    exact opened_ne opened other ⟨captured, caught, rfl⟩

theorem apart_task (apart : s.Apart) (caught : s.captured[n]? = some captured)
    (behind : s.tunnels[captured.tunnel]? = some w) (here : s.links[n]? = some l)
    (tasked : Endpoint.Tasked (s.heap w) e n l) :
    Apart { s with
      tunnels := s.tunnels.set captured.tunnel e.tunnel
      maps := e.maps
      links := e.links
      sent := s.sent ++
        (e.tunnel.chan.log.drop w.chan.log.length).map fun f => (captured.call, f) } := by
  obtain ⟨same, bound⟩ := apart.caught n captured caught
  obtain ⟨fs, log⟩ := tasked.chan
  have log : w.chan.log ++ fs = e.tunnel.chan.log := log
  have pushed : e.tunnel.chan.log.drop w.chan.log.length = fs := by
    rw [← log]
    exact List.drop_left' rfl
  rw [pushed]
  have sent := sentBy_append { s with
      tunnels := s.tunnels.set captured.tunnel e.tunnel
      maps := e.maps
      links := e.links } s.sent captured.call fs
  constructor
  case holders => exact apart.holders.trans tasked.maps_length.symm
  case captured => exact apart.captured.trans tasked.links_length.symm
  case tunnels => simp [apart.tunnels]
  case own => exact apart.own
  case caught => exact apart.caught
  case held => exact apart.held
  case owns =>
    intro i call w' found
    obtain ⟨conns, cached, connecting, forwarding, entries⟩ := apart.owns i call w' found
    refine ⟨conns, cached, connecting, forwarding, ?_⟩
    intro m map key i held found entry
    obtain ⟨old, before, entry⟩ := tasked.entries m map key i found entry
    exact entries m old key i held before entry
  case home =>
    intro i l' c found caught'
    by_cases this : i = n
    · subst this
      obtain ⟨l₁, after, map⟩ := tasked.link
      rw [after] at found
      cases found
      rw [map]
      exact apart.home i l c here caught'
    · rw [tasked.links i this] at found
      exact apart.home i l' c found caught'
  case queued =>
    intro i w' found
    rw [sent i]
    rcases Slots.get_set found with ⟨rfl, rfl⟩ | ⟨other, found⟩
    · obtain ⟨fine, before⟩ := apart.queued _ w behind
      refine ⟨tasked.ok fine, ?_⟩
      rw [if_pos same.symm, ← log, before]
      rfl
    · have apart' : captured.call ≠ i := by
        rintro rfl
        exact other same.symm
      rw [if_neg apart', List.append_nil]
      exact apart.queued i w' found
  case past =>
    intro i f mem
    rcases List.mem_append.mp mem with mem | mem
    · exact apart.past i f mem
    · obtain ⟨f, -, eq⟩ := List.mem_map.mp mem
      cases eq
      exact bound
  case handed => exact apart.handed

end task

theorem handed_own {mine ours : Nat → Prop} {c : Client} {b : ClientAct} {d : DataInfo}
    (owns : c.Owns mine ours) (hand : c.handed b = some (d, n)) : ours n := by
  unfold Client.handed at hand
  split at hand
  · split at hand
    · rename_i main
      cases hand
      exact (owns.forwarding _ _ _ main).2
    · cases hand
  · cases hand

theorem Apart.step (apart : s.Apart) (h : s.step a = some s') :
    s'.Apart ∧ ∀ j < s.calls.length, s.actor a ≠ some j → Untouched s s' j := by
  have quiet : ∀ {loop : LoopMain} {attempt : UInt32}, Apart { s with loop, attempt } ∧
      ∀ j < s.calls.length, s.actor a ≠ some j → Untouched s { s with loop, attempt } j := by
    intro loop attempt
    obtain ⟨holders, captured, tunnels, own, caught, held, owns, home, queued, past, handed⟩ := apart
    refine ⟨⟨holders, captured, tunnels, own, caught, held, ?_, home, queued, past, handed⟩,
      fun j _ _ => untouched_loop⟩
    exact fun k call w found => (owns k call w found).view rfl
  cases a with
  | connectFailed | handshakeFailed =>
      obtain ⟨-, same⟩ := Option.ite_none_right_eq_some.mp h
      cases same
      exact quiet
  | connected sndBuf =>
      obtain ⟨-, same⟩ := Option.ite_none_right_eq_some.mp h
      cases same
      exact ⟨apart_connected apart sndBuf, fun j bound _ => untouched_connected apart bound⟩
  | returned =>
      simp only [Reconnect.step] at h
      cases loop : s.loop with
      | running k =>
          simp only [loop] at h
          obtain ⟨call, -, h⟩ := Option.bind_eq_some_iff.mp h
          obtain ⟨-, same⟩ := Option.ite_none_right_eq_some.mp h
          cases same
          exact quiet
      | _ => simp [loop] at h
  | wake =>
      simp only [Reconnect.step] at h
      cases loop : s.loop with
      | sleeping d =>
          simp only [loop] at h
          cases h
          exact quiet
      | _ => simp [loop] at h
  | call k b =>
      simp only [Reconnect.step] at h
      obtain ⟨main, h⟩ := Option.ite_none_left_eq_some.mp h
      obtain ⟨call, here, h⟩ := Option.bind_eq_some_iff.mp h
      obtain ⟨w, behind, h⟩ := Option.bind_eq_some_iff.mp h
      obtain ⟨c', move, rfl⟩ := Option.map_eq_some_iff.mp h
      have move := Client.moves_of_step move
      have main : b.isEndpoint = false := by simpa using main
      obtain ⟨-, within⟩ := (apart.owns k call w here).step move main
      have after := apart_call apart here behind move main
      refine ⟨?_, fun j _ other => ?_⟩
      · obtain ⟨holders, captured, tunnels, own, caught, held, owns, home, queued, past, handed⟩ :=
          after
        refine ⟨holders, captured, tunnels, own, caught, held, ?_, home, queued, past, ?_⟩
        · exact fun i call' w' found => (owns i call' w' found).view rfl
        · intro i d n mem
          rcases List.mem_append.mp mem with old | new
          · exact handed i d n old
          · obtain ⟨⟨d', n'⟩, hand, same⟩ := Option.map_eq_some_iff.mp (Option.mem_toList.mp new)
            cases same
            have own := handed_own (apart.owns k call w here) hand
            show (s.commit k call.tunnel w c').opened k n'
            exact (opened_commit apart within.links_le).mpr (Or.inl own)
      · have untouched := untouched_call apart here within
          (fun same : j = k => other (same ▸ rfl))
        obtain ⟨call, tunnel, holds, maps, opened, links⟩ := untouched
        exact ⟨call, tunnel, holds, maps, opened, links⟩
  | writer k b =>
      obtain ⟨call, here, h⟩ := Option.bind_eq_some_iff.mp h
      obtain ⟨w, behind, h⟩ := Option.bind_eq_some_iff.mp h
      obtain ⟨w', move, rfl⟩ := Option.map_eq_some_iff.mp h
      exact ⟨apart_writer apart behind move,
        fun j _ other => untouched_writer apart here fun same : j = k => other (same ▸ rfl)⟩
  | task b =>
      obtain ⟨n, link, h⟩ := Option.bind_eq_some_iff.mp h
      obtain ⟨captured, caught, h⟩ := Option.bind_eq_some_iff.mp h
      obtain ⟨w, behind, h⟩ := Option.bind_eq_some_iff.mp h
      obtain ⟨e, move, rfl⟩ := Option.map_eq_some_iff.mp h
      have bound : n < s.links.length := apart.captured ▸ Slots.get_lt caught
      have here : s.links[n]? = some s.links[n] := List.getElem?_eq_getElem bound
      have tasked := Endpoint.tasked_of_step (Endpoint.moves_of_step move) link here
      refine ⟨apart_task apart caught behind here tasked, fun j _ other => ?_⟩
      refine untouched_task apart caught here tasked fun same => other ?_
      simp [actor, link, caught, same]

theorem apart_of_run {config : List ClientInfo} (run : Reach step (start config) s) : s.Apart :=
  Run.induct run (apart_start config) fun _ _ _ _ ih _ move => (ih.step move).1

theorem sessions_apart (config : List ClientInfo) (s : Reconnect)
    (run : Reach step (start config) s) :
    (∀ (j k : Nat) (call call' : Call), s.calls[j]? = some call → s.calls[k]? = some call' →
      call.tunnel = call'.tunnel → j = k) ∧
    (∀ (k : Nat) (call : Call) (w : FrameWriter), s.calls[k]? = some call →
      s.tunnels[call.tunnel]? = some w → w.wire.log <+: s.sentBy k) ∧
    (∀ k d n, (k, d, n) ∈ s.delivered → s.opened k n) ∧
    (∀ a s', s.step a = some s' → ∀ j < s.calls.length, s.actor a ≠ some j → Untouched s s' j) := by
  have apart := apart_of_run run
  refine ⟨?_, ?_, apart.handed, fun a s' move => (apart.step move).2⟩
  · intro j k call call' here here' same
    rw [apart.own j call here, apart.own k call' here'] at same
    exact same
  · intro k call w here behind
    rw [apart.own k call here] at behind
    obtain ⟨ok, log⟩ := apart.queued k w behind
    exact log ▸ ok.wire_isPrefix

def opensConn (k : Nat) (client : ClientInfo) : List ReconnectAct :=
  [.connected 8, .call k .register, .call k (.recv (.registerAck ⟨client, true, 0⟩)),
    .call k (.recv (.data ⟨0, 0, [1]⟩)), .call k (.connected 8), .call k .forward]

theorem sessions_apart_overlap : ∃ s s' : Reconnect,
    s.step (.task (.remove 0)) = some s' ∧ Untouched s s' 1 ∧
    s.links.map (fun l => (l.proxyId, l.connId)) = [(0, 0), (0, 0)] := by
  let ssh : ClientInfo := ⟨"ssh", 22001, "127.0.0.1", 22, "tcp", "127.0.0.1:22"⟩
  have view : (exec step (start [ssh]) (opensConn 0 ssh ++ [.call 0 (.exit .eof), .returned, .wake] ++
      opensConn 1 ssh ++ [.task (.conn 0 .peerShutdown), .task (.conn 0 .readEof)])).map
        (fun s => (((s.step (.task (.remove 0))).isSome, s.actor (.task (.remove 0))),
          s.calls.length, s.links.map fun l => (l.proxyId, l.connId))) =
        some ((true, some 0), 2, [(0, 0), (0, 0)]) := by decide
  obtain ⟨s, run, view⟩ := Option.map_eq_some_iff.mp view
  simp only [Prod.mk.injEq] at view
  obtain ⟨⟨moves, actor⟩, calls, ids⟩ := view
  obtain ⟨s', move⟩ := Option.isSome_iff_exists.mp moves
  have apart := sessions_apart [ssh] s (reach_of_exec _ run)
  exact ⟨s, s', move, apart.2.2.2 _ s' move 1 (by omega) (by simp [actor]), ids⟩

end Reconnect

end Rfrp
