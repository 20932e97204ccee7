import Rfrp.Proto.EndpointLaws

/-!
# The downstream

What a main loop does with the Data frames it receives: it hands each payload to the connection it
finds under the frame's ids, or loses it. `Feeds` says how one step of either side moves payloads;
from it follow that a connection gets a subsequence of the payloads sent under its ids, and, where
none was lost to it, exactly a prefix.
-/

namespace Rfrp

variable {τ : Type}

/-- The payload that a main loop is sending to connection `n`. -/
def handFor (hand : Option (Nat × Bytes)) (n : Nat) : List Bytes :=
  match hand with
  | some (m, data) => if m = n then [data] else []
  | none => []

@[simp] theorem handFor_none (n : Nat) : handFor none n = [] := rfl

@[simp] theorem handFor_self (n : Nat) (data : Bytes) : handFor (some (n, data)) n = [data] :=
  if_pos rfl

theorem handFor_ne {n m : Nat} (other : n ≠ m) (data : Bytes) : handFor (some (m, data)) n = [] :=
  if_neg (Ne.symm other)

namespace Endpoint

variable {o : Owners} {e e' : Endpoint τ} {a : EndpointAct} {n m : Nat} {l l' : Link τ}

structure Undisturbed (e e' : Endpoint τ) : Prop where
  ident : e'.links.map Link.ident = e.links.map Link.ident
  logs : (e'.links.map fun l => l.conn.chan.log) = e.links.map fun l => l.conn.chan.log
  fewer : ∀ m c n, e'.lookup m c = some n → e.lookup m c = some n
  gone : ∀ (n : Nat) (l l' : Link τ), e.links[n]? = some l → e'.links[n]? = some l' →
    l.conn.writer = .done → l'.conn.writer = .done

theorem Undisturbed.refl (e : Endpoint τ) : Undisturbed e e :=
  ⟨rfl, rfl, fun _ _ _ found => found, fun n l l' here here' done => by
    rw [here] at here'
    cases here'
    exact done⟩

theorem Undisturbed.setLink (here : e.links[n]? = some l) {conn : Conn}
    (logs : conn.chan.log = l.conn.chan.log)
    (gone : l.conn.writer = .done → conn.writer = .done) :
    Undisturbed e (e.setLink n (l.setConn conn)) := by
  refine ⟨map_setLink _ here rfl, map_setLink _ here logs, fun _ _ _ found => found, ?_⟩
  intro m k k' found found' done
  rcases Slots.get_set found' with ⟨rfl, rfl⟩ | ⟨-, found'⟩
  · rw [here] at found
    cases found
    exact gone done
  · rw [found] at found'
    cases found'
    exact done

theorem Undisturbed.same {e e' : Endpoint τ} (links : e'.links = e.links)
    (fewer : ∀ m c n, e'.lookup m c = some n → e.lookup m c = some n) : Undisturbed e e' := by
  refine ⟨by rw [links], by rw [links], fewer, fun n l l' here here' done => ?_⟩
  rw [links, here] at here'
  cases here'
  exact done

theorem undisturbed_step (h : e.step o a = some e') : Undisturbed e e' := by
  refine ⟨step_ident h, step_chan_log h, step_lookup h, fun n l l' here here' done => ?_⟩
  have same : ∀ {k : Nat} {u u' : Link τ}, (e.links.set k u')[n]? = some l' →
      e.links[k]? = some u → (u.conn.writer = .done → u'.conn.writer = .done) →
      l'.conn.writer = .done := by
    intro k u u' found' found gone
    rcases Slots.get_set found' with ⟨rfl, rfl⟩ | ⟨-, found'⟩
    · rw [here] at found
      cases found
      exact gone done
    · rw [here] at found'
      cases found'
      exact done
  cases moves_of_step h with
  | writer =>
      rw [here] at here'
      cases here'
      exact done
  | conn found move =>
      refine same here' found fun done => ?_
      rcases Conn.step_writer move with eq | ⟨-, live, -⟩
      · exact eq.trans done
      · exact absurd done live
  | sendData found => exact same here' found id
  | sendDataErr found => exact same here' found id
  | remove found => exact same here' found id
  | finish found => exact same here' found id

theorem undisturbed_enqueue {f : RfrpFrame} (h : e.enqueue f = some e') : Undisturbed e e' := by
  obtain ⟨-, rfl⟩ := enqueue_eq_some h
  exact .same rfl fun _ _ _ found => found

theorem undisturbed_addMap : Undisturbed e { e with maps := e.maps ++ [.empty] } :=
  .same rfl fun _ _ _ => lookup_addMap

theorem undisturbed_removeEntry {c : UInt64} :
    Undisturbed e { e with maps := e.maps.modify m fun map => map.remove c } :=
  .same rfl fun _ _ _ found => (lookup_modify_remove found).1

/-- How one step of a side moves the payloads of the Data frames it has received. -/
inductive Feeds : Endpoint τ → Option (Nat × Bytes) → List DataInfo →
    Endpoint τ → Option (Nat × Bytes) → List DataInfo → Prop
  | idle {e e' : Endpoint τ} {hand : Option (Nat × Bytes)} {frames : List DataInfo}
      (quiet : Undisturbed e e') : Feeds e hand frames e' hand frames
  -- the connection of the frame's ids is found
  | route {e e' : Endpoint τ} {frames : List DataInfo} {n : Nat} {l : Link τ} {d : DataInfo}
      (quiet : Undisturbed e e') (here : e.links[n]? = some l) (proxy : l.proxyId = d.proxyId)
      (conn : l.connId = d.connId) (found : e.lookup l.map l.connId = some n)
      (only : ∀ (k : Nat) (l' : Link τ), e.links[k]? = some l' → l'.proxyId = d.proxyId →
        l'.connId = d.connId → e.lookup l'.map l'.connId = some k → k = n) :
      Feeds e none frames e' (some (n, d.data)) (frames ++ [d])
  -- no connection is entered under the frame's ids
  | miss {e e' : Endpoint τ} {frames : List DataInfo} {d : DataInfo} (quiet : Undisturbed e e')
      (unreached : ∀ (k : Nat) (l' : Link τ), e.links[k]? = some l' → l'.proxyId = d.proxyId →
        l'.connId = d.connId → e.lookup l'.map l'.connId ≠ some k) :
      Feeds e none frames e' none (frames ++ [d])
  | deliver {e e' : Endpoint τ} {frames : List DataInfo} {n : Nat} {data : Bytes}
      (sent : e.deliver n data = some e') : Feeds e (some (n, data)) frames e' none frames
  | lose {e e' : Endpoint τ} {frames : List DataInfo} {n : Nat} {data : Bytes}
      (quiet : Undisturbed e e') (gone : e.undeliverable n = true) :
      Feeds e (some (n, data)) frames e' none frames
  | add {e : Endpoint τ} {hand : Option (Nat × Bytes)} {frames : List DataInfo} {info : τ}
      {p : UInt32} {c : UInt64} {m : Nat} {conn : Conn} (fresh : conn.chan.log = []) :
      Feeds e hand frames (e.addLink info p c m conn) hand frames
  -- a connection opened for the frame just received
  | open {e : Endpoint τ} {frames : List DataInfo} {info : τ} {p : UInt32} {c : UInt64} {m : Nat}
      {conn : Conn} {data : Bytes} (fresh : conn.chan.log = []) :
      Feeds e none frames (e.addLink info p c m conn) (some (e.links.length, data)) frames

variable {hand hand' : Option (Nat × Bytes)} {frames frames' : List DataInfo}

theorem Undisturbed.length (quiet : Undisturbed e e') : e'.links.length = e.links.length := by
  simpa using congrArg List.length quiet.ident

theorem Feeds.hand_lt (h : Feeds e hand frames e' hand' frames')
    (before : ∀ n data, hand = some (n, data) → n < e.links.length) :
    ∀ n data, hand' = some (n, data) → n < e'.links.length := by
  intro n data held
  cases h with
  | idle quiet => exact quiet.length ▸ before n data held
  | route quiet here =>
      cases held
      exact quiet.length ▸ Slots.get_lt here
  | miss | deliver | lose => cases held
  | add => exact Nat.lt_of_lt_of_le (before n data held) (by simp [Endpoint.addLink])
  | «open» =>
      cases held
      simp [Endpoint.addLink]

/-! ## Subsequences -/

def Downstream (e : Endpoint τ) (hand : Option (Nat × Bytes)) (frames : List DataInfo) : Prop :=
  ∀ (n : Nat) (l : Link τ), e.links[n]? = some l →
    (l.conn.chan.log ++ handFor hand n).Sublist (payloads l.proxyId l.connId frames)

theorem Downstream.received (down : e.Downstream hand frames) (here : e.links[n]? = some l) :
    l.conn.chan.received.Sublist (payloads l.proxyId l.connId frames) :=
  ((Fifo.received_isPrefix _).sublist.trans (List.sublist_append_left _ _)).trans (down n l here)

theorem undisturbed_link (quiet : Undisturbed e e') (here' : e'.links[n]? = some l') :
    ∃ l, e.links[n]? = some l ∧ l.ident = l'.ident ∧ l.conn.chan.log = l'.conn.chan.log := by
  obtain ⟨l, here, ident⟩ := Slots.get_of_map Link.ident quiet.ident here'
  obtain ⟨k, found, logs⟩ := Slots.get_of_map _ quiet.logs here'
  rw [here] at found
  cases found
  exact ⟨l, here, ident, logs⟩

theorem Undisturbed.slot (quiet : Undisturbed e e') (here' : e'.links[n]? = some l') :
    ∃ l, e.links[n]? = some l ∧
      (∀ frames, payloads l'.proxyId l'.connId frames = payloads l.proxyId l.connId frames) ∧
      l'.conn.chan.log = l.conn.chan.log ∧
      (e'.lookup l'.map l'.connId = some n → e.lookup l.map l.connId = some n) ∧
      (l'.conn.writer ≠ .done → l.conn.writer ≠ .done) := by
  obtain ⟨l, here, ident, logs⟩ := undisturbed_link quiet here'
  simp only [Link.ident, Prod.mk.injEq] at ident
  refine ⟨l, here, fun frames => by rw [ident.2.1, ident.2.2.1], logs.symm, fun entry => ?_,
    fun live done => live (quiet.gone n l l' here here' done)⟩
  rw [ident.2.2.1, ident.2.2.2]
  exact quiet.fewer _ _ _ entry

theorem Downstream.feeds (down : e.Downstream hand frames)
    (h : Feeds e hand frames e' hand' frames')
    (new : ∀ l, e'.links[e.links.length]? = some l →
      (handFor hand' e.links.length).Sublist (payloads l.proxyId l.connId frames')) :
    e'.Downstream hand' frames' := by
  have quietly : ∀ more : List DataInfo, Undisturbed e e' → hand' = hand →
      frames' = frames ++ more → e'.Downstream hand' frames' := by
    rintro more quiet rfl rfl n l' here'
    obtain ⟨l, here, same, logs, -⟩ := quiet.slot here'
    rw [same, logs, payloads_append]
    exact (down n l here).trans (List.sublist_append_left _ _)
  cases h with
  | idle quiet => exact quietly [] quiet rfl (by simp)
  | miss quiet => exact quietly _ quiet rfl rfl
  | @route _ _ k r d quiet here proxy conn =>
      intro n l' here'
      obtain ⟨l, found, same, logs, -⟩ := quiet.slot here'
      rw [same, logs, payloads_append]
      have before := down n l found
      rw [handFor_none, List.append_nil] at before
      apply before.append
      by_cases hit : n = k
      · subst hit
        rw [here] at found
        cases found
        simp [payloads_singleton, proxy, conn]
      · simp [handFor_ne hit]
  | deliver sent =>
      obtain ⟨k, here, -, rfl⟩ := deliver_eq_some sent
      intro n l' here'
      rcases Slots.get_set here' with ⟨rfl, rfl⟩ | ⟨-, found⟩
      · simpa [Link.setConn] using down _ k here
      · rw [handFor_none, List.append_nil]
        exact (List.sublist_append_left _ _).trans (down n l' found)
  | lose quiet =>
      intro n l' here'
      obtain ⟨l, here, same, logs, -⟩ := quiet.slot here'
      rw [same, logs, handFor_none, List.append_nil]
      exact (List.sublist_append_left _ _).trans (down n l here)
  | add fresh =>
      intro n l' here'
      rcases Slots.get_append here' with found | ⟨rfl, rfl⟩
      · exact down n l' found
      · simpa [fresh] using new _ here'
  | «open» fresh =>
      intro n l' here'
      rcases Slots.get_append here' with found | ⟨rfl, rfl⟩
      · have other : n ≠ e.links.length := Nat.ne_of_lt (Slots.get_lt found)
        simpa [handFor_ne other] using down n l' found
      · simpa [fresh] using new _ here'

/-! ## Prefixes -/

def NoGaps (e : Endpoint τ) (hand : Option (Nat × Bytes)) (frames : List DataInfo) : Prop :=
  ∀ (n : Nat) (l : Link τ), e.links[n]? = some l →
    l.conn.chan.log <+: payloads l.proxyId l.connId frames ∧
      ((e.lookup l.map l.connId = some n ∨ ∃ data, hand = some (n, data)) →
        l.conn.writer ≠ .done →
        l.conn.chan.log ++ handFor hand n = payloads l.proxyId l.connId frames)

theorem NoGaps.feeds (whole : e.NoGaps hand frames) (h : Feeds e hand frames e' hand' frames')
    (new : ∀ l, e'.links[e.links.length]? = some l →
      handFor hand' e.links.length = payloads l.proxyId l.connId frames') :
    e'.NoGaps hand' frames' := by
  cases h with
  | idle quiet =>
      intro n l' here'
      obtain ⟨l, found, same, logs, reach, live⟩ := quiet.slot here'
      obtain ⟨pre, eq⟩ := whole n l found
      rw [same, logs]
      exact ⟨pre, fun reached served => eq (reached.imp_left reach) (live served)⟩
  | miss quiet unreached =>
      intro n l' here'
      obtain ⟨l, found, same, logs, reach, live⟩ := quiet.slot here'
      obtain ⟨pre, eq⟩ := whole n l found
      rw [same, logs, payloads_append]
      refine ⟨pre.trans (List.prefix_append _ _), fun reached served => ?_⟩
      have entry := reach (reached.resolve_right (by simp))
      rw [payloads_singleton,
        if_neg fun ids => unreached n l found ids.1.symm ids.2.symm entry, List.append_nil]
      exact eq (Or.inl entry) (live served)
  | @route _ _ k r d quiet there proxy conn entry only =>
      intro n l' here'
      obtain ⟨l, found, same, logs, reach, live⟩ := quiet.slot here'
      obtain ⟨pre, eq⟩ := whole n l found
      rw [same, logs, payloads_append]
      refine ⟨pre.trans (List.prefix_append _ _), fun reached served => ?_⟩
      by_cases hit : n = k
      · subst hit
        rw [there] at found
        cases found
        rw [handFor_self, payloads_singleton, if_pos ⟨proxy.symm, conn.symm⟩,
          ← eq (Or.inl entry) (live served), handFor_none, List.append_nil]
      · have entry' : e.lookup l.map l.connId = some n := by
          rcases reached with reached | ⟨data, held⟩
          · exact reach reached
          · cases held
            exact absurd rfl hit
        rw [handFor_ne hit, payloads_singleton,
          if_neg fun ids => hit (only n l found ids.1.symm ids.2.symm entry'), List.append_nil]
        simpa using eq (Or.inl entry') (live served)
  | @deliver _ _ k data sent =>
      obtain ⟨t, there, live, rfl⟩ := deliver_eq_some sent
      intro n l' here'
      rcases Slots.get_set here' with ⟨rfl, rfl⟩ | ⟨other, found⟩
      · have eq := (whole n t there).2 (Or.inr ⟨data, rfl⟩) live
        rw [handFor_self] at eq
        have log : (t.setConn { t.conn with chan := t.conn.chan.push data }).conn.chan.log =
            payloads t.proxyId t.connId frames := eq
        rw [log]
        exact ⟨List.prefix_rfl, fun _ _ => by simp [Link.setConn]⟩
      · obtain ⟨pre, eq⟩ := whole n l' found
        refine ⟨pre, fun reached served => ?_⟩
        have := eq (Or.inl (reached.resolve_right (by simp))) served
        rwa [handFor_ne other] at this
  | @lose _ _ k data quiet gone =>
      intro n l' here'
      obtain ⟨l, found, same, logs, reach, live⟩ := quiet.slot here'
      obtain ⟨pre, eq⟩ := whole n l found
      rw [same, logs]
      refine ⟨pre, fun reached served => ?_⟩
      have other : n ≠ k := by
        rintro rfl
        simp only [undeliverable, found, Conn.closed, decide_eq_true_eq] at gone
        exact live served gone
      have := eq (Or.inl (reach (reached.resolve_right (by simp)))) (live served)
      rwa [handFor_ne other] at this
  | add fresh =>
      intro n l' here'
      rcases Slots.get_append here' with found | ⟨rfl, rfl⟩
      · obtain ⟨pre, eq⟩ := whole n l' found
        refine ⟨pre, fun reached served => eq (reached.imp_left fun entry => ?_) served⟩
        exact lookup_addLink_lt entry (Slots.get_lt found)
      · simp only [fresh, List.nil_append]
        exact ⟨List.nil_prefix, fun _ _ => new _ here'⟩
  | «open» fresh =>
      intro n l' here'
      rcases Slots.get_append here' with found | ⟨rfl, rfl⟩
      · have other : n ≠ e.links.length := Nat.ne_of_lt (Slots.get_lt found)
        obtain ⟨pre, eq⟩ := whole n l' found
        refine ⟨pre, fun reached served => ?_⟩
        rw [handFor_ne other]
        refine eq (Or.inl ?_) served
        rcases reached with entry | ⟨data, held⟩
        · exact lookup_addLink_lt entry (Slots.get_lt found)
        · cases held
          exact absurd rfl other
      · simp only [fresh, List.nil_append]
        exact ⟨List.nil_prefix, fun _ _ => new _ here'⟩

/-! ## Losses are final -/

def Lost (e : Endpoint τ) (hand : Option (Nat × Bytes)) (n : Nat) (l : Link τ) : Prop :=
  e.links[n]? = some l ∧
    (l.conn.writer = .done ∨
      (e.lookup l.map l.connId ≠ some n ∧ ∀ data, hand ≠ some (n, data)))

theorem NoGaps.lost (whole : e.NoGaps hand frames) (here : e.links[n]? = some l)
    (missing : l.conn.chan.log ++ handFor hand n ≠ payloads l.proxyId l.connId frames) :
    e.Lost hand n l := by
  refine ⟨here, ?_⟩
  by_contra reached
  rw [not_or, not_and_or, not_not, not_forall] at reached
  obtain ⟨live, reached⟩ := reached
  apply missing
  refine (whole n l here).2 (reached.imp_right ?_) live
  intro ⟨data, held⟩
  exact ⟨data, not_not.mp held⟩

theorem Lost.quiet (lost : e.Lost hand n l) (quiet : Undisturbed e e')
    (kept : (∀ data, hand ≠ some (n, data)) → e.lookup l.map l.connId ≠ some n →
      ∀ data, hand' ≠ some (n, data)) :
    ∃ l', e'.Lost hand' n l' ∧ l'.conn.chan.log = l.conn.chan.log := by
  obtain ⟨here, lost⟩ := lost
  obtain ⟨l', here', ident⟩ := Slots.get_of_map Link.ident quiet.ident.symm here
  obtain ⟨k, found, same, logs⟩ := undisturbed_link quiet here'
  cases here.symm.trans found
  simp only [Link.ident, Prod.mk.injEq] at ident
  refine ⟨l', ⟨here', ?_⟩, logs.symm⟩
  rcases lost with done | ⟨unreached, idle⟩
  · exact Or.inl (quiet.gone n l l' here here' done)
  · refine Or.inr ⟨fun entry => unreached ?_, kept idle unreached⟩
    rw [← ident.2.2.1, ← ident.2.2.2]
    exact quiet.fewer _ _ _ entry

theorem Lost.feeds (lost : e.Lost hand n l) (h : Feeds e hand frames e' hand' frames') :
    ∃ l', e'.Lost hand' n l' ∧ l'.conn.chan.log = l.conn.chan.log := by
  cases h with
  | idle quiet => exact lost.quiet quiet fun idle _ => idle
  | miss quiet => exact lost.quiet quiet fun _ _ _ => nofun
  | lose quiet => exact lost.quiet quiet fun _ _ _ => nofun
  | @route _ _ k r d quiet there _ _ entry =>
      apply lost.quiet quiet
      intro _ unreached data held
      cases held
      cases lost.1.symm.trans there
      exact unreached entry
  | @deliver _ _ k data sent =>
      obtain ⟨u, there, live, rfl⟩ := deliver_eq_some sent
      obtain ⟨here, lost⟩ := lost
      by_cases same : n = k
      · subst same
        cases here.symm.trans there
        rcases lost with done | ⟨-, idle⟩
        · exact absurd done live
        · exact absurd rfl (idle data)
      · exact ⟨l, ⟨(Slots.get_set_ne same).trans here, lost.imp_right fun h => ⟨h.1, nofun⟩⟩, rfl⟩
  | add =>
      obtain ⟨here, lost⟩ := lost
      refine ⟨l, ⟨Slots.get_append_left here, lost.imp_right fun h => ⟨fun entry => ?_, h.2⟩⟩, rfl⟩
      exact h.1 (lookup_addLink_lt entry (Slots.get_lt here))
  | «open» =>
      obtain ⟨here, lost⟩ := lost
      have other := Nat.ne_of_lt (Slots.get_lt here)
      refine ⟨l, ⟨Slots.get_append_left here, lost.imp_right fun h => ⟨fun entry => ?_, ?_⟩⟩, rfl⟩
      · exact h.1 (lookup_addLink_lt entry (Slots.get_lt here))
      · intro data held
        cases held
        exact other rfl

end Endpoint

end Rfrp
