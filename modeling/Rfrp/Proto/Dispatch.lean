import Rfrp.Proto.Downstream

/-!
# Handing payloads over

What becomes of a row of Data frames when no connection holds the main loop up: every open
connection gets the payloads under its ids, in order, and nothing else happens to it.
-/

namespace Rfrp

variable {τ : Type}

def Link.give (l : Link τ) (data : List Bytes) : Link τ :=
  l.setConn { l.conn with chan := l.conn.chan.pushAll data }

namespace Endpoint

variable {e e' e'' : Endpoint τ} {fs gs : List DataInfo} {d : DataInfo} {n : Nat} {l : Link τ}

structure Open (e : Endpoint τ) (n : Nat) (l : Link τ) : Prop where
  here : e.links[n]? = some l
  entry : e.lookup l.map l.connId = some n
  live : l.conn.writer ≠ .done

structure Takes (fs : List DataInfo) (e e' : Endpoint τ) : Prop where
  length : e'.links.length = e.links.length
  link : ∀ (n : Nat) (l : Link τ), e.links[n]? = some l → ∃ data : List Bytes,
    e'.links[n]? = some (l.give data) ∧ data.Sublist (payloads l.proxyId l.connId fs) ∧
      (e.Open n l → data = payloads l.proxyId l.connId fs)
  entries : ∀ m c n, e.lookup m c = some n → e'.lookup m c = some n

def Room (fs : List DataInfo) (e : Endpoint τ) : Prop :=
  ∀ (n : Nat) (l : Link τ), e.links[n]? = some l →
    l.conn.chan.queue.length + (payloads l.proxyId l.connId fs).length ≤ channelCapacity

theorem give_nil (l : Link τ) : l.give [] = l := by
  simp [Link.give, Link.setConn, Fifo.pushAll]

theorem give_give (l : Link τ) (data more : List Bytes) :
    (l.give data).give more = l.give (data ++ more) := by
  simp [Link.give, Link.setConn, Fifo.pushAll]

theorem Takes.idle (links : e'.links = e.links)
    (entries : ∀ m c n, e.lookup m c = some n → e'.lookup m c = some n)
    (none : ∀ n l, e.Open n l → payloads l.proxyId l.connId fs = []) : Takes fs e e' := by
  refine ⟨by rw [links], fun n l here => ⟨[], ?_, List.nil_sublist _, fun up => ?_⟩, entries⟩
  · rw [links, give_nil, here]
  · exact (none n l up).symm

theorem Takes.open (takes : Takes fs e e') (up : e.Open n l) :
    e'.Open n (l.give (payloads l.proxyId l.connId fs)) := by
  obtain ⟨data, here, -, whole⟩ := takes.link n l up.here
  rw [whole up] at here
  exact ⟨here, takes.entries _ _ _ up.entry, up.live⟩

theorem Takes.trans (first : Takes fs e e') (second : Takes gs e' e'') :
    Takes (fs ++ gs) e e'' := by
  refine ⟨second.length.trans first.length, fun n l here => ?_,
    fun m c n found => second.entries m c n (first.entries m c n found)⟩
  obtain ⟨data, here', sub, whole⟩ := first.link n l here
  obtain ⟨more, here'', sub', whole'⟩ := second.link n _ here'
  have ids : payloads (l.give data).proxyId (l.give data).connId gs =
      payloads l.proxyId l.connId gs := rfl
  rw [ids] at sub' whole'
  refine ⟨data ++ more, by rw [here'', give_give], ?_, fun up => ?_⟩
  · rw [payloads_append]
    exact sub.append sub'
  · have up' := first.open up
    rw [← whole up] at up'
    rw [payloads_append, ← whole up, ← whole' up']

theorem Room.left (room : Room (fs ++ gs) e) : Room fs e := by
  intro n l here
  have all := room n l here
  rw [payloads_append, List.length_append] at all
  omega

theorem Room.rest (room : Room (fs ++ gs) e) (takes : Takes fs e e') : Room gs e' := by
  intro n l' here'
  have bound : n < e.links.length := takes.length ▸ Slots.get_lt here'
  have here := List.getElem?_eq_getElem bound
  obtain ⟨data, found, sub, -⟩ := takes.link n _ here
  obtain rfl := Option.some.inj (found.symm.trans here')
  have all := room n _ here
  have less := sub.length_le
  simp only [Link.give, Link.setConn, Fifo.queue_pushAll, payloads_append, List.length_append]
    at all ⊢
  omega

theorem takes_deliver (here : e.links[n]? = some l) (proxy : l.proxyId = d.proxyId)
    (conn : l.connId = d.connId) (live : l.conn.writer ≠ .done) (room : Room [d] e)
    (only : ∀ k l', e.Open k l' → l'.proxyId = d.proxyId → l'.connId = d.connId → k = n) :
    ∃ e', e.deliver n d.data = some e' ∧ Takes [d] e e' := by
  have mine : payloads l.proxyId l.connId [d] = [d.data] := by
    rw [payloads_singleton, if_pos ⟨proxy.symm, conn.symm⟩]
  have less := room n l here
  rw [mine, List.length_singleton] at less
  refine ⟨e.setLink n (l.give [d.data]), ?_, by simp, fun k l' found => ?_,
    fun _ _ _ entry => entry⟩
  · have free : l.conn.chan.queue.length < channelCapacity := less
    simp [deliver, here, Conn.send, Conn.closed, live, free, Link.give, Fifo.push]
  · by_cases same : k = n
    · subst same
      obtain rfl := Option.some.inj (here.symm.trans found)
      exact ⟨[d.data], Slots.get_set_self here, by rw [mine], fun _ => mine.symm⟩
    · refine ⟨[], ?_, List.nil_sublist _, fun up => ?_⟩
      · rw [give_nil, setLink_links, Slots.get_set_ne same, found]
      · rw [payloads_singleton, if_neg]
        exact fun ids => same (only k l' up ids.1.symm ids.2.symm)

end Endpoint

end Rfrp
