import Rfrp.Proto.Endpoint
import Rfrp.Proto.ConnLaws

/-!
# What one side of the tunnel preserves

The invariants that hold on the server and on the client alike: connections keep their identity,
map entries point at the connections entered under them, and the Data frames of the frame channel
are exactly what the connections read, each under its own ids and in its own order.
-/

namespace Rfrp

variable {τ : Type}

def Link.ident (l : Link τ) : τ × UInt32 × UInt64 × Nat := (l.info, l.proxyId, l.connId, l.map)

@[simp] theorem Link.ident_setConn (l : Link τ) (conn : Conn) : (l.setConn conn).ident = l.ident :=
  rfl

@[simp] theorem Link.ident_setReader (l : Link τ) (r : ReadTask) : (l.setReader r).ident = l.ident :=
  rfl

/-- The read task has not yet removed the connection's map entry. -/
def Link.attached (l : Link τ) : Bool := !(l.conn.reader matches .ending | .done)

def Link.waiting (l : Link τ) : Bool := l.conn.reader = .unspawned

namespace Endpoint

variable {o : Owners} {e e' : Endpoint τ} {a : EndpointAct} {n m : Nat} {l l' : Link τ}

/-! ## The steps, one constructor each -/

inductive Moves (o : Owners) (e : Endpoint τ) : EndpointAct → Endpoint τ → Prop
  | conn {n : Nat} {l : Link τ} {a : ConnAct} {conn : Conn} (here : e.links[n]? = some l)
      (move : l.conn.step (e.senders o n) a = some conn) :
      Moves o e (.conn n a) (e.setLink n (l.setConn conn))
  | sendData {n : Nat} {l : Link τ} {data : Bytes} {tunnel : FrameWriter}
      (here : e.links[n]? = some l) (hand : l.conn.reader = .sending data)
      (sent : e.tunnel.send (.newDataFrame data l.proxyId l.connId) = some tunnel) :
      Moves o e (.sendData n) ({ e with tunnel }.setLink n (l.setReader .reading))
  | sendDataErr {n : Nat} {l : Link τ} {data : Bytes} (here : e.links[n]? = some l)
      (hand : l.conn.reader = .sending data) (closed : e.tunnel.closed = true) :
      Moves o e (.sendDataErr n) (e.setLink n (l.setReader .cleanup))
  | remove {n : Nat} {l : Link τ} (here : e.links[n]? = some l) (left : l.conn.reader = .cleanup) :
      Moves o e (.remove n)
        ({ e with maps := e.maps.modify l.map fun map => map.remove l.connId }.setLink n
          (l.setReader .ending))
  | finish {n : Nat} {l : Link τ} (here : e.links[n]? = some l) (left : l.conn.reader = .ending) :
      Moves o e (.finish n) (e.setLink n (l.setReader .done))
  | writer {a : WriterAct} {tunnel : FrameWriter}
      (move : e.tunnel.step (e.tunnelSenders o) a = some tunnel) :
      Moves o e (.writer a) { e with tunnel }

theorem moves_of_step (h : e.step o a = some e') : Moves o e a e' := by
  cases a with
  | writer a =>
      obtain ⟨tunnel, move, rfl⟩ := Option.map_eq_some_iff.mp h
      exact .writer move
  | conn n a =>
      obtain ⟨l, here, h⟩ := Option.bind_eq_some_iff.mp h
      obtain ⟨conn, move, rfl⟩ := Option.map_eq_some_iff.mp h
      exact .conn here move
  | sendData n =>
      obtain ⟨l, here, h⟩ := Option.bind_eq_some_iff.mp h
      split at h
      · rename_i data hand
        obtain ⟨tunnel, sent, rfl⟩ := Option.map_eq_some_iff.mp h
        exact .sendData here hand sent
      · cases h
  | sendDataErr n =>
      obtain ⟨l, here, h⟩ := Option.bind_eq_some_iff.mp h
      split at h
      · rename_i data hand
        split at h
        · rename_i closed
          cases h
          exact .sendDataErr here hand closed
        · cases h
      · cases h
  | remove n =>
      obtain ⟨l, here, h⟩ := Option.bind_eq_some_iff.mp h
      split at h
      · rename_i left
        cases h
        exact .remove here left
      · cases h
  | finish n =>
      obtain ⟨l, here, h⟩ := Option.bind_eq_some_iff.mp h
      split at h
      · rename_i left
        cases h
        exact .finish here left
      · cases h

theorem enqueue_eq_some {f : RfrpFrame} (h : e.enqueue f = some e') :
    e.tunnel.task ≠ .done ∧
      e' = { e with tunnel := { e.tunnel with chan := e.tunnel.chan.push f } } := by
  obtain ⟨tunnel, sent, rfl⟩ := Option.map_eq_some_iff.mp h
  obtain ⟨live, rfl⟩ := FrameWriter.send_eq_some sent
  exact ⟨live, rfl⟩

theorem deliver_eq_some {data : Bytes} (h : e.deliver n data = some e') :
    ∃ l, e.links[n]? = some l ∧ l.conn.writer ≠ .done ∧
      e' = e.setLink n (l.setConn { l.conn with chan := l.conn.chan.push data }) := by
  obtain ⟨l, here, h⟩ := Option.bind_eq_some_iff.mp h
  obtain ⟨conn, sent, rfl⟩ := Option.map_eq_some_iff.mp h
  obtain ⟨live, -, rfl⟩ := Conn.send_eq_some sent
  exact ⟨l, here, live, rfl⟩

/-! ## Columns that a step leaves alone -/

theorem map_setLink {β : Type*} (view : Link τ → β) (here : e.links[n]? = some l)
    (same : view l' = view l) : (e.setLink n l').links.map view = e.links.map view :=
  Slots.map_set view here same

theorem step_ident (h : e.step o a = some e') :
    e'.links.map Link.ident = e.links.map Link.ident := by
  cases moves_of_step h with
  | writer => rfl
  | conn here => exact map_setLink _ here rfl
  | sendData here => exact map_setLink _ here rfl
  | sendDataErr here => exact map_setLink _ here rfl
  | remove here => exact map_setLink _ here rfl
  | finish here => exact map_setLink _ here rfl

theorem step_waiting (h : e.step o a = some e') :
    e'.links.map Link.waiting = e.links.map Link.waiting := by
  cases moves_of_step h with
  | writer => rfl
  | conn here move =>
      refine map_setLink _ here ?_
      unfold Link.waiting Link.setConn
      rcases Conn.step_reader move with ⟨same, -⟩ | ⟨old, d, new, -⟩ | ⟨old, new, -⟩ <;> simp [*]
  | sendData here hand => exact map_setLink _ here (by simp [Link.waiting, Link.setReader, hand])
  | sendDataErr here hand => exact map_setLink _ here (by simp [Link.waiting, Link.setReader, hand])
  | remove here left => exact map_setLink _ here (by simp [Link.waiting, Link.setReader, left])
  | finish here left => exact map_setLink _ here (by simp [Link.waiting, Link.setReader, left])

theorem step_chan_log (h : e.step o a = some e') :
    (e'.links.map fun l => l.conn.chan.log) = e.links.map fun l => l.conn.chan.log := by
  cases moves_of_step h with
  | writer => rfl
  | conn here move => exact map_setLink _ here (Conn.step_chan_log move)
  | sendData here => exact map_setLink _ here rfl
  | sendDataErr here => exact map_setLink _ here rfl
  | remove here => exact map_setLink _ here rfl
  | finish here => exact map_setLink _ here rfl

theorem step_maps_length (h : e.step o a = some e') : e'.maps.length = e.maps.length := by
  cases moves_of_step h with
  | remove => simp [setLink]
  | _ => rfl

theorem step_tunnel_log (h : e.step o a = some e') :
    e'.tunnel.chan.log = e.tunnel.chan.log ∨
      ∃ n l data, a = .sendData n ∧ e.links[n]? = some l ∧ l.conn.reader = .sending data ∧
        e.tunnel.task ≠ .done ∧
        e'.tunnel.chan.log = e.tunnel.chan.log ++ [.newDataFrame data l.proxyId l.connId] := by
  cases moves_of_step h with
  | writer move => exact Or.inl (FrameWriter.step_log move)
  | sendData here hand sent =>
      exact Or.inr ⟨_, _, _, rfl, here, hand, (FrameWriter.send_eq_some sent).1,
        FrameWriter.send_log sent⟩
  | _ => exact Or.inl rfl

theorem step_wire (h : e.step o a = some e') (other : a ≠ .writer .peerReads) :
    e'.tunnel.wire.received = e.tunnel.wire.received := by
  cases moves_of_step h with
  | writer move => exact FrameWriter.step_wire move fun same => other (same ▸ rfl)
  | sendData _ _ sent =>
      obtain ⟨-, rfl⟩ := FrameWriter.send_eq_some sent
      rfl
  | _ => rfl

/-! ## Local invariants -/

structure Ok (e : Endpoint τ) : Prop where
  tunnel : e.tunnel.Ok
  conns : ∀ (n : Nat) (l : Link τ), e.links[n]? = some l → l.conn.Ok

theorem ok_spawn (sndBuf : Nat) : (spawn sndBuf : Endpoint τ).Ok :=
  ⟨FrameWriter.ok_spawn sndBuf, fun _ _ h => by simp [spawn] at h⟩

theorem Ok.setLink (ok : e.Ok) (new : l'.conn.Ok) : (e.setLink n l').Ok := by
  refine ⟨ok.tunnel, fun m l h => ?_⟩
  rcases Slots.get_set h with ⟨-, rfl⟩ | ⟨-, h⟩
  · exact new
  · exact ok.conns m l h

theorem Ok.withTunnel (ok : e.Ok) {tunnel : FrameWriter} (new : tunnel.Ok) :
    Ok { e with tunnel } :=
  ⟨new, ok.conns⟩

theorem Ok.withMaps (ok : e.Ok) (maps : List (DashMap UInt64 Nat)) : Ok { e with maps } :=
  ⟨ok.tunnel, ok.conns⟩

theorem Ok.step (ok : e.Ok) (h : e.step o a = some e') : e'.Ok := by
  cases moves_of_step h with
  | writer move => exact ⟨ok.tunnel.step move, ok.conns⟩
  | conn here move => exact ok.setLink ((ok.conns _ _ here).step move)
  | sendData here hand sent =>
      exact (ok.withTunnel (ok.tunnel.send sent)).setLink
        ((ok.conns _ _ here).reader (by simp [hand]) (by simp))
  | sendDataErr here hand =>
      exact ok.setLink ((ok.conns _ _ here).reader (by simp [hand]) (by simp))
  | remove here left =>
      exact (ok.withMaps _).setLink ((ok.conns _ _ here).reader (by simp [left]) (by simp))
  | finish here left =>
      exact ok.setLink ((ok.conns _ _ here).reader (by simp [left]) (by simp))

theorem Ok.enqueue {f : RfrpFrame} (ok : e.Ok) (h : e.enqueue f = some e') : e'.Ok := by
  obtain ⟨tunnel, sent, rfl⟩ := Option.map_eq_some_iff.mp h
  exact ok.withTunnel (ok.tunnel.send sent)

theorem Ok.deliver {data : Bytes} (ok : e.Ok) (h : e.deliver n data = some e') : e'.Ok := by
  obtain ⟨l, here, h⟩ := Option.bind_eq_some_iff.mp h
  obtain ⟨conn, sent, rfl⟩ := Option.map_eq_some_iff.mp h
  exact ok.setLink ((ok.conns _ _ here).send sent)

theorem Ok.addLink (ok : e.Ok) {info : τ} {p : UInt32} {c : UInt64} {conn : Conn}
    (new : conn.Ok) : (e.addLink info p c m conn).Ok := by
  refine ⟨ok.tunnel, fun k l h => ?_⟩
  rcases Slots.get_append h with h | ⟨-, rfl⟩
  · exact ok.conns k l h
  · exact new

/-! ## Map entries -/

def Mapped (e : Endpoint τ) : Prop :=
  ∀ m c n, e.lookup m c = some n → ∃ l, e.links[n]? = some l ∧ l.map = m ∧ l.connId = c

theorem mapped_spawn (sndBuf : Nat) : (spawn sndBuf : Endpoint τ).Mapped :=
  fun _ _ _ h => by simp [spawn, lookup] at h

theorem mapped_of_ident (mapped : e.Mapped) (same : e'.links.map Link.ident = e.links.map Link.ident)
    (fewer : ∀ m c n, e'.lookup m c = some n → e.lookup m c = some n) : e'.Mapped := by
  intro m c n h
  obtain ⟨l, here, map, id⟩ := mapped m c n (fewer m c n h)
  obtain ⟨l', here', eq⟩ := Slots.get_of_map Link.ident same.symm here
  simp only [Link.ident, Prod.mk.injEq] at eq
  exact ⟨l', here', eq.2.2.2.trans map, eq.2.2.1.trans id⟩

theorem lookup_modify {f : DashMap UInt64 Nat → DashMap UInt64 Nat} {m' : Nat} {c : UInt64}
    (other : m' = m → ∀ map, f map c = map c) :
    ({ e with maps := e.maps.modify m f } : Endpoint τ).lookup m' c = e.lookup m' c := by
  simp only [lookup, List.getElem?_modify]
  cases e.maps[m']? with
  | none => rfl
  | some map =>
      by_cases same : m = m'
      · simp [same, other same.symm]
      · simp [same]

theorem lookup_modify_remove {c c' : UInt64} {m' : Nat}
    (h : ({ e with maps := e.maps.modify m fun map => map.remove c } : Endpoint τ).lookup m' c' =
      some n) : e.lookup m' c' = some n ∧ ¬ (m' = m ∧ c' = c) := by
  simp only [lookup, List.getElem?_modify] at h ⊢
  cases hm : e.maps[m']? with
  | none => simp [hm] at h
  | some map =>
      simp only [hm, Option.map_eq_map, Option.map_some, Option.bind_some] at h ⊢
      by_cases same : m = m'
      · rw [if_pos same] at h
        obtain ⟨ne, h⟩ := DashMap.remove_eq_some h
        exact ⟨h, fun both => ne both.2⟩
      · rw [if_neg same] at h
        exact ⟨h, fun both => same both.1.symm⟩

theorem lookup_addMap {c : UInt64}
    (h : ({ e with maps := e.maps ++ [.empty] } : Endpoint τ).lookup m c = some n) :
    e.lookup m c = some n := by
  obtain ⟨map, here, entry⟩ := Option.bind_eq_some_iff.mp h
  rcases Slots.get_append here with here | ⟨-, rfl⟩
  · exact Option.bind_eq_some_iff.mpr ⟨map, here, entry⟩
  · cases entry

theorem lookup_addMap_old {c : UInt64} (h : e.lookup m c = some n) :
    ({ e with maps := e.maps ++ [.empty] } : Endpoint τ).lookup m c = some n := by
  obtain ⟨map, here, entry⟩ := Option.bind_eq_some_iff.mp h
  exact Option.bind_eq_some_iff.mpr ⟨map, Slots.get_append_left here, entry⟩

theorem lookup_addLink {info : τ} {p : UInt32} {c c' : UInt64} {m' : Nat} {conn : Conn}
    (h : (e.addLink info p c m conn).lookup m' c' = some n) :
    (m' = m ∧ c' = c ∧ n = e.links.length) ∨ (¬ (m' = m ∧ c' = c) ∧ e.lookup m' c' = some n) := by
  simp only [lookup, addLink, List.getElem?_modify] at h ⊢
  cases hm : e.maps[m']? with
  | none => simp [hm] at h
  | some map =>
      simp only [hm, Option.map_eq_map, Option.map_some, Option.bind_some] at h ⊢
      by_cases same : m = m'
      · rw [if_pos same] at h
        rcases DashMap.insert_eq_some h with ⟨rfl, rfl⟩ | ⟨ne, h⟩
        · exact Or.inl ⟨same.symm, rfl, rfl⟩
        · exact Or.inr ⟨fun both => ne both.2, h⟩
      · rw [if_neg same] at h
        exact Or.inr ⟨fun both => same both.1.symm, h⟩

theorem lookup_addLink_lt {info : τ} {p : UInt32} {c k : UInt64} {m i : Nat} {conn : Conn}
    (entry : (e.addLink info p c m conn).lookup i k = some n) (old : n < e.links.length) :
    e.lookup i k = some n := by
  rcases lookup_addLink entry with ⟨-, -, last⟩ | ⟨-, before⟩
  · exact absurd last (Nat.ne_of_lt old)
  · exact before

theorem step_lookup (h : e.step o a = some e') :
    ∀ m c n, e'.lookup m c = some n → e.lookup m c = some n := by
  cases moves_of_step h with
  | remove here =>
      intro m c n found
      exact (lookup_modify_remove found).1
  | _ => exact fun _ _ _ found => found

theorem Mapped.step (mapped : e.Mapped) (h : e.step o a = some e') : e'.Mapped :=
  mapped_of_ident mapped (step_ident h) (step_lookup h)

theorem Mapped.addLink (mapped : e.Mapped) {info : τ} {p : UInt32} {c : UInt64} {conn : Conn} :
    (e.addLink info p c m conn).Mapped := by
  intro m' c' n h
  rcases lookup_addLink h with ⟨rfl, rfl, rfl⟩ | ⟨-, h⟩
  · exact ⟨⟨info, p, c', m', conn⟩, by simp [Endpoint.addLink], rfl, rfl⟩
  · obtain ⟨l, here, map, id⟩ := mapped m' c' n h
    exact ⟨l, Slots.get_append_left here, map, id⟩

/-! ## The upstream -/

/-- The payloads that connection `n` contributed to a log of Data frames tagged with their
connection. -/
def sentBy (n : Nat) (origin : List (Nat × DataInfo)) : List Bytes :=
  (origin.filter fun x => x.1 = n).map fun x => x.2.data

@[simp] theorem sentBy_nil (n : Nat) : sentBy n [] = [] := rfl

@[simp] theorem sentBy_append (n : Nat) (as bs : List (Nat × DataInfo)) :
    sentBy n (as ++ bs) = sentBy n as ++ sentBy n bs := by
  simp [sentBy]

theorem sentBy_singleton (n k : Nat) (d : DataInfo) :
    sentBy n [(k, d)] = if k = n then [d.data] else [] := by
  by_cases h : k = n <;> simp [sentBy, h]

/-- The Data frames ever queued, tagged with the connection each was read from: every frame carries
its connection's ids, and each connection's frames are what it read, in order. -/
structure Upstream (e : Endpoint τ) (origin : List (Nat × DataInfo)) : Prop where
  frames : dataOf e.tunnel.chan.log = origin.map Prod.snd
  ids : ∀ x ∈ origin, ∃ l, e.links[x.1]? = some l ∧ l.proxyId = x.2.proxyId ∧ l.connId = x.2.connId
  reads : ∀ (n : Nat) (l : Link τ), e.links[n]? = some l → sentBy n origin ++ l.conn.inHand <+: l.conn.reads
  reads_eq : ∀ (n : Nat) (l : Link τ), e.links[n]? = some l →
    l.conn.readerLeft = false ∨ e.tunnel.task ≠ .done →
    sentBy n origin ++ l.conn.inHand = l.conn.reads

theorem upstream_spawn (sndBuf : Nat) : (spawn sndBuf : Endpoint τ).Upstream [] :=
  ⟨rfl, by simp, fun _ _ h => by simp [spawn] at h, fun _ _ h => by simp [spawn] at h⟩

section
variable {origin : List (Nat × DataInfo)}

theorem Upstream.setLink (up : e.Upstream origin) (here : e.links[n]? = some l)
    (ident : l'.ident = l.ident) (reads : sentBy n origin ++ l'.conn.inHand <+: l'.conn.reads)
    (reads_eq : l'.conn.readerLeft = false ∨ e.tunnel.task ≠ .done →
      sentBy n origin ++ l'.conn.inHand = l'.conn.reads) : (e.setLink n l').Upstream origin := by
  refine ⟨up.frames, ?_, ?_, ?_⟩
  · intro x mem
    obtain ⟨k, found, p, c⟩ := up.ids x mem
    obtain ⟨k', found', eq⟩ := Slots.get_of_map Link.ident (map_setLink _ here ident).symm found
    simp only [Link.ident, Prod.mk.injEq] at eq
    exact ⟨k', found', eq.2.1.trans p, eq.2.2.1.trans c⟩
  · intro m k h
    rcases Slots.get_set h with ⟨rfl, rfl⟩ | ⟨-, h⟩
    · exact reads
    · exact up.reads m k h
  · intro m k h
    rcases Slots.get_set h with ⟨rfl, rfl⟩ | ⟨-, h⟩
    · exact reads_eq
    · exact up.reads_eq m k h

theorem Upstream.tunnel (up : e.Upstream origin) {tunnel : FrameWriter}
    (same : dataOf tunnel.chan.log = dataOf e.tunnel.chan.log)
    (finished : e.tunnel.task = .done → tunnel.task = .done) :
    Upstream { e with tunnel } origin :=
  ⟨same.trans up.frames, up.ids, up.reads, fun n l here live =>
    up.reads_eq n l here (live.imp_right fun live done => live (finished done))⟩

theorem Upstream.maps (up : e.Upstream origin) (maps : List (DashMap UInt64 Nat)) :
    Upstream { e with maps } origin :=
  ⟨up.frames, up.ids, up.reads, up.reads_eq⟩

theorem Upstream.leave (up : e.Upstream origin) (here : e.links[n]? = some l)
    (ident : l'.ident = l.ident) (reads : l'.conn.reads = l.conn.reads)
    (left : l'.conn.readerLeft = true)
    (kept : l.conn.inHand = [] ∨ e.tunnel.task = .done) : (e.setLink n l').Upstream origin := by
  have hand : l'.conn.inHand = [] := by
    unfold Conn.inHand
    split
    · rename_i sending
      simp [Conn.readerLeft, sending] at left
    · rfl
  refine up.setLink here ident ?_ fun live => ?_
  · rw [hand, List.append_nil, reads]
    exact (List.prefix_append _ _).trans (up.reads n l here)
  · have live := live.resolve_left (by simp [left])
    have whole := up.reads_eq n l here (Or.inr live)
    rw [kept.resolve_right live] at whole
    rw [hand, reads, whole]

theorem Upstream.read (up : e.Upstream origin) (here : e.links[n]? = some l) {conn : Conn}
    (move : (conn.reader = l.conn.reader ∧ conn.reads = l.conn.reads) ∨
      (l.conn.reader = .reading ∧ ∃ data, conn.reader = .sending data ∧
        conn.reads = l.conn.reads ++ [data])) : (e.setLink n (l.setConn conn)).Upstream origin := by
  rcases move with ⟨reader, reads⟩ | ⟨reader, data, reader', reads⟩
  · have hand : conn.inHand = l.conn.inHand := by simp only [Conn.inHand, reader]
    refine up.setLink here rfl ?_ fun h => ?_
    · simpa only [Link.setConn, hand, reads] using up.reads n l here
    · have live : l.conn.readerLeft = false ∨ e.tunnel.task ≠ .done := by
        simpa only [Link.setConn, Conn.readerLeft, reader] using h
      simpa only [Link.setConn, hand, reads] using up.reads_eq n l here live
  · have whole := up.reads_eq n l here (by simp [Conn.readerLeft, reader])
    simp only [Conn.inHand, reader, List.append_nil] at whole
    have eq : sentBy n origin ++ (l.setConn conn).conn.inHand = (l.setConn conn).conn.reads := by
      simp [Link.setConn, Conn.inHand, reader', reads, whole]
    refine up.setLink here rfl ?_ fun _ => eq
    rw [eq]

theorem Upstream.send (up : e.Upstream origin) (here : e.links[n]? = some l) {data : Bytes}
    (hand : l.conn.reader = .sending data) {tunnel : FrameWriter}
    (sent : dataOf tunnel.chan.log = dataOf e.tunnel.chan.log ++ [⟨l.connId, l.proxyId, data⟩])
    (live : e.tunnel.task ≠ .done) :
    ({ e with tunnel }.setLink n (l.setReader .reading)).Upstream
      (origin ++ [(n, (⟨l.connId, l.proxyId, data⟩ : DataInfo))]) := by
  have ident : (l.setReader .reading).ident = l.ident := rfl
  refine ⟨?_, ?_, ?_, ?_⟩
  · simp [sent, up.frames]
  · intro x mem
    rcases List.mem_append.mp mem with mem | mem
    · obtain ⟨k, found, p, c⟩ := up.ids x mem
      obtain ⟨k', found', eq⟩ := Slots.get_of_map Link.ident (map_setLink _ here ident).symm found
      simp only [Link.ident, Prod.mk.injEq] at eq
      exact ⟨k', found', eq.2.1.trans p, eq.2.2.1.trans c⟩
    · obtain rfl := List.mem_singleton.mp mem
      exact ⟨l.setReader .reading, Slots.get_set_self here, rfl, rfl⟩
  all_goals
    have whole := up.reads_eq n l here (by simp [Conn.readerLeft, hand])
    simp only [Conn.inHand, hand] at whole
    have eq : sentBy n (origin ++ [(n, (⟨l.connId, l.proxyId, data⟩ : DataInfo))]) ++
        (l.setReader .reading).conn.inHand = l.conn.reads := by
      simp [sentBy_singleton, Conn.inHand, Link.setReader, whole]
    intro m k h
    rcases Slots.get_set h with ⟨rfl, rfl⟩ | ⟨other, h⟩
  · rw [eq]
    exact List.prefix_rfl
  · simpa [sentBy_singleton, Ne.symm other] using up.reads m k h
  · exact fun _ => eq
  · intro _
    simpa [sentBy_singleton, Ne.symm other] using up.reads_eq m k h (Or.inr live)

theorem Upstream.step (up : e.Upstream origin) (h : e.step o a = some e') :
    ∃ origin', e'.Upstream origin' ∧ origin <+: origin' := by
  cases moves_of_step h with
  | writer move =>
      exact ⟨origin, up.tunnel (by rw [FrameWriter.step_log move]) (FrameWriter.step_done move),
        List.prefix_rfl⟩
  | conn here move =>
      refine ⟨origin, ?_, List.prefix_rfl⟩
      rcases Conn.step_reader move with same | chunk | ⟨before, reader, reads⟩
      · exact up.read here (Or.inl same)
      · exact up.read here (Or.inr chunk)
      · exact up.leave here rfl reads (by simp [Conn.readerLeft, Link.setConn, reader])
          (Or.inl (by simp [Conn.inHand, before]))
  | sendData here hand sent =>
      exact ⟨_, up.send here hand (by simp [FrameWriter.send_log sent])
        (FrameWriter.send_eq_some sent).1, List.prefix_append _ _⟩
  | sendDataErr here _ closed =>
      have done : e.tunnel.task = .done := by simpa [FrameWriter.closed] using closed
      exact ⟨origin, up.leave here rfl rfl rfl (Or.inr done), List.prefix_rfl⟩
  | remove here left =>
      exact ⟨origin, (up.maps _).leave here rfl rfl rfl (Or.inl (by simp [Conn.inHand, left])),
        List.prefix_rfl⟩
  | finish here left =>
      exact ⟨origin, up.leave here rfl rfl rfl (Or.inl (by simp [Conn.inHand, left])),
        List.prefix_rfl⟩

theorem Upstream.addLink (up : e.Upstream origin) {info : τ} {p : UInt32} {c : UInt64}
    {conn : Conn} (idle : conn.inHand = []) (unread : conn.reads = []) :
    (e.addLink info p c m conn).Upstream origin := by
  have none : sentBy e.links.length origin = [] := by
    simp only [sentBy, List.map_eq_nil_iff, List.filter_eq_nil_iff]
    intro x mem
    obtain ⟨k, found, -⟩ := up.ids x mem
    have := Slots.get_lt found
    simp
    omega
  refine ⟨up.frames, ?_, ?_, ?_⟩
  · intro x mem
    obtain ⟨k, found, ids⟩ := up.ids x mem
    exact ⟨k, Slots.get_append_left found, ids⟩
  · intro k l h
    rcases Slots.get_append h with h | ⟨rfl, rfl⟩
    · exact up.reads k l h
    · simp [none, idle, unread]
  · intro k l h
    rcases Slots.get_append h with h | ⟨rfl, rfl⟩
    · exact up.reads_eq k l h
    · simp [none, idle, unread]

theorem Upstream.deliver {data : Bytes} (up : e.Upstream origin) (h : e.deliver n data = some e') :
    e'.Upstream origin := by
  obtain ⟨l, here, -, rfl⟩ := deliver_eq_some h
  exact up.read here (Or.inl ⟨rfl, rfl⟩)

theorem Upstream.enqueue {f : RfrpFrame} (up : e.Upstream origin) (h : e.enqueue f = some e')
    (other : f.dataInfo? = none) : e'.Upstream origin := by
  obtain ⟨tunnel, sent, rfl⟩ := Option.map_eq_some_iff.mp h
  obtain ⟨-, rfl⟩ := FrameWriter.send_eq_some sent
  refine up.tunnel ?_ id
  simp [dataOf, other]

end

/-! ## Reading the upstream back -/

section
variable {origin : List (Nat × DataInfo)}

theorem Upstream.payloads (up : e.Upstream origin) (p : UInt32) (c : UInt64) :
    payloads p c (dataOf e.tunnel.chan.log) =
      (origin.filter fun x => x.2.proxyId = p ∧ x.2.connId = c).map fun x => x.2.data := by
  rw [up.frames, Rfrp.payloads, List.filter_map, List.map_map]
  rfl

theorem Upstream.payloads_eq (up : e.Upstream origin) (here : e.links[n]? = some l)
    (only : ∀ (k : Nat) (l' : Link τ), e.links[k]? = some l' → l'.proxyId = l.proxyId →
      l'.connId = l.connId → k = n) :
    Rfrp.payloads l.proxyId l.connId (dataOf e.tunnel.chan.log) = sentBy n origin := by
  rw [up.payloads, sentBy]
  congr 1
  refine List.filter_congr fun x mem => ?_
  obtain ⟨k, found, proxy, conn⟩ := up.ids x mem
  simp only [decide_eq_decide]
  constructor
  · rintro ⟨p, c⟩
    exact only x.1 k found (proxy.trans p) (conn.trans c)
  · intro same
    rw [same, here] at found
    cases found
    exact ⟨proxy.symm, conn.symm⟩

theorem Upstream.chunks (up : e.Upstream origin) (p : UInt32) (c : UInt64) :
    ∃ chunks : List (Nat × Bytes),
      chunks.map Prod.snd = Rfrp.payloads p c (dataOf e.tunnel.chan.log) ∧
      (∀ x ∈ chunks, ∃ l, e.links[x.1]? = some l ∧ l.proxyId = p ∧ l.connId = c) ∧
      ∀ (n : Nat) (l : Link τ), e.links[n]? = some l → l.proxyId = p → l.connId = c →
        (chunks.filter fun x => x.1 = n).map Prod.snd = sentBy n origin := by
  refine ⟨(origin.filter fun x => x.2.proxyId = p ∧ x.2.connId = c).map fun x => (x.1, x.2.data),
    ?_, ?_, ?_⟩
  · rw [up.payloads, List.map_map]
    rfl
  · intro x mem
    obtain ⟨y, picked, rfl⟩ := List.mem_map.mp mem
    obtain ⟨listed, ids⟩ := List.mem_filter.mp picked
    simp only [decide_eq_true_eq] at ids
    obtain ⟨l, found, proxy, conn⟩ := up.ids y listed
    exact ⟨l, found, proxy.trans ids.1, conn.trans ids.2⟩
  · intro n l here proxy conn
    have mine : (origin.filter fun x => x.2.proxyId = p ∧ x.2.connId = c).filter
        (fun x => x.1 = n) = origin.filter fun x => x.1 = n := by
      rw [List.filter_filter]
      refine List.filter_congr fun x mem => ?_
      obtain ⟨k, found, proxy', conn'⟩ := up.ids x mem
      by_cases same : x.1 = n
      · rw [same, here] at found
        cases found
        simp [same, ← proxy', ← conn', proxy, conn]
      · simp [same]
    rw [List.filter_map, List.map_map, sentBy, ← mine]
    rfl

theorem Upstream.tagged (up : e.Upstream origin) {p : UInt32} {c : UInt64} {chunks : List Bytes}
    (part : chunks.Sublist (Rfrp.payloads p c (dataOf e.tunnel.chan.log))) :
    ∃ tagged : List (Nat × Bytes), tagged.map Prod.snd = chunks ∧
      (∀ x ∈ tagged, ∃ l, e.links[x.1]? = some l ∧ l.proxyId = p ∧ l.connId = c) ∧
      ∀ (n : Nat) (l : Link τ), e.links[n]? = some l →
        ((tagged.filter fun x => x.1 = n).map Prod.snd).Sublist l.conn.reads := by
  obtain ⟨chunks, whole, owned, mine⟩ := up.chunks p c
  rw [← whole] at part
  obtain ⟨picked, sub, rfl⟩ := List.sublist_map_iff.mp part
  refine ⟨picked, rfl, fun x mem => owned x (sub.subset mem), fun n l here => ?_⟩
  by_cases ids : l.proxyId = p ∧ l.connId = c
  · have listed := (sub.filter fun x => x.1 = n).map Prod.snd
    rw [mine n l here ids.1 ids.2] at listed
    exact listed.trans ((List.prefix_append _ _).trans (up.reads n l here)).sublist
  · have none : (picked.filter fun x => x.1 = n) = [] := by
      refine List.filter_eq_nil_iff.mpr fun x mem same => ids ?_
      obtain ⟨k, found, ids⟩ := owned x (sub.subset mem)
      rw [of_decide_eq_true same, here] at found
      cases found
      exact ids
    rw [none]
    exact List.nil_sublist _

end

/-! ## All changes of an endpoint -/

structure Allowed where
  act : Owners → EndpointAct → Prop
  remove : Prop
  drop : Prop
  abort : Prop

/-- What the tasks and main loops of either side do to their endpoint in one step. -/
inductive Evolves (may : Allowed) (e : Endpoint τ) : Endpoint τ → Prop
  | same : Evolves may e e
  | step {o : Owners} {a : EndpointAct} {e' : Endpoint τ} (admitted : may.act o a)
      (h : e.step o a = some e') : Evolves may e e'
  | enqueue {f : RfrpFrame} {e' : Endpoint τ} (other : f.dataInfo? = none)
      (h : e.enqueue f = some e') : Evolves may e e'
  | deliver {n : Nat} {data : Bytes} {e' : Endpoint τ} (h : e.deliver n data = some e') :
      Evolves may e e'
  | addMap : Evolves may e { e with maps := e.maps ++ [.empty] }
  | removeEntry {m : Nat} {c : UInt64} (removed : may.remove) :
      Evolves may e { e with maps := e.maps.modify m fun map => map.remove c }
  | addLink {info : τ} {p : UInt32} {c : UInt64} {m : Nat} {conn : Conn} (ok : conn.Ok)
      (idle : conn.inHand = []) (unread : conn.reads = []) (live : conn.readerLeft = false) :
      Evolves may e (e.addLink info p c m conn)
  | spawn {n : Nat} {l : Link τ} (here : e.links[n]? = some l) (waiting : l.waiting = true) :
      Evolves may e (e.setLink n (l.setConn l.conn.spawn))
  | drop {n : Nat} {l : Link τ} (dropped : may.drop) (here : e.links[n]? = some l)
      (waiting : l.waiting = true) : Evolves may e (e.setLink n (l.setConn l.conn.drop))
  | abort (aborted : may.abort) : Evolves may e { e with tunnel := { e.tunnel with aborted := true } }

variable {may : Allowed}

theorem Evolves.tunnel_done (h : Evolves may e e') (done : e.tunnel.task = .done) :
    e'.tunnel.task = .done := by
  cases h with
  | step _ h =>
      cases moves_of_step h with
      | writer move => exact FrameWriter.step_done move done
      | sendData _ _ sent =>
          obtain ⟨live, -⟩ := FrameWriter.send_eq_some sent
          exact absurd done live
      | _ => exact done
  | enqueue _ h =>
      obtain ⟨live, -⟩ := enqueue_eq_some h
      exact absurd done live
  | deliver h =>
      obtain ⟨l, -, -, rfl⟩ := deliver_eq_some h
      exact done
  | _ => exact done

theorem Evolves.ident_isPrefix (h : Evolves may e e') :
    e.links.map Link.ident <+: e'.links.map Link.ident := by
  have same : e'.links.map Link.ident = e.links.map Link.ident →
      e.links.map Link.ident <+: e'.links.map Link.ident := fun eq => eq ▸ List.prefix_rfl
  cases h with
  | step _ h => exact same (step_ident h)
  | enqueue _ h =>
      obtain ⟨-, rfl⟩ := enqueue_eq_some h
      exact same rfl
  | deliver h =>
      obtain ⟨l, here, -, rfl⟩ := deliver_eq_some h
      exact same (map_setLink _ here rfl)
  | addLink => exact (List.prefix_append _ _).map _
  | spawn here | drop _ here => exact same (map_setLink _ here rfl)
  | _ => exact same rfl

theorem Evolves.persists (h : Evolves may e e') (here : e.links[n]? = some l) :
    ∃ l', e'.links[n]? = some l' ∧ l'.ident = l.ident := by
  have moved := Slots.get_isPrefix h.ident_isPrefix (a := l.ident) (n := n) (by simp [here])
  rw [List.getElem?_map] at moved
  exact Option.map_eq_some_iff.mp moved

theorem Evolves.link (h : Evolves may e e') (found : e'.links[n]? = some l') :
    (∃ l, e.links[n]? = some l ∧ l.ident = l'.ident) ∨ n = e.links.length := by
  have old : e'.links.map Link.ident = e.links.map Link.ident →
      (∃ l, e.links[n]? = some l ∧ l.ident = l'.ident) ∨ n = e.links.length :=
    fun same => Or.inl (Slots.get_of_map Link.ident same found)
  cases h with
  | step _ h => exact old (step_ident h)
  | enqueue _ h =>
      obtain ⟨-, rfl⟩ := enqueue_eq_some h
      exact old rfl
  | deliver h =>
      obtain ⟨l, here, -, rfl⟩ := deliver_eq_some h
      exact old (map_setLink _ here rfl)
  | addLink =>
      rcases Slots.get_append found with found | ⟨last, -⟩
      · exact Or.inl ⟨l', found, rfl⟩
      · exact Or.inr last
  | spawn here | drop _ here => exact old (map_setLink _ here rfl)
  | _ => exact old rfl

theorem Ok.evolves (ok : e.Ok) (h : Evolves may e e') : e'.Ok := by
  cases h with
  | same => exact ok
  | step _ h => exact ok.step h
  | enqueue _ h => exact ok.enqueue h
  | deliver h => exact ok.deliver h
  | addMap => exact ok.withMaps _
  | removeEntry => exact ok.withMaps _
  | addLink new => exact ok.addLink new
  | spawn here waiting =>
      have conn := ok.conns _ _ here
      exact ok.setLink (conn.spawn (conn.spawned.mp (by simpa [Link.waiting] using waiting)))
  | drop _ here => exact ok.setLink (ok.conns _ _ here).drop
  | abort => exact ok.withTunnel ⟨ok.tunnel.sent_isPrefix, ok.tunnel.sent_eq⟩

theorem Mapped.evolves (mapped : e.Mapped) (h : Evolves may e e') : e'.Mapped := by
  cases h with
  | same => exact mapped
  | step _ h => exact mapped.step h
  | enqueue _ h =>
      obtain ⟨-, rfl⟩ := enqueue_eq_some h
      exact mapped
  | deliver h =>
      obtain ⟨l, here, -, rfl⟩ := deliver_eq_some h
      exact mapped_of_ident mapped (map_setLink _ here rfl) fun _ _ _ found => found
  | addMap => exact mapped_of_ident mapped rfl fun _ _ _ => lookup_addMap
  | removeEntry => exact mapped_of_ident mapped rfl fun _ _ _ found => (lookup_modify_remove found).1
  | addLink => exact mapped.addLink
  | spawn here => exact mapped_of_ident mapped (map_setLink _ here rfl) fun _ _ _ found => found
  | drop _ here => exact mapped_of_ident mapped (map_setLink _ here rfl) fun _ _ _ found => found
  | abort => exact mapped

theorem Upstream.evolves {origin : List (Nat × DataInfo)} (up : e.Upstream origin)
    (h : Evolves may e e') : ∃ origin', e'.Upstream origin' ∧ origin <+: origin' := by
  cases h with
  | step _ h => exact up.step h
  | same => exact ⟨origin, up, List.prefix_rfl⟩
  | enqueue other h => exact ⟨origin, up.enqueue h other, List.prefix_rfl⟩
  | deliver h => exact ⟨origin, up.deliver h, List.prefix_rfl⟩
  | addMap => exact ⟨origin, up.maps _, List.prefix_rfl⟩
  | removeEntry => exact ⟨origin, up.maps _, List.prefix_rfl⟩
  | addLink _ idle unread => exact ⟨origin, up.addLink idle unread, List.prefix_rfl⟩
  | @spawn n l here waiting =>
      have reader : l.conn.reader = .unspawned := by simpa [Link.waiting] using waiting
      have whole := up.reads_eq n l here (by simp [Conn.readerLeft, reader])
      simp only [Conn.inHand, reader] at whole
      exact ⟨origin, up.setLink here rfl (whole ▸ List.prefix_rfl) fun _ => whole, List.prefix_rfl⟩
  | @drop n l _ here waiting =>
      have hand : l.conn.inHand = [] := by
        unfold Conn.inHand
        rw [of_decide_eq_true waiting]
      exact ⟨origin, up.leave here rfl rfl rfl (Or.inl hand), List.prefix_rfl⟩
  | abort =>
      refine ⟨origin, up.tunnel ?_ id, List.prefix_rfl⟩
      rfl

end Endpoint

end Rfrp
