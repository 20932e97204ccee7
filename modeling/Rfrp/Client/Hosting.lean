import Rfrp.Lib.Naming
import Rfrp.Client.Sessions

/-!
# A side of the tunnel inside a larger heap

The maps and connections of one session may stand anywhere in arenas that they share with those of
others. A task that takes a step there takes the same step in the session's own arenas.
-/

namespace Rfrp

open Naming

variable {τ : Type}

/-- The same connection, but for the address of the map it is entered in. -/
structure Link.Same (ms : List Nat) (l l' : Link τ) : Prop where
  info : l.info = l'.info
  proxyId : l.proxyId = l'.proxyId
  connId : l.connId = l'.connId
  conn : l.conn = l'.conn
  map : Names ms l.map l'.map

namespace Link.Same

variable {ms : List Nat} {l l' : Link τ}

theorem setConn (same : Same ms l l') (conn : Conn) :
    Same ms (l.setConn conn) (l'.setConn conn) :=
  ⟨same.info, same.proxyId, same.connId, rfl, same.map⟩

theorem setReader (same : Same ms l l') (reader : ReadTask) :
    Same ms (l.setReader reader) (l'.setReader reader) := by
  refine ⟨same.info, same.proxyId, same.connId, ?_, same.map⟩
  unfold Link.setReader
  rw [same.conn]

theorem append (same : Same ms l l') (a : Nat) : Same (ms ++ [a]) l l' :=
  ⟨same.info, same.proxyId, same.connId, same.conn, same.map.append a⟩

end Link.Same

/-- The act of a task, with its connection under another name. -/
def EndpointAct.renamed (n : Nat) : EndpointAct → EndpointAct
  | .conn _ a => .conn n a
  | .sendData _ => .sendData n
  | .sendDataErr _ => .sendDataErr n
  | .remove _ => .remove n
  | .finish _ => .finish n
  | .writer a => .writer a

namespace Endpoint

structure Hosted (ls ms : List Nat) (e g : Endpoint τ) : Prop where
  tunnel : g.tunnel = e.tunnel
  links : Embeds (Link.Same ms) ls e.links g.links
  maps : Embeds (MapsTo ls) ms e.maps g.maps

namespace Hosted

variable {ls ms : List Nat} {e g g' : Endpoint τ} {n n' m m' : Nat} {k : UInt64}

theorem lookup_eq_none (hosted : Hosted ls ms e g) (named : Names ms m m')
    (miss : g.lookup m' k = none) : e.lookup m k = none := by
  obtain ⟨map, map', here, there, same⟩ := hosted.maps.slot m m' named
  unfold lookup at miss ⊢
  rw [there] at miss
  rw [here]
  exact same.eq_none miss

theorem lookup_eq_some (hosted : Hosted ls ms e g) (named : Names ms m m')
    (found : g.lookup m' k = some n') : ∃ n, e.lookup m k = some n ∧ Names ls n n' := by
  obtain ⟨map, map', here, there, same⟩ := hosted.maps.slot m m' named
  unfold lookup at found ⊢
  rw [there] at found
  rw [here]
  exact same.eq_some found

theorem lookup_beq (hosted : Hosted ls ms e g) (named : Names ms m m')
    (own : Names ls n n') : (e.lookup m k == some n) = (g.lookup m' k == some n') := by
  cases entry : g.lookup m' k with
  | none => rw [hosted.lookup_eq_none named entry]; rfl
  | some i' =>
      obtain ⟨i, found, name⟩ := hosted.lookup_eq_some named entry
      rw [found]
      have same := Names.eq_iff hosted.links.distinct name own
      apply Bool.eq_iff_iff.mpr
      rw [beq_iff_eq, beq_iff_eq, Option.some.injEq, Option.some.injEq]
      exact same

theorem enqueue (hosted : Hosted ls ms e g) {f : RfrpFrame} (sent : g.enqueue f = some g') :
    ∃ e', e.enqueue f = some e' ∧ Hosted ls ms e' g' := by
  obtain ⟨tunnel, pushed, rfl⟩ := Option.map_eq_some_iff.mp sent
  rw [hosted.tunnel] at pushed
  refine ⟨{ e with tunnel }, ?_, rfl, hosted.links, hosted.maps⟩
  unfold Endpoint.enqueue
  rw [pushed]
  rfl

theorem setLink (hosted : Hosted ls ms e g) (named : Names ls n n') {l l' : Link τ}
    (same : Link.Same ms l l') : Hosted ls ms (e.setLink n l) (g.setLink n' l') :=
  ⟨hosted.tunnel, hosted.links.set named same, hosted.maps⟩

theorem deliver (hosted : Hosted ls ms e g) (named : Names ls n n') {data : Bytes}
    (sent : g.deliver n' data = some g') :
    ∃ e', e.deliver n data = some e' ∧ Hosted ls ms e' g' := by
  obtain ⟨l', there, sent⟩ := Option.bind_eq_some_iff.mp sent
  obtain ⟨conn, pushed, rfl⟩ := Option.map_eq_some_iff.mp sent
  obtain ⟨l, here, same⟩ := hosted.links.get named there
  refine ⟨e.setLink n (l.setConn conn), ?_, hosted.setLink named (same.setConn conn)⟩
  unfold Endpoint.deliver
  rw [here, Option.bind_some, same.conn, pushed]
  rfl

theorem undeliverable (hosted : Hosted ls ms e g) (named : Names ls n n') :
    e.undeliverable n = g.undeliverable n' := by
  obtain ⟨l, l', here, there, same⟩ := hosted.links.slot n n' named
  unfold Endpoint.undeliverable
  rw [here, there]
  exact congrArg Conn.closed same.conn

theorem addMap (hosted : Hosted ls ms e g) :
    Hosted ls (ms ++ [g.maps.length]) { e with maps := e.maps ++ [.empty] }
      { g with maps := g.maps ++ [.empty] } where
  tunnel := hosted.tunnel
  links := hosted.links.mono fun _ _ same => same.append _
  maps := hosted.maps.append MapsTo.empty

theorem addLink (hosted : Hosted ls ms e g) (named : Names ms m m') (info : τ) (p : UInt32)
    (conn : Conn) :
    Hosted (ls ++ [g.links.length]) ms (e.addLink info p k m conn)
      (g.addLink info p k m' conn) := by
  have name : Names (ls ++ [g.links.length]) e.links.length g.links.length :=
    hosted.links.count ▸ Names.last ls g.links.length
  refine ⟨hosted.tunnel, hosted.links.append ⟨rfl, rfl, rfl, rfl, named⟩, ?_⟩
  apply (hosted.maps.mono fun _ _ same => same.append g.links.length).modify named
  exact fun _ _ same => same.insert name

theorem modifyMap (hosted : Hosted ls ms e g) (named : Names ms m m') :
    Hosted ls ms { e with maps := e.maps.modify m fun map => map.remove k }
      { g with maps := g.maps.modify m' fun map => map.remove k } :=
  ⟨hosted.tunnel, hosted.links, hosted.maps.modify named fun _ _ same => same.remove⟩

/-- A task of connection `n` takes a step. Whether a sender of its channel is alive is a question
to the rest of the heap. -/
theorem step (hosted : Hosted ls ms e g) {o o' : Owners} {a : EndpointAct}
    (task : a.link? = some n') (named : Names ls n n') (senders : e.senders o n = g.senders o' n')
    (move : g.step o' a = some g') :
    ∃ e', e.step o (a.renamed n) = some e' ∧ Hosted ls ms e' g' := by
  cases a with
  | writer => cases task
  | conn i a =>
      cases task
      obtain ⟨l', there, move⟩ := Option.bind_eq_some_iff.mp move
      obtain ⟨conn, stepped, rfl⟩ := Option.map_eq_some_iff.mp move
      obtain ⟨l, here, same⟩ := hosted.links.get named there
      refine ⟨e.setLink n (l.setConn conn), ?_, hosted.setLink named (same.setConn conn)⟩
      show (e.links[n]?.bind _) = _
      rw [here, Option.bind_some, same.conn, senders, stepped]
      rfl
  | sendData i =>
      cases task
      obtain ⟨l', there, move⟩ := Option.bind_eq_some_iff.mp move
      obtain ⟨l, here, same⟩ := hosted.links.get named there
      cases hand : l'.conn.reader with
      | sending data =>
          rw [hand] at move
          obtain ⟨tunnel, sent, rfl⟩ := Option.map_eq_some_iff.mp move
          have after : Hosted ls ms { e with tunnel } { g with tunnel } :=
            ⟨rfl, hosted.links, hosted.maps⟩
          refine ⟨_, ?_, after.setLink named (same.setReader .reading)⟩
          show (e.links[n]?.bind _) = _
          simp only [here, Option.bind_some, same.conn, hand, same.proxyId, same.connId]
          rw [← hosted.tunnel, sent]
          rfl
      | _ =>
          rw [hand] at move
          cases move
  | sendDataErr i =>
      cases task
      obtain ⟨l', there, move⟩ := Option.bind_eq_some_iff.mp move
      obtain ⟨l, here, same⟩ := hosted.links.get named there
      cases hand : l'.conn.reader with
      | sending data =>
          rw [hand] at move
          obtain ⟨closed, move⟩ := Option.ite_none_right_eq_some.mp move
          cases move
          refine ⟨_, ?_, hosted.setLink named (same.setReader .cleanup)⟩
          show (e.links[n]?.bind _) = _
          simp only [here, Option.bind_some, same.conn, hand]
          rw [← hosted.tunnel, if_pos closed]
      | _ =>
          rw [hand] at move
          cases move
  | remove i =>
      cases task
      obtain ⟨l', there, move⟩ := Option.bind_eq_some_iff.mp move
      obtain ⟨l, here, same⟩ := hosted.links.get named there
      obtain ⟨cleanup, move⟩ := Option.ite_none_right_eq_some.mp move
      cases move
      refine ⟨_, ?_, (hosted.modifyMap same.map).setLink named (same.setReader .ending)⟩
      show (e.links[n]?.bind _) = _
      rw [here, Option.bind_some, same.conn, if_pos cleanup, same.connId]
  | finish i =>
      cases task
      obtain ⟨l', there, move⟩ := Option.bind_eq_some_iff.mp move
      obtain ⟨l, here, same⟩ := hosted.links.get named there
      obtain ⟨ending, move⟩ := Option.ite_none_right_eq_some.mp move
      cases move
      refine ⟨_, ?_, hosted.setLink named (same.setReader .done)⟩
      show (e.links[n]?.bind _) = _
      rw [here, Option.bind_some, same.conn, if_pos ending]

end Hosted

end Endpoint

/-- Where the main loop stands, up to the names. -/
inductive ClientMain.Same (ls ms : List Nat) : ClientMain → ClientMain → Prop
  | quiet {main : ClientMain} (none : main.hand = none) : Same ls ms main main
  | connecting {client : ClientInfo} {d : DataInfo} {m m' : Nat} (map : Names ms m m') :
      Same ls ms (.connecting client d m) (.connecting client d m')
  | forwarding {d : DataInfo} {n n' m m' : Nat} (link : Names ls n n') (map : Names ms m m') :
      Same ls ms (.forwarding n d m) (.forwarding n' d m')

theorem ClientMain.Same.append {ls ms : List Nat} {main main' : ClientMain}
    (same : main.Same ls ms main') (a : Nat) : main.Same ls (ms ++ [a]) main' := by
  cases same with
  | quiet none => exact .quiet none
  | connecting map => exact .connecting (map.append a)
  | forwarding link map => exact .forwarding link (map.append a)

theorem ClientMain.Same.eq_of_quiet {ls ms : List Nat} {main main' : ClientMain}
    (same : main.Same ls ms main') (none : main'.hand = none) : main = main' := by
  cases same with
  | quiet => rfl
  | connecting | forwarding => cases none

namespace Client

/-- The cache of `conns`, up to the names. -/
inductive CacheSame (ms : List Nat) : Option (UInt32 × Nat) → Option (UInt32 × Nat) → Prop
  | none : CacheSame ms none none
  | some {p : UInt32} {m m' : Nat} (map : Names ms m m') : CacheSame ms (some (p, m)) (some (p, m'))

/-- The client `c`, with maps and connections of its own, seen in a heap where they have the
addresses `ms` and `ls`. -/
inductive Hosted (ls ms : List Nat) (c : Client) : Client → Prop
  | mk {main : ClientMain} {proxyConns : DashMap UInt32 Nat} {cachedConns : Option (UInt32 × Nat)}
      {endpoint : Endpoint String} (main_same : c.main.Same ls ms main)
      (conns : MapsTo ms c.proxyConns proxyConns) (cached : CacheSame ms c.cachedConns cachedConns)
      (heap : c.endpoint.Hosted ls ms endpoint) :
      Hosted ls ms c { c with main, proxyConns, cachedConns, endpoint }

theorem Hosted.main {ls ms : List Nat} {c g : Client} (hosted : Hosted ls ms c g) :
    c.main.Same ls ms g.main := by
  cases hosted
  assumption

theorem Hosted.heap {ls ms : List Nat} {c g : Client} (hosted : Hosted ls ms c g) :
    c.endpoint.Hosted ls ms g.endpoint := by
  cases hosted
  assumption

theorem Hosted.same {ls ms : List Nat} {c g : Client} (hosted : Hosted ls ms c g) :
    g.config = c.config ∧ g.received = c.received ∧ g.proxyConfigs = c.proxyConfigs ∧
      g.ping = c.ping ∧ g.pingAborted = c.pingAborted := by
  cases hosted
  exact ⟨rfl, rfl, rfl, rfl, rfl⟩

theorem Hosted.setMain {ls ms : List Nat} {c g : Client} (hosted : Hosted ls ms c g)
    {main main' : ClientMain} (same : main.Same ls ms main') :
    Hosted ls ms { c with main } { g with main := main' } := by
  obtain ⟨-, conns, cached, heap⟩ := hosted
  exact .mk same conns cached heap

/-- The client and its picture in the heap after a step, with a name for every object that the step
allocated. -/
def Follows (ls ms : List Nat) (g c' g' : Client) : Prop :=
  ∃ ls' ms', Hosted ls' ms' c' g' ∧
    (∀ n, n ∈ ls' ↔ grown (· ∈ ls) g.endpoint.links.length g'.endpoint.links.length n) ∧
    ∀ m, m ∈ ms' ↔ grown (· ∈ ms) g.endpoint.maps.length g'.endpoint.maps.length m

variable {ls ms : List Nat} {c g c' g' : Client} {a : ClientAct} {p : UInt32}

theorem Hosted.follows (hosted : Hosted ls ms c' g')
    (links : g'.endpoint.links.length = g.endpoint.links.length)
    (maps : g'.endpoint.maps.length = g.endpoint.maps.length) : Follows ls ms g c' g' := by
  refine ⟨ls, ms, hosted, fun n => ?_, fun m => ?_⟩
  · rw [links, grown_same]
  · rw [maps, grown_same]

theorem mem_append_fresh {addrs : List Nat} {n before : Nat} :
    n ∈ addrs ++ [before] ↔ grown (· ∈ addrs) before (before + 1) n := by
  unfold grown
  rw [List.mem_append, List.mem_singleton]
  constructor
  · rintro (old | rfl)
    · exact Or.inl old
    · exact Or.inr ⟨Nat.le_refl _, Nat.lt_succ_self _⟩
  · rintro (old | ⟨low, high⟩)
    · exact Or.inl old
    · exact Or.inr (by omega)

theorem connsFor_hit {m : Nat} (hit : c.cachedConns = some (p, m)) : c.connsFor p = (m, c) := by
  unfold connsFor
  simp only [hit, if_true]

theorem connsFor_known {m : Nat} (miss : ∀ m, c.cachedConns ≠ some (p, m))
    (entry : c.proxyConns p = some m) :
    c.connsFor p = (m, { c with cachedConns := some (p, m) }) := by
  unfold connsFor
  cases cache : c.cachedConns with
  | none => simp only [entry]
  | some e =>
      have other : e.1 ≠ p := fun same => miss e.2 (same ▸ cache)
      simp only [if_neg other, entry]

theorem connsFor_new (miss : ∀ m, c.cachedConns ≠ some (p, m)) (none : c.proxyConns p = none) :
    c.connsFor p = (c.endpoint.maps.length, { c with
      proxyConns := c.proxyConns.insert p c.endpoint.maps.length
      cachedConns := some (p, c.endpoint.maps.length)
      endpoint := { c.endpoint with maps := c.endpoint.maps ++ [.empty] } }) := by
  unfold connsFor
  cases cache : c.cachedConns with
  | none => simp only [none]
  | some e =>
      have other : e.1 ≠ p := fun same => miss e.2 (same ▸ cache)
      simp only [if_neg other, none]

theorem Hosted.connsFor (hosted : Hosted ls ms c g) (p : UInt32) :
    ∃ ms', Names ms' (c.connsFor p).1 (g.connsFor p).1 ∧
      Hosted ls ms' (c.connsFor p).2 (g.connsFor p).2 ∧
      (g.connsFor p).2.endpoint.links = g.endpoint.links ∧
      ∀ m, m ∈ ms' ↔
        grown (· ∈ ms) g.endpoint.maps.length (g.connsFor p).2.endpoint.maps.length m := by
  obtain ⟨main, conns, cached, heap⟩ := hosted
  rename_i main' proxyConns cachedConns endpoint
  have missing : (∀ m, cachedConns ≠ some (p, m)) → ∀ m, c.cachedConns ≠ some (p, m) := by
    intro miss m hit
    rw [hit] at cached
    cases cached with
    | some map => exact miss _ rfl
  by_cases hit : ∃ m', cachedConns = some (p, m')
  · obtain ⟨m', rfl⟩ := hit
    generalize own : c.cachedConns = cache at cached
    cases cached with
    | @some _ m _ map =>
        rw [connsFor_hit own, connsFor_hit rfl]
        exact ⟨ms, map, .mk main conns (own ▸ .some map) heap, rfl, fun m => grown_same.symm⟩
  · have miss : ∀ m, cachedConns ≠ some (p, m) := fun m eq => hit ⟨m, eq⟩
    cases entry : proxyConns p with
    | some m' =>
        obtain ⟨m, known, map⟩ := conns.eq_some entry
        rw [connsFor_known (missing miss) known, connsFor_known miss entry]
        exact ⟨ms, map, .mk main conns (.some map) heap, rfl, fun m => grown_same.symm⟩
    | none =>
        have map : Names (ms ++ [endpoint.maps.length]) c.endpoint.maps.length
            endpoint.maps.length := heap.maps.count ▸ Names.last ms endpoint.maps.length
        rw [connsFor_new (missing miss) (conns.eq_none entry), connsFor_new miss entry]
        refine ⟨ms ++ [endpoint.maps.length], map, ?_, rfl, fun m => ?_⟩
        · exact .mk (main.append _) ((conns.append _).insert map) (.some map) heap.addMap
        · show m ∈ ms ++ [_] ↔ grown _ _ (endpoint.maps ++ [DashMap.empty]).length m
          rw [List.length_append]
          exact mem_append_fresh

theorem Hosted.handleAnswer (hosted : Hosted ls ms c g) {i : Nat} (main : c.main = .awaiting i)
    (f : RfrpFrame) :
    Hosted ls ms (c.handleAnswer i f) (g.handleAnswer i f) ∧
      (g.handleAnswer i f).endpoint = g.endpoint := by
  obtain ⟨at', conns, cached, heap⟩ := id hosted
  rw [main] at at'
  cases at' with
  | quiet =>
      cases f with
      | registerAck resp =>
          cases success : resp.success with
          | false =>
              simp only [Client.handleAnswer, success, Bool.false_eq_true, if_false, giveUp]
              exact ⟨.mk (.quiet rfl) conns cached heap, trivial⟩
          | true =>
              cases here : c.config[i]? with
              | none =>
                  simp only [Client.handleAnswer, success, if_true, here]
                  exact ⟨hosted, trivial⟩
              | some client =>
                  simp only [Client.handleAnswer, success, if_true, here]
                  by_cases more : i + 1 < c.config.length
                  · simp only [registerFrom, if_pos more]
                    exact ⟨.mk (.quiet rfl) conns cached heap, trivial⟩
                  · simp only [registerFrom, if_neg more]
                    exact ⟨.mk (.quiet rfl) conns cached heap, trivial⟩
      | _ =>
          simp only [Client.handleAnswer, giveUp]
          exact ⟨.mk (.quiet rfl) conns cached heap, trivial⟩

theorem Follows.receive (follows : Follows ls ms g c' g') (received : List RfrpFrame) :
    Follows ls ms g { c' with received } { g' with received } := by
  obtain ⟨ls', ms', hosted, links, maps⟩ := follows
  refine ⟨ls', ms', ?_, links, maps⟩
  obtain ⟨main, conns, cached, heap⟩ := hosted
  exact .mk main conns cached heap

theorem Hosted.handleFrame (hosted : Hosted ls ms c g) (f : RfrpFrame) :
    Follows ls ms g (c.handleFrame f) (g.handleFrame f) := by
  cases f with
  | data d =>
      cases known : c.proxyConfigs d.proxyId with
      | none =>
          simp only [Client.handleFrame, hosted.same.2.2.1, known]
          exact hosted.follows rfl rfl
      | some client =>
          simp only [Client.handleFrame, hosted.same.2.2.1, known]
          obtain ⟨ms', map, hosted', links, grows⟩ := hosted.connsFor d.proxyId
          have links' : ∀ n, n ∈ ls ↔ grown (· ∈ ls) g.endpoint.links.length
              (g.connsFor d.proxyId).2.endpoint.links.length n := by
            intro n
            rw [links, grown_same]
          cases found : (g.connsFor d.proxyId).2.endpoint.lookup (g.connsFor d.proxyId).1 d.connId with
          | none =>
              have miss := hosted'.heap.lookup_eq_none map found
              simp only [miss]
              exact ⟨ls, ms', hosted'.setMain (.connecting map), links', grows⟩
          | some n' =>
              obtain ⟨n, own, link⟩ := hosted'.heap.lookup_eq_some map found
              simp only [own]
              exact ⟨ls, ms', hosted'.setMain (.forwarding link map), links', grows⟩
  | _ => exact hosted.follows rfl rfl

theorem Hosted.teardown (hosted : Hosted ls ms c g) (r : ClientExit) :
    Hosted ls ms (c.teardown r) (g.teardown r) := by
  obtain ⟨-, conns, cached, heap⟩ := hosted
  refine .mk (.quiet rfl) conns cached ⟨?_, heap.links, heap.maps⟩
  exact congrArg (fun w : FrameWriter => { w with aborted := true }) heap.tunnel

theorem Hosted.setPing (hosted : Hosted ls ms c g) (ping : PingTask) :
    Hosted ls ms { c with ping } { g with ping } := by
  obtain ⟨main, conns, cached, heap⟩ := hosted
  exact .mk main conns cached heap

theorem Hosted.setEndpoint (hosted : Hosted ls ms c g) {endpoint endpoint' : Endpoint String}
    (heap : endpoint.Hosted ls ms endpoint') :
    Hosted ls ms { c with endpoint } { g with endpoint := endpoint' } := by
  obtain ⟨main, conns, cached, -⟩ := hosted
  exact .mk main conns cached heap

theorem Hosted.insertConn (hosted : Hosted ls ms c g) {m m' : Nat} (map : Names ms m m')
    (client : ClientInfo) (d : DataInfo) (sndBuf : Nat) :
    Follows ls ms g (c.insertConn client d m sndBuf) (g.insertConn client d m' sndBuf) := by
  unfold Client.insertConn
  cases found : g.endpoint.lookup m' d.connId with
  | some n' =>
      obtain ⟨n, own, link⟩ := hosted.heap.lookup_eq_some map found
      simp only [own]
      exact (hosted.setMain (.forwarding link map)).follows rfl rfl
  | none =>
      simp only [hosted.heap.lookup_eq_none map found]
      have link : Names (ls ++ [g.endpoint.links.length]) c.endpoint.links.length
          g.endpoint.links.length := hosted.heap.links.count ▸ Names.last ls _
      refine ⟨ls ++ [g.endpoint.links.length], ms, ?_, fun n => ?_, fun m => ?_⟩
      · have heap := hosted.heap.addLink map client.addr d.proxyId (k := d.connId)
          (Conn.fresh sndBuf).spawn
        obtain ⟨-, conns, cached, -⟩ := hosted
        exact .mk (.forwarding link map) conns cached heap
      · show n ∈ _ ↔ grown _ _ (g.endpoint.links ++ [_]).length n
        rw [List.length_append]
        exact mem_append_fresh
      · show m ∈ ms ↔ grown _ _ (g.endpoint.maps.modify m' _).length m
        rw [List.length_modify, grown_same]

/-- A step of the main loop or the heartbeat in the heap is a step of the client by itself. -/
theorem Hosted.step (hosted : Hosted ls ms c g) (own : a.isEndpoint = false)
    (move : g.step a = some g') : ∃ c', c.step a = some c' ∧ Follows ls ms g c' g' := by
  have main := hosted.main
  have same := hosted.same
  have quiet : ∀ {at'}, g.main = at' → at'.hand = none → c.main = at' :=
    fun eq none => (main.eq_of_quiet (eq ▸ none)).trans eq
  cases a with
  | endpoint => cases own
  | recv f =>
      simp only [Client.step] at move ⊢
      cases at' : g.main with
      | awaiting i =>
          rw [at'] at move
          rw [quiet at' rfl]
          cases move
          obtain ⟨answered, kept⟩ := hosted.handleAnswer (quiet at' rfl) f
          refine ⟨_, rfl, ?_⟩
          rw [same.2.1]
          exact (answered.follows (by rw [kept]) (by rw [kept])).receive _
      | reading =>
          rw [at'] at move
          rw [quiet at' rfl]
          cases move
          refine ⟨_, rfl, ?_⟩
          rw [same.2.1]
          exact (hosted.handleFrame f).receive _
      | _ =>
          rw [at'] at move
          cases move
  | exit r =>
      simp only [Client.step] at move ⊢
      obtain ⟨allowed, move⟩ := Option.ite_none_right_eq_some.mp move
      rw [if_pos allowed]
      cases at' : g.main with
      | awaiting i =>
          rw [at'] at move
          rw [quiet at' rfl]
          cases move
          exact ⟨_, rfl, (hosted.setMain (.quiet rfl)).follows rfl rfl⟩
      | reading =>
          rw [at'] at move
          rw [quiet at' rfl]
          cases move
          exact ⟨_, rfl, (hosted.teardown r).follows rfl rfl⟩
      | _ =>
          rw [at'] at move
          cases move
  | register =>
      simp only [Client.step] at move ⊢
      cases at' : g.main with
      | registering i =>
          rw [at'] at move
          rw [quiet at' rfl]
          obtain ⟨client, here, move⟩ := Option.bind_eq_some_iff.mp move
          rw [same.1] at here
          obtain ⟨endpoint', sent, rfl⟩ := Option.map_eq_some_iff.mp move
          obtain ⟨endpoint, sent', heap⟩ := hosted.heap.enqueue sent
          refine ⟨{ c with endpoint, main := .awaiting i }, ?_, ?_⟩
          · simp only [here, Option.bind_some, sent', Option.map_some]
          · obtain ⟨-, rfl⟩ := Endpoint.enqueue_eq_some sent
            have next : ClientMain.Same ls ms (.awaiting i) (.awaiting i) := .quiet rfl
            exact ((hosted.setEndpoint heap).setMain next).follows rfl rfl
      | _ =>
          rw [at'] at move
          cases move
  | registerErr =>
      simp only [Client.step] at move ⊢
      cases at' : g.main with
      | registering i =>
          rw [at'] at move
          rw [quiet at' rfl]
          obtain ⟨closed, move⟩ := Option.ite_none_right_eq_some.mp move
          cases move
          rw [hosted.heap.tunnel] at closed
          exact ⟨_, if_pos closed, (hosted.setMain (.quiet rfl)).follows rfl rfl⟩
      | _ =>
          rw [at'] at move
          cases move
  | connected sndBuf =>
      simp only [Client.step] at move ⊢
      cases at' : g.main with
      | connecting client d m' =>
          rw [at'] at main move
          cases move
          generalize atOwn : c.main = ownMain at main
          cases main with
          | quiet none => cases none
          | connecting map => exact ⟨_, rfl, hosted.insertConn map client d sndBuf⟩
      | _ =>
          rw [at'] at move
          cases move
  | refused =>
      simp only [Client.step] at move ⊢
      cases at' : g.main with
      | connecting client d m' =>
          rw [at'] at main move
          cases move
          generalize atOwn : c.main = ownMain at main
          cases main with
          | quiet none => cases none
          | connecting map => exact ⟨_, rfl, (hosted.setMain (.quiet rfl)).follows rfl rfl⟩
      | _ =>
          rw [at'] at move
          cases move
  | forward =>
      simp only [Client.step] at move ⊢
      cases at' : g.main with
      | forwarding n' d m' =>
          rw [at'] at main move
          generalize atOwn : c.main = ownMain at main
          cases main with
          | quiet none => cases none
          | forwarding link map =>
              obtain ⟨endpoint', sent, rfl⟩ := Option.map_eq_some_iff.mp move
              obtain ⟨endpoint, sent', heap⟩ := hosted.heap.deliver link sent
              refine ⟨{ c with endpoint, main := .reading }, ?_, ?_⟩
              · simp only [sent', Option.map_some]
              · obtain ⟨l, -, -, rfl⟩ := Endpoint.deliver_eq_some sent
                exact ((hosted.setEndpoint heap).setMain (.quiet rfl)).follows List.length_set rfl
      | _ =>
          rw [at'] at move
          cases move
  | forwardErr =>
      simp only [Client.step] at move ⊢
      cases at' : g.main with
      | forwarding n' d m' =>
          rw [at'] at main move
          generalize atOwn : c.main = ownMain at main
          cases main with
          | quiet none => cases none
          | forwarding link map =>
              obtain ⟨gone, move⟩ := Option.ite_none_right_eq_some.mp move
              cases move
              rw [← hosted.heap.undeliverable link] at gone
              refine ⟨_, if_pos gone, ?_⟩
              have heap := hosted.heap.modifyMap map (k := d.connId)
              exact ((hosted.setEndpoint heap).setMain (.quiet rfl)).follows rfl
                (List.length_modify ..)
      | _ =>
          rw [at'] at move
          cases move
  | tick =>
      simp only [Client.step] at move ⊢
      obtain ⟨waiting, move⟩ := Option.ite_none_right_eq_some.mp move
      cases move
      rw [same.2.2.2.1] at waiting
      exact ⟨_, if_pos waiting, (hosted.setPing _).follows rfl rfl⟩
  | ping =>
      simp only [Client.step] at move ⊢
      obtain ⟨sending, move⟩ := Option.ite_none_right_eq_some.mp move
      obtain ⟨endpoint', sent, rfl⟩ := Option.map_eq_some_iff.mp move
      obtain ⟨endpoint, sent', heap⟩ := hosted.heap.enqueue sent
      rw [same.2.2.2.1] at sending
      refine ⟨{ c with endpoint, ping := .waiting }, ?_, ?_⟩
      · simp only [if_pos sending, sent', Option.map_some]
      · obtain ⟨-, rfl⟩ := Endpoint.enqueue_eq_some sent
        exact ((hosted.setEndpoint heap).setPing _).follows rfl rfl
  | pingErr =>
      simp only [Client.step] at move ⊢
      obtain ⟨ready, move⟩ := Option.ite_none_right_eq_some.mp move
      cases move
      rw [same.2.2.2.1, hosted.heap.tunnel] at ready
      exact ⟨_, if_pos ready, (hosted.setPing _).follows rfl rfl⟩
  | pingCancel =>
      simp only [Client.step] at move ⊢
      obtain ⟨ready, move⟩ := Option.ite_none_right_eq_some.mp move
      cases move
      rw [same.2.2.2.1, same.2.2.2.2] at ready
      exact ⟨_, if_pos ready, (hosted.setPing _).follows rfl rfl⟩

theorem Hosted.fresh (config : List ClientInfo) (sndBuf : Nat) {endpoint : Endpoint String}
    (tunnel : endpoint.tunnel = (Client.start config sndBuf).endpoint.tunnel) :
    Hosted [] [] (start config sndBuf) { start config sndBuf with config, endpoint } := by
  have fields : { start config sndBuf with config, endpoint } =
        { start config sndBuf with endpoint } ∧ (start config sndBuf).proxyConns = .empty ∧
      (start config sndBuf).cachedConns = none ∧ (start config sndBuf).main.hand = none := by
    unfold Client.start registerFrom
    split <;> exact ⟨rfl, rfl, rfl, rfl⟩
  obtain ⟨same, conns, cache, main⟩ := fields
  have heap : (start config sndBuf).endpoint.Hosted [] [] endpoint := by
    refine ⟨tunnel, ?_, ?_⟩
    · rw [endpoint_start]
      exact Embeds.empty
    · rw [endpoint_start]
      exact Embeds.empty
  rw [same]
  refine .mk (.quiet main) ?_ ?_ heap
  · rw [conns]
    exact MapsTo.empty
  · rw [cache]
    exact .none

theorem config_of_step (h : Moves c a c') : c'.config = c.config := by
  cases h with
  | recvFast _ _ finds | recvNew _ _ finds => cases finds <;> rfl
  | _ => rfl

theorem Hosted.forwarding (hosted : Hosted ls ms c g) : g.forwarding = c.forwarding := by
  have main := hosted.main
  unfold Client.forwarding
  generalize g.main = main₁ at main
  generalize c.main = main₂ at main
  cases main with
  | quiet | connecting | forwarding => rfl

theorem Hosted.running (hosted : Hosted ls ms c g) : g.running = c.running := by
  have main := hosted.main
  unfold Client.running
  generalize g.main = main₁ at main
  generalize c.main = main₂ at main
  cases main with
  | quiet | connecting | forwarding => rfl

theorem Hosted.owners_link (hosted : Hosted ls ms c g) {n n' : Nat} (named : Names ls n n') :
    g.owners.link n' = c.owners.link n := by
  have main := hosted.main
  unfold Client.owners
  dsimp only
  generalize g.main = main₁ at main
  generalize c.main = main₂ at main
  cases main with
  | quiet none =>
      cases main₁ with
      | forwarding => cases none
      | _ => rfl
  | connecting => rfl
  | forwarding link =>
      apply Bool.eq_iff_iff.mpr
      rw [beq_iff_eq, beq_iff_eq]
      exact (Names.eq_iff hosted.heap.links.distinct link named).symm

theorem Hosted.owners_tunnel (hosted : Hosted ls ms c g) : g.owners.tunnel = c.owners.tunnel := by
  have ping := hosted.same.2.2.2.1
  show (g.running || _) = (c.running || _)
  rw [hosted.running, ping]

end Client

end Rfrp
