import Rfrp.Client.Hosting

/-!
# A call of `run_proxy` as a client by itself

All calls of `run_proxy` in one process share a heap, and tasks of earlier calls may still run in it.
Each call is nevertheless a client with a heap of its own: every step of its main loop, its
heartbeat, its frame writer and the tasks of its connections is a step of that client, and no step
of any other call changes it.
-/

namespace Rfrp

open Transition Naming

namespace Reconnect

variable {s s' : Reconnect} {a : ReconnectAct} {k n n' m m' : Nat} {c : Client}

/-- Call `k` is the client `c`, whose connections and maps stand in the heap at the addresses of
those that the call opened. -/
structure Standing (s : Reconnect) (k : Nat) (c : Client) (call : Call) (w : FrameWriter)
    (ls ms : List Nat) : Prop where
  here : s.calls[k]? = some call
  behind : s.tunnels[call.tunnel]? = some w
  hosted : c.Hosted ls ms (call.view s.config (s.heap w))
  links : ∀ n, n ∈ ls ↔ s.opened k n
  maps : ∀ m, m ∈ ms ↔ s.holds k m

def Hosts (s : Reconnect) (k : Nat) (c : Client) : Prop :=
  ∃ call w ls ms, s.Standing k c call w ls ms

/-- The step of the client that a step of its call is, up to the name of a connection. -/
inductive Mirrors : ReconnectAct → ClientAct → Prop
  | call (k : Nat) (b : ClientAct) : Mirrors (.call k b) b
  | writer (k : Nat) (b : WriterAct) : Mirrors (.writer k b) (.endpoint (.writer b))
  | task {a : EndpointAct} {n' : Nat} (link : a.link? = some n') (n : Nat) :
      Mirrors (.task a) (.endpoint (a.renamed n))

/-! ## Who else holds what the tasks use -/

section owners
variable {call : Call} {w : FrameWriter} {ls ms : List Nat}

theorem Standing.owners_link (standing : s.Standing k c call w ls ms) (apart : s.Apart) (t : Nat)
    (named : Names ls n n') : (s.owners t).link n' = c.owners.link n := by
  rw [← standing.hosted.owners_link named]
  apply Bool.eq_iff_iff.mpr
  show s.calls.any _ = true ↔ _
  rw [List.any_eq_true]
  constructor
  · rintro ⟨other, mem, holds⟩
    obtain ⟨j, there⟩ := List.mem_iff_getElem?.mp mem
    have mine := (standing.links n').mp named.mem
    have same : j = k := by
      cases main : other.main with
      | forwarding i d m =>
          have link : other.owners.link n' = (i == n') := by
            simp only [Call.owners, Client.owners, Call.view, main]
          rw [link, beq_iff_eq] at holds
          subst holds
          have owned := (((apart.owns j other w there).forwarding i d m main).2)
          exact Classical.byContradiction fun other => opened_ne owned other mine
      | _ => simp [Call.owners, Client.owners, Call.view, main] at holds
    rw [same, standing.here] at there
    cases there
    exact holds
  · exact fun holds => ⟨call, List.mem_of_getElem? standing.here, holds⟩

theorem Standing.owners_map (standing : s.Standing k c call w ls ms) (t : Nat)
    (named : Names ms m m') : (s.owners t).map m' = c.owners.map m := by
  have held : s.holders[m']? = some k := (standing.maps m').mp named.mem
  show ((s.holders[m']?.bind fun k => s.calls[k]?).any fun call => call.owners.map m') = _
  rw [held, Option.bind_some, standing.here]
  exact standing.hosted.forwarding

theorem Standing.senders (standing : s.Standing k c call w ls ms) (apart : s.Apart) (t : Nat)
    (named : Names ls n n') :
    c.endpoint.senders c.owners n = (s.heap w).senders (s.owners t) n' := by
  have heap := standing.hosted.heap
  obtain ⟨l, l', here, there, same⟩ := heap.links.slot n n' named
  have there : (s.heap w).links[n']? = some l' := there
  have readers : (c.endpoint.links.any fun x => x.map = l.map ∧ x.conn.reader ≠ .done) =
      s.links.any fun y => y.map = l'.map ∧ y.conn.reader ≠ .done := by
    apply heap.links.any_iff
    · intro x y rel
      apply decide_eq_decide.mpr
      rw [rel.conn, Names.eq_iff heap.maps.distinct rel.map same.map]
    · intro i y found holds
      have map : y.map = l'.map := (of_decide_eq_true holds).1
      have bound : i < s.captured.length := apart.captured.symm ▸ Slots.get_lt found
      have caught := List.getElem?_eq_getElem bound
      have home := apart.home i y _ found caught
      have held := (standing.maps l'.map).mp same.map.mem
      rw [map, Reconnect.holds, held] at home
      exact (standing.links i).mpr ⟨_, caught, (Option.some.inj home).symm⟩
  have alive : c.endpoint.mapAlive c.owners l.map = (s.heap w).mapAlive (s.owners t) l'.map := by
    unfold Endpoint.mapAlive
    rw [standing.owners_map t same.map, readers]
    rfl
  have found : (c.endpoint.lookup l.map l.connId == some n) =
      ((s.heap w).lookup l'.map l'.connId == some n') := by
    rw [same.connId]
    exact heap.lookup_beq same.map named
  unfold Endpoint.senders
  rw [standing.owners_link apart t named, here, there]
  simp only [alive, found]

theorem Standing.tunnelSenders (standing : s.Standing k c call w ls ms) (apart : s.Apart) :
    c.endpoint.tunnelSenders c.owners = s.tunnelSenders call.tunnel := by
  have own := apart.own k call standing.here
  have calls : (s.calls.any fun other => other.tunnel = call.tunnel ∧ other.owners.tunnel) =
      c.owners.tunnel := by
    have mine : call.owners.tunnel = c.owners.tunnel := standing.hosted.owners_tunnel
    rw [← mine]
    apply Bool.eq_iff_iff.mpr
    rw [List.any_eq_true]
    constructor
    · rintro ⟨other, mem, holds⟩
      obtain ⟨j, there⟩ := List.mem_iff_getElem?.mp mem
      obtain ⟨same, holds⟩ := of_decide_eq_true holds
      rw [apart.own j other there, own] at same
      rw [same, standing.here] at there
      cases there
      exact holds
    · exact fun holds =>
        ⟨call, List.mem_of_getElem? standing.here, decide_eq_true ⟨rfl, holds⟩⟩
  unfold Endpoint.tunnelSenders Reconnect.tunnelSenders
  rw [calls]
  apply congrArg (c.owners.tunnel || ·)
  apply Bool.eq_iff_iff.mpr
  rw [List.any_eq_true, List.any_eq_true]
  constructor
  · rintro ⟨l, mem, reading⟩
    obtain ⟨n, here⟩ := List.mem_iff_getElem?.mp mem
    obtain ⟨n', named⟩ := standing.hosted.heap.links.names here
    obtain ⟨l', there, same⟩ := standing.hosted.heap.links.get_own named here
    obtain ⟨captured, caught, of⟩ := (standing.links n').mp named.mem
    refine ⟨(l', captured), List.mem_iff_getElem?.mpr ⟨n', ?_⟩, ?_⟩
    · exact List.getElem?_zip_eq_some.mpr ⟨there, caught⟩
    · have tunnel := (apart.caught n' captured caught).1
      rw [of, ← own] at tunnel
      exact decide_eq_true ⟨tunnel, same.conn ▸ of_decide_eq_true reading⟩
  · rintro ⟨⟨l', captured⟩, mem, holds⟩
    obtain ⟨n', found⟩ := List.mem_iff_getElem?.mp mem
    obtain ⟨there, caught⟩ := List.getElem?_zip_eq_some.mp found
    obtain ⟨tunnel, reading⟩ := of_decide_eq_true holds
    have of := (apart.caught n' captured caught).1
    rw [tunnel, own] at of
    obtain ⟨n, named⟩ := Names.of_mem ((standing.links n').mpr ⟨captured, caught, of.symm⟩)
    obtain ⟨l, here, same⟩ := standing.hosted.heap.links.get named there
    exact ⟨l, List.mem_of_getElem? here, decide_eq_true (same.conn ▸ reading)⟩

end owners

/-! ## Steps -/

/-- Only a new connection makes a new call. -/
theorem calls_of_step (move : s.step a = some s') :
    s'.config = s.config ∧ (s'.calls.length = s.calls.length ∨
      ∃ sndBuf, a = .connected sndBuf ∧ s'.calls.length = s.calls.length + 1) := by
  cases a with
  | connectFailed | handshakeFailed =>
      obtain ⟨-, move⟩ := Option.ite_none_right_eq_some.mp move
      cases move
      exact ⟨rfl, Or.inl rfl⟩
  | connected sndBuf =>
      obtain ⟨-, move⟩ := Option.ite_none_right_eq_some.mp move
      cases move
      exact ⟨rfl, Or.inr ⟨sndBuf, rfl, List.length_append⟩⟩
  | returned =>
      simp only [step] at move
      split at move
      · obtain ⟨call, -, move⟩ := Option.bind_eq_some_iff.mp move
        obtain ⟨-, move⟩ := Option.ite_none_right_eq_some.mp move
        cases move
        exact ⟨rfl, Or.inl rfl⟩
      · cases move
  | wake =>
      simp only [step] at move
      split at move
      · cases move
        exact ⟨rfl, Or.inl rfl⟩
      · cases move
  | call k b =>
      obtain ⟨-, move⟩ := Option.ite_none_left_eq_some.mp move
      obtain ⟨call, -, move⟩ := Option.bind_eq_some_iff.mp move
      obtain ⟨w, -, move⟩ := Option.bind_eq_some_iff.mp move
      obtain ⟨c, -, rfl⟩ := Option.map_eq_some_iff.mp move
      exact ⟨rfl, Or.inl List.length_set⟩
  | writer k b =>
      obtain ⟨call, -, move⟩ := Option.bind_eq_some_iff.mp move
      obtain ⟨w, -, move⟩ := Option.bind_eq_some_iff.mp move
      obtain ⟨w', -, rfl⟩ := Option.map_eq_some_iff.mp move
      exact ⟨rfl, Or.inl rfl⟩
  | task b =>
      obtain ⟨n, -, move⟩ := Option.bind_eq_some_iff.mp move
      obtain ⟨captured, -, move⟩ := Option.bind_eq_some_iff.mp move
      obtain ⟨w, -, move⟩ := Option.bind_eq_some_iff.mp move
      obtain ⟨e, -, rfl⟩ := Option.map_eq_some_iff.mp move
      exact ⟨rfl, Or.inl rfl⟩

/-- What changes elsewhere in the heap does not matter to the call. -/
theorem Hosts.untouched (hosts : s.Hosts k c) (config : s'.config = s.config)
    (same : Untouched s s' k) : s'.Hosts k c := by
  obtain ⟨call, w, ls, ms, here, behind, hosted, links, maps⟩ := hosts
  refine ⟨call, w, ls, ms, same.call.trans here, (same.tunnel call here).trans behind, ?_, ?_, ?_⟩
  · have heap : c.endpoint.Hosted ls ms (s'.heap w) := by
      refine ⟨hosted.heap.tunnel, hosted.heap.links.frame ?_, hosted.heap.maps.frame ?_⟩
      · exact fun n mem => same.links n ((links n).mp mem)
      · exact fun m mem => same.maps m ((maps m).mp mem)
    rw [config]
    exact hosted.setEndpoint heap
  · exact fun n => (links n).trans (same.opened n).symm
  · exact fun m => (maps m).trans (same.holds m).symm

theorem hosts_other (apart : s.Apart) (hosts : s.Hosts k c) (move : s.step a = some s')
    (other : s.actor a ≠ some k) : s'.Hosts k c := by
  obtain ⟨call, _, _, _, here, _⟩ := id hosts
  exact hosts.untouched (calls_of_step move).1 ((apart.step move).2 k (Slots.get_lt here) other)

theorem hosts_connected (apart : s.Apart) {sndBuf : Nat}
    (move : s.step (.connected sndBuf) = some s') :
    s'.Hosts s.calls.length (.start s.config sndBuf) := by
  obtain ⟨-, move⟩ := Option.ite_none_right_eq_some.mp move
  cases move
  refine ⟨(Client.start s.config sndBuf).call s.tunnels.length, _, [], [],
    List.getElem?_concat_length, List.getElem?_concat_length, ?_, ?_, ?_⟩
  · exact Client.Hosted.fresh s.config sndBuf rfl
  · refine fun n => ⟨fun mem => absurd mem List.not_mem_nil, ?_⟩
    rintro ⟨captured, caught, same⟩
    exact absurd same (Nat.ne_of_lt (apart.caught n captured caught).2)
  · refine fun m => ⟨fun mem => absurd mem List.not_mem_nil, fun held => ?_⟩
    exact absurd (apart.held _ m held) (Nat.lt_irrefl _)

theorem hosts_own (apart : s.Apart) (hosts : s.Hosts k c) (move : s.step a = some s')
    (own : s.actor a = some k) :
    ∃ b c', Mirrors a b ∧ c.step b = some c' ∧ s'.Hosts k c' := by
  obtain ⟨call, w, ls, ms, standing⟩ := hosts
  have tunnel := apart.own k call standing.here
  cases a with
  | connectFailed | handshakeFailed | connected | returned | wake => cases own
  | call i b =>
      cases own
      obtain ⟨main, move⟩ := Option.ite_none_left_eq_some.mp move
      obtain ⟨call', here, move⟩ := Option.bind_eq_some_iff.mp move
      rw [standing.here] at here
      cases here
      obtain ⟨w', behind, move⟩ := Option.bind_eq_some_iff.mp move
      rw [standing.behind] at behind
      cases behind
      obtain ⟨g', step, rfl⟩ := Option.map_eq_some_iff.mp move
      have main : b.isEndpoint = false := by simpa using main
      obtain ⟨c', own, ls', ms', hosted, links, maps⟩ := standing.hosted.step main step
      have step := Client.moves_of_step step
      have config : g'.config = s.config := Client.config_of_step step
      obtain ⟨-, within⟩ := (apart.owns k call w standing.here).step step main
      refine ⟨b, c', .call k b, own, g'.call call.tunnel, g'.endpoint.tunnel, ls', ms',
        Slots.get_set_self standing.here, Slots.get_set_self standing.behind, ?_, ?_, ?_⟩
      · have view : (g'.call call.tunnel).view g'.config g'.endpoint = g' := rfl
        rw [config] at view
        show c'.Hosted ls' ms' ((g'.call call.tunnel).view s.config g'.endpoint)
        rw [view]
        exact hosted
      · intro n
        have after : (s.commit k call.tunnel w g').opened k n ↔ _ := opened_commit apart within.links_le
        refine (links n).trans (Iff.trans ?_ after.symm)
        exact or_congr (standing.links n) (and_iff_right rfl).symm
      · intro m
        have after : (s.commit k call.tunnel w g').holds k m ↔ _ := holds_commit apart within.maps_le
        refine (maps m).trans (Iff.trans ?_ after.symm)
        exact or_congr (standing.maps m) (and_iff_right rfl).symm
  | writer i b =>
      cases own
      obtain ⟨call', here, move⟩ := Option.bind_eq_some_iff.mp move
      rw [standing.here] at here
      cases here
      obtain ⟨w', behind, move⟩ := Option.bind_eq_some_iff.mp move
      rw [standing.behind] at behind
      cases behind
      obtain ⟨w', step, rfl⟩ := Option.map_eq_some_iff.mp move
      have same : w = c.endpoint.tunnel := standing.hosted.heap.tunnel
      rw [← standing.tunnelSenders apart, same] at step
      have heap := standing.hosted.heap
      refine ⟨.endpoint (.writer b), { c with endpoint := { c.endpoint with tunnel := w' } },
        .writer k b, ?_, call, w', ls, ms, standing.here, Slots.get_set_self standing.behind, ?_,
        standing.links, standing.maps⟩
      · simp only [Client.step, Endpoint.step, step, Option.map_some]
      · exact standing.hosted.setEndpoint ⟨rfl, heap.links, heap.maps⟩
  | task b =>
      obtain ⟨n', link, move⟩ := Option.bind_eq_some_iff.mp move
      obtain ⟨captured, caught, move⟩ := Option.bind_eq_some_iff.mp move
      obtain ⟨w', behind, move⟩ := Option.bind_eq_some_iff.mp move
      obtain ⟨e, step, rfl⟩ := Option.map_eq_some_iff.mp move
      have same : captured.call = k := by
        simpa [actor, link, caught] using own
      have tunnel' : captured.tunnel = call.tunnel := by
        rw [(apart.caught n' captured caught).1, same, tunnel]
      rw [tunnel', standing.behind] at behind
      cases behind
      have opened : s.opened k n' := ⟨captured, caught, same⟩
      obtain ⟨n, named⟩ := Names.of_mem ((standing.links n').mpr opened)
      obtain ⟨e', move, heap⟩ := standing.hosted.heap.step link named
        (standing.senders apart captured.tunnel named) step
      refine ⟨.endpoint (b.renamed n), { c with endpoint := e' }, .task link n, ?_, call, e.tunnel, ls,
        ms, standing.here, ?_, standing.hosted.setEndpoint heap, standing.links, standing.maps⟩
      · simp only [Client.step, move, Option.map_some]
      · show (s.tunnels.set captured.tunnel e.tunnel)[call.tunnel]? = _
        rw [tunnel']
        exact Slots.get_set_self standing.behind

theorem hosted_of_run {config : List ClientInfo} (run : Reach step (start config) s) :
    s.config = config ∧ ∀ k < s.calls.length, ∃ c : Client, c.Reachable config ∧ s.Hosts k c := by
  refine run.induct (P := fun s => s.config = config ∧
    ∀ k < s.calls.length, ∃ c : Client, c.Reachable config ∧ s.Hosts k c) ⟨rfl, ?_⟩ ?_
  · exact fun k bound => absurd bound (Nat.not_lt_zero k)
  · intro s a s' before ih _ move
    obtain ⟨same, hosted⟩ := ih
    have apart := apart_of_run before
    obtain ⟨config', calls⟩ := calls_of_step move
    refine ⟨config'.trans same, fun k bound => ?_⟩
    by_cases old : k < s.calls.length
    · obtain ⟨c, reach, hosts⟩ := hosted k old
      by_cases own : s.actor a = some k
      · obtain ⟨b, c', -, step, after⟩ := hosts_own apart hosts move own
        obtain ⟨sndBuf, run⟩ := reach
        exact ⟨c', ⟨sndBuf, run.tail trivial step⟩, after⟩
      · exact ⟨c, reach, hosts_other apart hosts move own⟩
    · rcases calls with kept | ⟨sndBuf, rfl, more⟩
      · exact absurd (kept ▸ bound) old
      · have last : k = s.calls.length := by omega
        have hosts := hosts_connected apart move
        rw [same] at hosts
        exact ⟨.start config sndBuf, ⟨sndBuf, Run.refl _⟩, last ▸ hosts⟩

/-- Every call of `run_proxy`, whatever the tasks of the other calls do in the same heap, is a client
that runs by itself: it has come there by steps of its own, and any further step of the process is
either its next step or leaves it as it is. -/
theorem calls_hosted (config : List ClientInfo) (s : Reconnect)
    (run : Reach step (start config) s) :
    (∀ (k : Nat) (call : Call), s.calls[k]? = some call →
      ∃ c : Client, c.Reachable config ∧ s.Hosts k c) ∧
    ∀ (k : Nat) (c : Client) (a : ReconnectAct) (s' : Reconnect), s.Hosts k c →
      s.step a = some s' →
      (s.actor a ≠ some k → s'.Hosts k c) ∧
      (s.actor a = some k → ∃ b c', Mirrors a b ∧ c.step b = some c' ∧ s'.Hosts k c') := by
  have apart := apart_of_run run
  constructor
  · exact fun k call here => (hosted_of_run run).2 k (Slots.get_lt here)
  · intro k c a s' hosts move
    exact ⟨hosts_other apart hosts move, hosts_own apart hosts move⟩

/-- A connection of the first call is still open when the second call opens its own. -/
theorem calls_hosted_overlap : ∃ (s : Reconnect) (config : List ClientInfo) (c c' : Client),
    s.links.map (fun l => l.conn.reader) = [.reading, .reading] ∧
    c.Reachable config ∧ s.Hosts 0 c ∧ c'.Reachable config ∧ s.Hosts 1 c' := by
  let ssh : ClientInfo := ⟨"ssh", 22001, "127.0.0.1", 22, "tcp", "127.0.0.1:22"⟩
  have view : (exec step (start [ssh])
      (opensConn 0 ssh ++ [.call 0 (.exit .eof), .returned, .wake] ++ opensConn 1 ssh)).map
        (fun s => (s.calls.length, s.links.map fun l => l.conn.reader)) =
        some (2, [.reading, .reading]) := by decide
  obtain ⟨s, run, view⟩ := Option.map_eq_some_iff.mp view
  obtain ⟨two, readers⟩ := Prod.mk.inj view
  have hosted := (calls_hosted [ssh] s (reach_of_exec _ run)).1
  obtain ⟨call, first⟩ : ∃ call, s.calls[0]? = some call := ⟨_, List.getElem?_eq_getElem (by omega)⟩
  obtain ⟨call', second⟩ : ∃ call, s.calls[1]? = some call :=
    ⟨_, List.getElem?_eq_getElem (by omega)⟩
  obtain ⟨c, reach, hosts⟩ := hosted 0 call first
  obtain ⟨c', reach', hosts'⟩ := hosted 1 call' second
  exact ⟨s, [ssh], c, c', readers, reach, hosts, reach', hosts'⟩

end Reconnect

end Rfrp
