import Rfrp.Server.RoutingTable

/-!
# Delivery without gaps

A client that answers only what it was told of, a data frame at a time: each external connection is
handed a prefix of what was sent under its ids, and what is lost to it is lost with everything
after it. This rests on ids that are not reused; they are counted in 64 bits and wrap around.
-/

namespace Rfrp.Server

open Transition Endpoint

variable {s s' : Server} {a : ServerAct} {n : Nat} {l : Link UInt16}

/-- The client sends data under some ids only after it has received data under them. -/
def tellsFirst (s : Server) : ServerAct → Bool
  | .recv (.data d) => (dataOf s.endpoint.tunnel.wire.received).any fun told =>
      told.proxyId = d.proxyId ∧ told.connId = d.connId
  | _ => true

theorem polite_of_tellsFirst (reach : s.Reachable) (told : s.tellsFirst a = true) : Polite s a := by
  intro d same
  subst same
  obtain ⟨d', received, ids⟩ := List.any_eq_true.mp told
  obtain ⟨proxy, conn⟩ := of_decide_eq_true ids
  obtain ⟨origin, up⟩ := reach.upstream
  have whole : s.endpoint.tunnel.wire.received <+: s.endpoint.tunnel.chan.log :=
    (Fifo.received_isPrefix _).trans reach.endpoint_ok.tunnel.wire_isPrefix
  have queued : d' ∈ dataOf s.endpoint.tunnel.chan.log :=
    (whole.sublist.filterMap RfrpFrame.dataInfo?).subset received
  rw [up.frames] at queued
  obtain ⟨x, mem, rfl⟩ := List.mem_map.mp queued
  obtain ⟨l, here, proxy', conn'⟩ := up.ids x mem
  exact ⟨l, List.mem_of_getElem? here, proxy'.trans proxy, conn'.trans conn⟩

theorem polite_of_run {sndBuf : Nat} (run : Run step (fun s a => s.tellsFirst a) (start sndBuf) s) :
    Run step Polite (start sndBuf) s := by
  apply run.induct (Run.refl _)
  intro t a u before ih told step
  exact ih.tail (polite_of_tellsFirst ⟨sndBuf, before.reach⟩ told) step

theorem lost_of_run (reach : s.Reachable) (lost : s.endpoint.Lost s.hand n l)
    (run : Reach step s s') :
    ∃ l', s'.endpoint.Lost s'.hand n l' ∧ l'.conn.chan.log = l.conn.chan.log := by
  obtain ⟨sndBuf, before⟩ := reach
  apply run.induct
  · exact ⟨l, lost, rfl⟩
  · intro t a u between ⟨l', lost', same⟩ _ step
    have feeds := feeds_of_step ⟨sndBuf, before.trans between⟩ (moves_of_step step)
    obtain ⟨l'', lost'', same'⟩ := lost'.feeds feeds
    exact ⟨l'', lost'', same'.trans same⟩

theorem delivery (sndBuf : Nat) (s : Server)
    (run : Run step (fun s a => s.tellsFirst a) (start sndBuf) s)
    (few : ∀ r, s.accepted r < 2 ^ 64) (n : Nat) (l : Link UInt16)
    (here : s.endpoint.links[n]? = some l) :
    l.conn.outbound.log ++ l.conn.held <+:
      (payloads l.proxyId l.connId (dataOf s.received)).flatten ∧
    l.conn.chan.log <+: payloads l.proxyId l.connId (dataOf s.received) ∧
    (l.conn.chan.log ++ handFor s.hand n ≠ payloads l.proxyId l.connId (dataOf s.received) →
      ∀ s', Run step (fun s a => s.tellsFirst a) s s' → ∃ l', s'.endpoint.links[n]? = some l' ∧
        l'.conn.chan.log = l.conn.chan.log) := by
  have reach : s.Reachable := ⟨sndBuf, run.reach⟩
  have whole := polite_noGaps (polite_of_run run) few
  obtain ⟨pre, -⟩ := whole n l here
  refine ⟨?_, pre, ?_⟩
  · have handed := (reach.endpoint_ok.conns n l here).handed
    have taken := (Fifo.received_isPrefix l.conn.chan).trans pre
    exact handed.trans taken.flatten
  · intro missing s' more
    obtain ⟨l', lost, same⟩ := lost_of_run reach (whole.lost here missing) more.reach
    exact ⟨l', lost.1, same⟩

/-! ## Ids that come back -/

def sshClient : ClientInfo := ⟨"ssh", 22001, "127.0.0.1", 22, "tcp", ""⟩

def firstVisit : List ServerAct :=
  [.recv (.register sshClient), .bind 0 true, .answer 0, .endpoint (.writer .recv),
    .endpoint (.writer .sent), .endpoint (.writer .peerReads), .connect 0, .accept 0 8, .acquire 0,
    .endpoint (.conn 0 (.peerSends [1])), .endpoint (.conn 0 (.read 1)), .endpoint (.sendData 0),
    .endpoint (.writer .recv), .endpoint (.writer .sent), .endpoint (.writer .peerReads),
    .recv (.data ⟨0, 0, [7]⟩), .route, .endpoint (.conn 0 .peerShutdown),
    .endpoint (.conn 0 .readEof), .endpoint (.remove 0), .endpoint (.finish 0)]

def arrive : List ServerAct := [.connect 0, .accept 0 8, .acquire 0]

def leave (n : Nat) : List ServerAct :=
  [.endpoint (.conn n .peerShutdown), .endpoint (.conn n .readEof), .endpoint (.remove n),
    .endpoint (.finish n)]

def visited (c : UInt64) (map : DashMap UInt64 Nat) (links : List (Link UInt16)) : Server where
  main := .reading
  received := [.register sshClient, .data ⟨0, 0, [7]⟩]
  nextProxyId := 1
  proxyRouting := DashMap.empty.insert 0 0
  cachedRouting := some (0, 0)
  tasks := [⟨sshClient, 0, 0, .accepting, c, 0, false⟩]
  endpoint :=
    { tunnel :=
        { chan := ⟨[.newRegAckFrame sshClient true 0, .newDataFrame [1] 0 0], 2, Nat.le_refl 2⟩
          task := .receiving
          wire := ⟨[.newRegAckFrame sshClient true 0, .newDataFrame [1] 0 0], 2, Nat.le_refl 2⟩
          sndBuf := 8
          aborted := false }
      maps := [map]
      links }

def visitor (c : UInt64) (conn : Conn) : Link UInt16 := ⟨22001, 0, c, 0, conn⟩

theorem firstVisit_exec : ∃ map l, l.conn.reader = .done ∧
    exec (guarded step fun s a => s.tellsFirst a) (start 8) firstVisit =
      some (visited 1 map [l]) := by
  refine ⟨_, _, ?_, rfl⟩
  rfl

section
variable (c i : UInt64) (map : DashMap UInt64 Nat) {links : List (Link UInt16)}

theorem arrive_exec (left : ∀ l ∈ links, l.conn.reader = .done) :
    exec (guarded step fun s a => s.tellsFirst a) (visited c map links) arrive =
      some (visited (c + 1) (map.insert c links.length)
        (links ++ [visitor c (Conn.fresh 8).spawn])) := by
  have free : links.countP (fun l => decide (l.map = 0) &&
      (!decide (l.conn.reader = .unspawned) && !decide (l.conn.reader = .done))) = 0 := by
    apply List.countP_eq_zero.mpr
    intro l mem
    simp [left l mem]
  simp [exec, guarded, arrive, visited, visitor, step, tellsFirst, setTask, acceptConn,
    RegTask.bound, Endpoint.addLink, Endpoint.setLink, Link.setConn, permitsTaken,
    Link.holdsPermit, Conn.fresh, Conn.spawn, free, maxConcurrentExternalConns, sshClient]

theorem leave_exec (links : List (Link UInt16)) :
    exec (guarded step fun s a => s.tellsFirst a)
      (visited c map (links ++ [visitor i (Conn.fresh 8).spawn])) (leave links.length) =
      some (visited c (map.remove i) (links ++ [visitor i
        { (Conn.fresh 8).spawn with eof := true, reader := .done }])) := by
  simp [exec, guarded, leave, visited, visitor, step, tellsFirst, Endpoint.step, Endpoint.setLink,
    Link.setConn, Link.setReader, Conn.step, Conn.fresh, Conn.spawn]

end

abbrev Tells : Server → Server → Prop := Run step fun s a => s.tellsFirst a

theorem visits (k : Nat) : ∃ map links, Tells (start 8) (visited (UInt64.ofNat (k + 1)) map links) ∧
    ∀ l ∈ links, l.conn.reader = .done := by
  induction k with
  | zero =>
      obtain ⟨map, l, left, first⟩ := firstVisit_exec
      refine ⟨map, [l], run_of_exec _ first, ?_⟩
      intro l' mem
      rw [List.mem_singleton.mp mem]
      exact left
  | succ k ih =>
      obtain ⟨map, links, run, left⟩ := ih
      have next : UInt64.ofNat (k + 1) + 1 = UInt64.ofNat (k + 1 + 1) := by
        rw [UInt64.ofNat_add (k + 1) 1]
        rfl
      have come := run_of_exec _ (arrive_exec (UInt64.ofNat (k + 1)) map left)
      have go := run_of_exec _ (leave_exec (UInt64.ofNat (k + 1) + 1) (UInt64.ofNat (k + 1))
        (map.insert (UInt64.ofNat (k + 1)) links.length) links)
      rw [← next]
      refine ⟨_, _, run.trans (come.trans go), ?_⟩
      intro l mem
      rcases List.mem_append.mp mem with old | new
      · exact left l old
      · rw [List.mem_singleton.mp new]
        rfl

def answerAgain (n : Nat) : List ServerAct :=
  [.recv (.data ⟨0, 0, [8]⟩), .route, .endpoint (.conn n .recv)]

theorem answerAgain_exec (c : UInt64) (map : DashMap UInt64 Nat) (links : List (Link UInt16)) :
    ∃ s, exec (guarded step fun s a => s.tellsFirst a)
      (visited c (map.insert 0 links.length) (links ++ [visitor 0 (Conn.fresh 8).spawn]))
      (answerAgain links.length) = some s ∧
      s.endpoint.links[links.length]? = some (visitor 0 { (Conn.fresh 8).spawn with
        chan := ⟨[[8]], 1, Nat.le_refl 1⟩, held := [8], writer := .writing [8] }) ∧
      dataOf s.received = [⟨0, 0, [7]⟩, ⟨0, 0, [8]⟩] := by
  have told : ∀ ls m, (visited c m ls).tellsFirst (.recv (.data ⟨0, 0, [8]⟩)) = true :=
    fun _ _ => rfl
  simp only [answerAgain, exec, guarded, told, if_true]
  simp [visited, visitor, step, tellsFirst, handleFrame, routingFor,
    Endpoint.lookup, Endpoint.deliver, Endpoint.step, Endpoint.setLink, Link.setConn, Conn.step,
    Conn.send, Conn.closed, Conn.fresh, Conn.spawn, channelCapacity]
  exact ⟨rfl, rfl⟩

theorem delivery_first : ∃ s l, Tells (start 8) s ∧ s.endpoint.links = [l] ∧
    dataOf s.received = [⟨0, 0, [7]⟩] ∧
    l.conn.chan.log <+: payloads l.proxyId l.connId (dataOf s.received) := by
  obtain ⟨map, l, -, first⟩ := firstVisit_exec
  have run : Tells (start 8) (visited 1 map [l]) := run_of_exec _ first
  refine ⟨_, l, run, rfl, rfl, ?_⟩
  have few : ∀ r, (visited 1 map [l]).accepted r < 2 ^ 64 := fun r => by
    have le : (visited 1 map [l]).accepted r ≤ 1 := accepted_le _ r
    omega
  exact (delivery 8 _ run few 0 l rfl).2.1

theorem ids_wrap : ¬ ∀ (sndBuf : Nat) (s : Server), Tells (start sndBuf) s →
    ∀ (n : Nat) (l : Link UInt16), s.endpoint.links[n]? = some l → l.conn.outbound.log ++ l.conn.held <+:
      (payloads l.proxyId l.connId (dataOf s.received)).flatten := by
  intro claim
  obtain ⟨map, links, run, left⟩ := visits (2 ^ 64 - 1)
  have wrapped : UInt64.ofNat (2 ^ 64 - 1 + 1) = 0 := by decide
  rw [wrapped] at run
  have come := run_of_exec _ (arrive_exec 0 map left)
  obtain ⟨s, answered, here, frames⟩ := answerAgain_exec (0 + 1) map links
  have handed := claim 8 s (run.trans (come.trans (run_of_exec _ answered))) _ _ here
  rw [frames] at handed
  revert handed
  decide

end Rfrp.Server
