import Rfrp.Session.Registering
import Rfrp.Session.Work

/-!
# Draining

The users and the internal services attend to a session when they read what they are given and
answer connects. Then nothing that a session can have come to keeps it busy: in whatever order its
tasks move, after so many steps it waits for new input, unless the client has been turned down or a
user waits for a permit that others hold.
-/

namespace Rfrp

open Transition

/-- The peer of connection `n` has `k` bytes to read. -/
def Endpoint.unread {τ : Type} (e : Endpoint τ) (n k : Nat) : Bool :=
  0 < k ∧ e.links[n]?.any fun l => k ≤ l.conn.outbound.queue.length

theorem Endpoint.work_unread {τ : Type} {o : Owners} {e e' : Endpoint τ} {n k : Nat} (rates : Rates)
    (unread : e.unread n k = true) (move : e.step o (.conn n (.peerReads k)) = some e') :
    e'.work rates < e.work rates := by
  obtain ⟨some, there⟩ := of_decide_eq_true unread
  cases moves_of_step move with
  | @conn n l a conn here moved =>
      rw [here, Option.any_some, decide_eq_true_eq] at there
      cases Conn.moves_of_step moved with
      | peerReads =>
          apply Nat.lt_of_add_lt_add_right (n := linkWork rates l)
          rw [work_setLink rates here]
          apply Nat.add_lt_add_left
          simp only [linkWork, Link.setConn, Conn.work, Fifo.queue_advance, List.length_drop]
          omega

/-- A frame writer with nothing to do has passed on all that was queued. -/
theorem FrameWriter.Waits.received {w : FrameWriter} (waits : w.Waits) (ok : w.Ok) :
    w.wire.received = w.chan.log := by
  obtain ⟨receiving, chan, wire⟩ := waits
  have sent := ok.sent_eq (by simp [receiving])
  have hand : w.inHand = [] := by simp [inHand, receiving]
  rw [hand, List.append_nil, Fifo.received_eq_log chan] at sent
  rw [Fifo.received_eq_log wire, sent]

theorem SessionAct.roomy_of_inside {a : SessionAct} (task : a.isTask = true)
    (inside : a.feeds = false) : a.roomy = true := by
  unfold SessionAct.roomy
  split
  · cases inside
  · cases task
  · rfl

namespace Session

variable {s s' : Session} {a : SessionAct} {config : ConfigInfo}

/-- The steps of peers that attend to the session. -/
def attends (s : Session) : SessionAct → Bool
  | .server (.endpoint (.conn n (.peerReads k))) => s.server.endpoint.unread n k
  | .client (.endpoint (.conn n (.peerReads k))) => s.client.endpoint.unread n k
  | .client (.connected _) | .client .refused => true
  | _ => false

def drains (s : Session) (a : SessionAct) : Prop :=
  a.roomy = true ∧ (a.isTask = true ∨ s.attends a = true)

instance (s : Session) (a : SessionAct) : Decidable (s.drains a) := inferInstanceAs (Decidable (_ ∧ _))

theorem work_drains : ∀ s a t, drains s a → step s a = some t → t.work < s.work := by
  rintro s a t ⟨-, own⟩ move
  rcases own with task | attends
  · obtain ⟨costs, brings⟩ := SessionAct.costs_of_isTask task
    have paid := pays s a t move
    omega
  · unfold Session.attends at attends
    split at attends
    · cases moves_of_step move with
      | server _ moved =>
          obtain ⟨endpoint, turned, rfl⟩ := Option.map_eq_some_iff.mp moved
          have less := Endpoint.work_unread Rates.server attends turned
          simp only [work, Server.work]
          omega
    · cases moves_of_step move with
      | client _ moved =>
          obtain ⟨endpoint, turned, rfl⟩ := Option.map_eq_some_iff.mp moved
          have less := Endpoint.work_unread Rates.client attends turned
          simp only [work, Client.work]
          omega
    · exact Nat.lt_of_succ_le (pays s _ t move)
    · exact Nat.lt_of_succ_le (pays s _ t move)
    · cases attends

/-! ## Both sides stay up -/

structure Up (s : Session) : Prop where
  serverRoom : s.server.endpoint.Roomy
  clientRoom : s.client.endpoint.Roomy
  server : s.server.AnswersAll
  client : (s.client.running = true ∧ s.client.endpoint.Going) ∨ s.client.turnedDown

theorem server_fine {b : ServerAct} (drains : s.drains (.server b)) : b.transportFails = false := by
  cases fine : b.transportFails with
  | false => rfl
  | true =>
      unfold ServerAct.transportFails at fine
      split at fine
      · rcases drains.2 with own | own <;> cases own
      · rcases drains.2 with own | own <;> cases own
      · cases fine

theorem client_fine {b : ClientAct} (drains : s.drains (.client b)) : b.transportFails = false := by
  cases fine : b.transportFails with
  | false => rfl
  | true =>
      unfold ClientAct.transportFails at fine
      split at fine
      · rcases drains.2 with own | own <;> cases own
      · rcases drains.2 with own | own <;> cases own
      · cases fine

theorem Up.step (up : s.Up) (reach : s.Reachable config) (drains : s.drains a)
    (h : Moves s a s') : s'.Up := by
  obtain ⟨serverRoom, clientRoom, server, client⟩ := up
  cases h with
  | server _ move =>
      exact ⟨server_roomy reach serverRoom drains.1 move, clientRoom,
        server.step reach.server (server_fine drains) (Server.moves_of_step move), client⟩
  | client _ move =>
      exact ⟨serverRoom, client_roomy clientRoom drains.1 move, server,
        Client.turnedDown_of_step client (client_fine drains) (Client.moves_of_step move)⟩
  | toServer _ read recv =>
      exact ⟨server_roomy reach serverRoom rfl recv, client_roomy clientRoom rfl read,
        server.step reach.server rfl (Server.moves_of_step recv),
        Client.turnedDown_of_step client rfl (Client.moves_of_step read)⟩
  | toClient _ read recv =>
      exact ⟨server_roomy reach serverRoom rfl read, client_roomy clientRoom rfl recv,
        server.step reach.server rfl (Server.moves_of_step read),
        Client.turnedDown_of_step client rfl (Client.moves_of_step recv)⟩

/-! ## Where it rests -/

/-- All permits of a listener are taken, and a user it has accepted waits for one. -/
def Crowded (s : Session) : Prop :=
  ∃ (r n : Nat) (t : RegTask), s.server.tasks[r]? = some t ∧ t.pc = .acquiring n ∧
    maxConcurrentExternalConns ≤ s.server.permitsTaken t

/-- Nothing is under way: every task waits for input that nobody has sent. -/
structure Rests (s : Session) : Prop extends Idle s where
  registered : s.client.main = .reading
  users : ∀ (n : Nat) (l : Link UInt16), s.server.endpoint.links[n]? = some l → l.conn.ReadWaits
  listeners : ∀ t ∈ s.server.tasks, t.pc = .done ∨ (t.pc = .accepting ∧ t.backlog = 0)
  toServer : s.server.received = s.client.endpoint.tunnel.chan.log.map RfrpFrame.skipAddr
  toClient : s.client.received = s.server.endpoint.tunnel.chan.log.map RfrpFrame.skipAddr

section rests
variable (stuck : ∀ a, s.drains a → s.step a = none)
include stuck

theorem server_stuck {b : ServerAct} (task : b.isTask = true)
    (roomy : SessionAct.roomy (.server b) = true) : s.server.step b = none := by
  have here : b.isLocal = true := by
    cases b with
    | recv | exit => cases task
    | endpoint e =>
        cases e with
        | writer w => cases w <;> first | rfl | cases task
        | _ => rfl
    | _ => rfl
  have none := stuck (.server b) ⟨roomy, Or.inl task⟩
  simpa [step, here] using none

theorem server_parked : s.server.endpoint.Parked s.server.owners := by
  intro a task
  have none := server_stuck stuck (b := .endpoint a) task rfl
  simpa [Server.step] using none

theorem unsent_of_stuck : s.Unsent := by
  constructor
  · intro n l here
    by_contra unread
    have some : 1 ≤ l.conn.outbound.queue.length := List.length_pos_iff.mpr unread
    have none := stuck (.server (.endpoint (.conn n (.peerReads 1))))
      ⟨rfl, Or.inr (by simp [attends, Endpoint.unread, here, some])⟩
    simp [step, ServerAct.isLocal, Server.step, Endpoint.step, here, Conn.step] at none
  · intro n l here
    by_contra unread
    have some : 1 ≤ l.conn.outbound.queue.length := List.length_pos_iff.mpr unread
    have none := stuck (.client (.endpoint (.conn n (.peerReads 1))))
      ⟨rfl, Or.inr (by simp [attends, Endpoint.unread, here, some])⟩
    simp [step, ClientAct.isLocal, Client.step, Endpoint.step, here, Conn.step] at none

variable (reach : s.Reachable config) (uncrowded : ¬ s.Crowded)
include reach uncrowded

theorem spawned_of_stuck {n : Nat} {l : Link UInt16} (here : s.server.endpoint.links[n]? = some l) :
    l.conn.reader ≠ .unspawned := by
  intro new
  obtain ⟨t, task, pc⟩ := reach.server.accepted.waiting n l here (decide_eq_true new)
  have none := server_stuck stuck (b := .acquire l.map) rfl rfl
  have full : ¬ s.server.permitsTaken t < maxConcurrentExternalConns := by
    intro free
    simp [Server.step, task, pc, here, free] at none
  exact uncrowded ⟨l.map, n, t, task, pc, Nat.le_of_not_lt full⟩

variable (up : s.Up) (running : s.client.running = true)
include up running

theorem blocked_of_stuck (going : s.client.endpoint.Going) : s.Blocked where
  server := ⟨up.server.running, up.server.going.serving⟩
  client := ⟨running, going.serving⟩
  parked := fun a task inside => stuck a ⟨SessionAct.roomy_of_inside task inside, Or.inl task⟩
  attended := (unsent_of_stuck stuck).attended
  accepted := by
    intro client d m main
    have none := stuck (.client .refused) ⟨rfl, Or.inr rfl⟩
    simp [step, ClientAct.isLocal, Client.step, main] at none
  permitted := by
    intro n data l _ here new
    exact spawned_of_stuck stuck reach uncrowded here
      ((reach.server.endpoint_ok.conns n l here).spawned.mpr new)

/-- Where the services have read everything, the client's main loop reads or is about to register. -/
theorem main_of_stuck (going : s.client.endpoint.Going) : s.client.main = .reading ∨
    (∃ i, s.client.main = .awaiting i) ∨ ∃ i, s.client.main = .registering i := by
  have blocked := blocked_of_stuck stuck reach uncrowded up running going
  cases main : s.client.main with
  | reading => exact Or.inl rfl
  | awaiting i => exact Or.inr (Or.inl ⟨i, rfl⟩)
  | registering i => exact Or.inr (Or.inr ⟨i, rfl⟩)
  | connecting client d m => exact absurd main (blocked.accepted client d m)
  | ended r => simp [Client.running, main] at running
  | forwarding n d m =>
      have bound := reach.client.hand_lt n d.data (by simp [Client.hand, main])
      have here := List.getElem?_eq_getElem bound
      have spawned : (s.client.endpoint.links[n]).conn.writer ≠ .unspawned := by
        intro new
        have unspawned := (reach.client.endpoint_ok.conns n _ here).spawned.mpr new
        have waiting := reach.client.spawned n _ here
        simp [Link.waiting, unspawned] at waiting
      cases failing : s.client.endpoint.undeliverable n with
      | true =>
          have none := blocked.client_stuck (b := .forwardErr) rfl rfl
          simp [Client.step, main, failing] at none
      | false =>
          have none := blocked.client_stuck (b := .forward) rfl rfl
          have read := (unsent_of_stuck stuck).2 n _ here
          obtain ⟨endpoint, sent⟩ := Option.isSome_iff_exists.mp
            (deliver_isSome d.data blocked.client_endpoint.jammed up.clientRoom here read spawned
              failing)
          simp [Client.step, main, sent] at none

/-- Whoever has sent a ping is reading, so the pong finds room. -/
theorem pongRoom_of_stuck (going : s.client.endpoint.Going) : s.server.PongRoom := by
  intro main
  have blocked := blocked_of_stuck stuck reach uncrowded up running going
  have reads : s.client.main = .reading ∨ ∃ i, s.client.main = .awaiting i := by
    rcases main_of_stuck stuck reach uncrowded up running going with reads | awaits | ⟨i, registers⟩
    · exact Or.inl reads
    · exact Or.inr awaits
    · obtain ⟨g, heard, ping⟩ := reach.server.answering.ponging main
      obtain ⟨f, queued, rfl⟩ := List.mem_map.mp (reach.toServer.subset heard)
      have none := (reach.client.unpinged (by simp [Client.registering, registers])).frames f queued
      have same : f.skipAddr.isPing = f.isPing := by
        cases f <;> rfl
      rw [← same, ping] at none
      cases none
  have empty := blocked.server_endpoint.tunnel_waits up.serverRoom up.server.going.serving
    (blocked.toClient_read reads)
  rw [empty.2]
  decide

theorem rests_of_stuck (going : s.client.endpoint.Going) : s.Rests := by
  have blocked := blocked_of_stuck stuck reach uncrowded up running going
  have idle := blocked.idle reach up.serverRoom up.clientRoom
    (pongRoom_of_stuck stuck reach uncrowded up running going)
  have room : s.server.endpoint.tunnel.chan.queue.length < channelCapacity := by
    rw [idle.serverTunnel.2.1]
    decide
  have listeners : ∀ t ∈ s.server.tasks, t.pc = .done ∨ (t.pc = .accepting ∧ t.backlog = 0) := by
    intro t mem
    obtain ⟨r, here⟩ := List.mem_iff_getElem?.mp mem
    have answers : ∀ f t', t.answer = some (f, t') → False := by
      intro f t' answer
      have none := server_stuck stuck (b := .answer r) rfl rfl
      obtain ⟨endpoint, sent⟩ := Option.isSome_iff_exists.mp
        (enqueue_isSome up.server.going.serving room f)
      simp [Server.step, here, answer, sent] at none
    cases pc : t.pc with
    | done => exact Or.inl rfl
    | checking =>
        have none := server_stuck stuck (b := .bind r true) rfl rfl
        simp [Server.step, here, RegTask.bind, pc] at none
    | rejecting | acking => exact (answers _ _ (by simp only [RegTask.answer, pc]; rfl)).elim
    | accepting =>
        have none := server_stuck stuck (b := .accept r 1) rfl rfl
        refine Or.inr ⟨rfl, Nat.eq_zero_of_not_pos fun waiting => ?_⟩
        simp [Server.step, here, pc, waiting] at none
    | acquiring n =>
        obtain ⟨l, link, -, waiting⟩ := reach.server.accepted.waits r n t here pc
        exact absurd (of_decide_eq_true waiting) (spawned_of_stuck stuck reach uncrowded link)
  have toServer : s.server.received = s.client.endpoint.tunnel.chan.log.map RfrpFrame.skipAddr := by
    rw [reach.wired.toServer, idle.clientTunnel.received reach.client.endpoint_ok.tunnel]
  have toClient : s.client.received = s.server.endpoint.tunnel.chan.log.map RfrpFrame.skipAddr := by
    rw [reach.wired.toClient, idle.serverTunnel.received reach.server.endpoint_ok.tunnel]
  refine { idle with
    registered := ?_
    users := fun n l here =>
      (server_parked stuck).reader_waits here up.server.going.serving room
    listeners, toServer, toClient }
  rcases idle.clientMain with reads | ⟨i, main⟩
  · exact reads
  · -- the Register of entry `i` has arrived, and so has its answer
    have stage := reach.client.registered.stage
    simp only [Client.Stage, main] at stage
    obtain ⟨bound, log, length, -⟩ := stage
    have asked : (registersOf s.server.received).length = i + 1 := by
      rw [toServer, registersOf_map_skipAddr, List.length_map, log, List.length_take]
      omega
    have owed : s.server.owed = 0 := by
      have none : s.server.tasks.countP RegTask.unanswered = 0 := by
        refine List.countP_eq_zero.mpr fun t mem => ?_
        rcases listeners t mem with pc | ⟨pc, -⟩ <;> simp [RegTask.unanswered, pc]
      rw [Server.owed, none, idle.serverMain]
      rfl
    have answered := up.server.answers
    have arrived : (acksOf s.client.received).length =
        (acksOf s.server.endpoint.tunnel.chan.log).length := by
      rw [toClient, acksOf_map_skipAddr, List.length_map]
    have few : (acksOf s.client.received).length ≤ s.client.received.length :=
      List.length_filterMap_le _ _
    omega

end rests

theorem rooms_of_run {serverBuf clientBuf : Nat} (someServer : 0 < serverBuf)
    (someClient : 0 < clientBuf)
    (run : Run step (fun _ a => a.roomy = true) (start config serverBuf clientBuf) s) :
    s.server.endpoint.Roomy ∧ s.client.endpoint.Roomy := by
  apply run.induct
  · refine ⟨Endpoint.roomy_spawn someServer, ?_⟩
    rw [start, Client.endpoint_start]
    exact Endpoint.roomy_spawn someClient
  · intro t a u before rooms roomy move
    obtain ⟨server, client⟩ := rooms
    have reach : t.Reachable config := ⟨serverBuf, clientBuf, before.reach⟩
    cases moves_of_step move with
    | server _ moved => exact ⟨server_roomy reach server roomy moved, client⟩
    | client _ moved => exact ⟨server, client_roomy client roomy moved⟩
    | toServer _ read recv =>
        exact ⟨server_roomy reach server rfl recv, client_roomy client rfl read⟩
    | toClient _ read recv =>
        exact ⟨server_roomy reach server rfl read, client_roomy client rfl recv⟩

/-- Whatever a session with both sides up has come to, it drains: peers that attend to it and its own
tasks can take only so many steps, and wherever they can take no more nothing is under way. -/
theorem drained (config : ConfigInfo) (serverBuf clientBuf : Nat) (s : Session)
    (someServer : 0 < serverBuf) (someClient : 0 < clientBuf)
    (run : Run step (fun _ a => a.roomy = true) (start config serverBuf clientBuf) s)
    (server : s.server.running = true ∧ s.server.endpoint.tunnel.task ≠ .done)
    (client : s.client.running = true ∧ s.client.endpoint.tunnel.task ≠ .done) :
    (∀ acts t, exec (guarded step drains) s acts = some t → acts.length + t.work ≤ s.work) ∧
    (∃ t, Run step drains s t ∧ ∀ a, t.drains a → t.step a = none) ∧
    ∀ t, Run step drains s t → (∀ a, t.drains a → t.step a = none) →
      t.client.turnedDown ∨ t.Crowded ∨ t.Rests := by
  refine ⟨fun acts t done => length_le_of_descends work_drains acts done,
    rests_of_descends work_drains s, fun t more stuck => ?_⟩
  have reach : s.Reachable config := ⟨serverBuf, clientBuf, run.reach⟩
  have rooms := rooms_of_run someServer someClient run
  have begun : s.Up := ⟨rooms.1, rooms.2, reach.server.answersAll server.1 server.2,
    Or.inl ⟨client.1, reach.client.going client.1 client.2⟩⟩
  have up : t.Up := more.induct begun fun u a v before up drains move =>
    up.step (reach.run before.reach) drains (moves_of_step move)
  rcases up.client with ⟨running, going⟩ | ended
  · right
    by_cases crowded : t.Crowded
    · exact Or.inl crowded
    · exact Or.inr (rests_of_stuck stuck (reach.run more.reach) crowded up running going)
  · exact Or.inl ended

/-- The first byte of a user, read and not yet sent. -/
def byteRead : List SessionAct := registers 0 ++ accepts 0 8 ++ (userSends 0 [1]).take 2

theorem drained_byteRead : ∃ s t : Session,
    Run step (fun _ a => a.roomy = true) (start sshConfig 8 8) s ∧ s.work = 28 ∧
    Run step drains s t ∧ (t.client.turnedDown ∨ t.Crowded ∨ t.Rests) := by
  have view : (exec (guarded step fun _ a => a.roomy = true) (start sshConfig 8 8) byteRead).map
      (fun s => (s.work, s.server.main, s.server.endpoint.tunnel.task, s.client.main,
        s.client.endpoint.tunnel.task)) =
        some (28, .reading, .receiving, .reading, .receiving) := by decide
  obtain ⟨s, run, view⟩ := Option.map_eq_some_iff.mp view
  simp only [Prod.mk.injEq] at view
  obtain ⟨work, main, task, main', task'⟩ := view
  have run := run_of_exec byteRead run
  obtain ⟨-, ⟨t, more, stuck⟩, rests⟩ := drained sshConfig 8 8 s (by decide) (by decide) run
    ⟨by simp [Server.running, main], by simp [task]⟩
    ⟨by simp [Client.running, main'], by simp [task']⟩
  exact ⟨s, t, run, work, more, rests t more stuck⟩

end Session

end Rfrp
