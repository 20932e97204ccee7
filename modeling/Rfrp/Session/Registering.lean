import Rfrp.Session.Quiescence

/-!
# Registration under traffic

The client reads one frame for each Register and takes anything but an acceptance for the end of
the session, while the server forwards on a proxy from its own acknowledgement on. Registration
succeeds where no read task queues a Data frame before the last proxy is acknowledged.
-/

namespace Rfrp

open Transition

def SessionAct.transportFails : SessionAct → Bool
  | .server a => a.transportFails
  | .client a => a.transportFails
  | _ => false

namespace Session

variable {s s' : Session} {config : ConfigInfo}

/-- The server accepts every registration. -/
def Accepts (s : Session) : Prop :=
  ∀ ack ∈ acksOf s.server.endpoint.tunnel.chan.log, ack.success = true

def acksFirst (s : Session) (a : SessionAct) : Bool :=
  match a with
  | .server (.endpoint (.sendData _)) =>
      s.client.config.length ≤ (acksOf s.server.endpoint.tunnel.chan.log).length
  | _ => true

/-- A step that is no failure of the transport and forwards nothing too early. -/
def smooth (s : Session) (a : SessionAct) : Bool := !a.transportFails && s.acksFirst a

/-- The registration phase goes through with every proxy configured, and every Data frame that
reaches the client is one the forwarding loop handles. -/
structure Tolerant (s : Session) : Prop where
  running : s.client.running = true
  configured : s.client.forwarding = true → ∀ client ∈ s.client.config,
    ∃ p, s.client.proxyConfigs p = some client
  ended : s.Quiescent → s.client.forwarding = true
  handled : ∀ d rest, s.server.endpoint.tunnel.wire.pop = some (.data d, rest) →
    s.client.forwarding = true ∧ (s.client.proxyConfigs d.proxyId).isSome

section sides
variable {serverBuf clientBuf : Nat}

theorem smooth_server
    (run : Run step (fun s a => s.smooth a) (start config serverBuf clientBuf) s) :
    Run Server.step (fun _ a => a.transportFails = false) (.start serverBuf) s.server := by
  refine run.simulate Session.server fun s a t smooth move => ?_
  simp only [Session.smooth, Bool.and_eq_true, Bool.not_eq_true'] at smooth
  cases moves_of_step move with
  | server _ step => exact (Run.refl _).tail smooth.1 step
  | client => exact Run.refl _
  | toServer _ _ recv => exact (Run.refl _).tail rfl recv
  | toClient _ read => exact (Run.refl _).tail rfl read

theorem smooth_acked
    (run : Run step (fun s a => s.smooth a) (start config serverBuf clientBuf) s) :
    BeforeData (fun before _ => config.init.clientProxy.length ≤ (acksOf before).length)
      s.server.endpoint.tunnel.chan.log := by
  refine run.induct (P := fun s => BeforeData (fun before _ =>
    config.init.clientProxy.length ≤ (acksOf before).length) s.server.endpoint.tunnel.chan.log)
    (fun before d after eq => ?_) fun s a t previous ih smooth move => ?_
  · simp [start, Server.start, Endpoint.spawn, FrameWriter.spawn] at eq
  have reach : s.Reachable config := ⟨serverBuf, clientBuf, previous.reach⟩
  simp only [Session.smooth, Bool.and_eq_true] at smooth
  have queued : ∀ {b : ServerAct} {server : Server}, s.server.step b = some server →
      (∀ n, b = .endpoint (.sendData n) → a = .server b) →
      BeforeData (fun before _ => config.init.clientProxy.length ≤ (acksOf before).length)
        server.endpoint.tunnel.chan.log := by
    intro b server step only
    obtain ⟨fs, queues, log⟩ := Server.queues_of_step (Server.moves_of_step step)
    rw [log]
    apply queues.beforeData ih
    intro n l bytes sends _ _
    have acked := smooth.2
    rw [only n sends, sends] at acked
    simpa [acksFirst, reach.client.registered.config_eq] using acked
  cases moves_of_step move with
  | server _ step => exact queued step fun n same => rfl
  | client => exact ih
  | toServer _ _ recv => exact queued recv fun n same => by cases same
  | toClient _ read => exact queued read fun n same => by cases same

end sides

theorem accepts_of_step (h : Moves s a s') (accepts : s'.Accepts) : s.Accepts := by
  intro ack mem
  rcases h.sides.1 with same | ⟨b, step⟩
  · exact accepts ack (same ▸ mem)
  · obtain ⟨fs, -, log⟩ := Server.queues_of_step (Server.moves_of_step step)
    exact accepts ack (by simp [log, mem])

section phases
variable (reach : s.Reachable config)
include reach

theorem Reachable.fewer_acks (phase : s.client.registering = true) :
    (acksOf s.client.received).length < config.init.clientProxy.length := by
  have stage := reach.client.registered.stage
  have bound : (acksOf s.client.received).length ≤ s.client.received.length :=
    List.length_filterMap_le _ _
  unfold Client.registering at phase
  unfold Client.Stage at stage
  cases main : s.client.main <;> simp only [main] at phase stage <;> try cases phase
  all_goals omega

theorem Reachable.queued_of_pop {f : RfrpFrame} {wire : Fifo RfrpFrame}
    (popped : s.server.endpoint.tunnel.wire.pop = some (f, wire)) :
    f ∈ s.server.endpoint.tunnel.chan.log := by
  obtain ⟨-, -, queue⟩ := Fifo.pop_eq_some popped
  refine reach.server.endpoint_ok.tunnel.wire_isPrefix.subset ?_
  rw [← Fifo.received_append_queue, queue]
  simp

theorem Reachable.phase_over (acked : BeforeData (fun before _ =>
      config.init.clientProxy.length ≤ (acksOf before).length)
      s.server.endpoint.tunnel.chan.log) {d : DataInfo} {wire : Fifo RfrpFrame}
    (popped : s.server.endpoint.tunnel.wire.pop = some (.data d, wire)) :
    s.client.registering = false := by
  by_contra phase
  have fewer := reach.fewer_acks (by simpa using phase)
  obtain ⟨-, -, queue⟩ := Fifo.pop_eq_some popped
  obtain ⟨rest, log⟩ := reach.server.endpoint_ok.tunnel.wire_isPrefix
  rw [← Fifo.received_append_queue, queue, List.append_assoc, List.cons_append] at log
  have all := acked _ _ _ log.symm
  rw [reach.wired.toClient, acksOf_map_skipAddr, List.length_map] at fewer
  omega

theorem Reachable.configured_all (forwarding : s.client.forwarding = true) {client : ClientInfo}
    (mem : client ∈ config.init.clientProxy) : ∃ p, s.client.proxyConfigs p = some client := by
  obtain ⟨-, acks, length, first, known⟩ :=
    (Client.stage_iff forwarding).mp reach.client.registered.stage
  obtain ⟨i, here⟩ := List.mem_iff_getElem?.mp mem
  have bound : i < acks.length := length ▸ Slots.get_lt here
  have received : (acksOf s.client.received)[i]? = some acks[i] := by
    have prefixed := acksOf_isPrefix first
    rw [acksOf_map_registerAck] at prefixed
    exact Slots.get_isPrefix prefixed (List.getElem?_eq_getElem bound)
  obtain ⟨success, stored⟩ := known acks[i] (List.getElem_mem bound)
  obtain ⟨client', entry⟩ := Option.isSome_iff_exists.mp stored
  obtain ⟨j, ack, here', received', success', id⟩ := reach.client.registered.configs _ _ entry
  have same : i = j := by
    obtain ⟨b, queued, eq⟩ := reach.ack received
    obtain ⟨b', queued', eq'⟩ := reach.ack received'
    rw [← eq] at success id
    rw [← eq'] at success' id
    exact Slots.unique_of_nodup _ _ reach.server.acked.ids queued queued' success success' id.symm
  subst same
  rw [here, Option.some.injEq] at here'
  subst here'
  exact ⟨_, entry⟩

theorem Reachable.answer_or_data (phase : s.client.registering = true) {f : RfrpFrame}
    (queued : f ∈ s.server.endpoint.tunnel.chan.log) :
    (∃ response, f = .registerAck response) ∨ ∃ d, f = .data d := by
  have pinged : f.ack? = none → f.dataInfo? = none → False := by
    intro ack data
    obtain ⟨g, received, ping⟩ := reach.server.answering.frames f queued ack data
    obtain ⟨g', sent, rfl⟩ := List.mem_map.mp (reach.toServer.subset received)
    have quiet := (reach.client.unpinged phase).frames g' sent
    cases g' with
    | control info =>
        have ping' : (RfrpFrame.control info).isPing = true := ping
        rw [quiet] at ping'
        cases ping'
    | _ => cases ping
  cases f with
  | registerAck response => exact Or.inl ⟨response, rfl⟩
  | data d => exact Or.inr ⟨d, rfl⟩
  | _ => exact (pinged rfl rfl).elim

end phases

theorem smooth_client {serverBuf clientBuf : Nat}
    (run : Run step (fun s a => s.smooth a) (start config serverBuf clientBuf) s)
    (accepts : s.Accepts) : s.client.running = true ∧ s.client.endpoint.Going := by
  refine run.induct (P := fun s => s.Accepts → s.client.running = true ∧ s.client.endpoint.Going)
    (fun _ => ⟨?_, ?_⟩) (fun s a t before ih smooth move accepts => ?_) accepts
  · rcases Client.main_start config.init.clientProxy clientBuf with ⟨-, main⟩ | ⟨-, main⟩ <;>
      simp [start, Client.running, main]
  · rw [start, Client.endpoint_start]
    exact Endpoint.going_spawn clientBuf
  have reach : s.Reachable config := ⟨serverBuf, clientBuf, before.reach⟩
  have moves := moves_of_step move
  have accepted := accepts_of_step moves accepts
  obtain ⟨running, going⟩ := ih accepted
  simp only [Session.smooth, Bool.and_eq_true, Bool.not_eq_true'] at smooth
  have goes : ∀ {b : ClientAct} {client : Client}, s.client.step b = some client →
      b.transportFails = false →
      (∀ i f, s.client.main = .awaiting i → b = .recv f →
        ∃ response, f = .registerAck response ∧ response.success = true) →
      client.running = true ∧ client.endpoint.Going := by
    intro b client step fine answered
    have move := Client.moves_of_step step
    refine ⟨?_, Client.going_of_step running going fine move⟩
    by_contra finished
    obtain ⟨i, f, main, recv, wrong⟩ :=
      Client.ended_of_step running going fine move (by simpa using finished)
    obtain ⟨response, ack, success⟩ := answered i f main recv
    rw [wrong response ack] at success
    cases success
  cases moves with
  | server => exact ⟨running, going⟩
  | client here step =>
      refine goes step smooth.1 fun i f main recv => ?_
      subst recv
      simp [ClientAct.isLocal] at here
  | toServer _ read => exact goes read rfl fun i f main recv => by cases recv
  | @toClient f _ _ _ popped _ recv =>
      refine goes recv rfl fun i g main same => ?_
      obtain rfl := ClientAct.recv.inj same
      have phase : s.client.registering = true := by simp [Client.registering, main]
      have queued : f ∈ s.server.endpoint.tunnel.chan.log := reach.queued_of_pop popped
      rcases reach.answer_or_data phase queued with ⟨response, rfl⟩ | ⟨d, rfl⟩
      · exact ⟨_, rfl, accepted response (mem_acksOf.mpr queued)⟩
      · rw [reach.phase_over (smooth_acked before) popped] at phase
        cases phase

theorem Quiescent.registered (quiescent : s.Quiescent) (reach : s.Reachable config)
    (all : s.server.AnswersAll)
    (going : s.client.endpoint.Going) : s.client.registering = false := by
  by_contra phase
  obtain ⟨i, main⟩ := quiescent.client.awaiting reach.client going (by simpa using phase)
  have stage := reach.client.registered.stage
  simp only [Client.Stage, main] at stage
  obtain ⟨bound, log, length, -⟩ := stage
  -- the Register of entry `i` has arrived, and so has its answer
  have asked : (registersOf s.server.received).length = i + 1 := by
    rw [quiescent.toServer reach going, registersOf_map_skipAddr, List.length_map, log,
      List.length_take]
    omega
  have answered := all.answered reach.server quiescent.server
  have arrived : (acksOf s.client.received).length =
      (acksOf s.server.endpoint.tunnel.chan.log).length := by
    rw [quiescent.toClient reach all.going, acksOf_map_skipAddr, List.length_map]
  have few : (acksOf s.client.received).length ≤ s.client.received.length :=
    List.length_filterMap_le _ _
  omega

theorem registration (config : ConfigInfo) (serverBuf clientBuf : Nat) (s : Session)
    (run : Run step (fun s a => s.smooth a) (start config serverBuf clientBuf) s)
    (accepts : s.Accepts) : s.Tolerant := by
  have reach : s.Reachable config := ⟨serverBuf, clientBuf, run.reach⟩
  obtain ⟨running, going⟩ := smooth_client run accepts
  have finished : s.client.registering = false → s.client.forwarding = true :=
    Client.forwarding_of_running running
  refine ⟨running, fun forwarding client mem => ?_, fun quiescent => ?_, fun d rest popped => ?_⟩
  · rw [reach.client.registered.config_eq] at mem
    exact reach.configured_all forwarding mem
  · have all := Server.answersAll_of_run (smooth_server run)
    exact finished (quiescent.registered reach all going)
  · have forwarding := finished (reach.phase_over (smooth_acked run) popped)
    obtain ⟨-, -, queue⟩ := Fifo.pop_eq_some popped
    exact ⟨forwarding, reach.known forwarding (by simp [queue])⟩

def twoConfig : ConfigInfo where
  runningMode := .client
  server := ⟨"127.0.0.1", 11000, "token", ""⟩
  clientProxy := [⟨"ssh", 22001, "127.0.0.1", 22, "tcp", ""⟩,
    ⟨"web", 22002, "127.0.0.1", 80, "tcp", ""⟩]

def registration? (s : Session) : Bool × ClientMain :=
  ((acksOf s.server.endpoint.tunnel.chan.log).all RegisterResponse.success, s.client.main)

theorem accepts_of_all {main : ClientMain} (view : s.registration? = (true, main)) : s.Accepts :=
  List.all_eq_true.mp (congrArg Prod.fst view)

def patientUser : List SessionAct :=
  registers 0 ++ .client .register :: clientSends ++
    [.server (.bind 1 true), .server (.answer 1)] ++ accepts 0 8 ++ userSends 0 [1] ++
    serverSends ++ serverSends.take 2

theorem registration_patient : ∃ s : Session,
    Run step (fun s a => s.smooth a) (start twoConfig 8 8) s ∧ s.Accepts ∧ s.Tolerant ∧
    s.client.main = .reading := by
  have view : (exec (guarded step fun s a => s.smooth a) (start twoConfig 8 8) patientUser).map
      registration? = some (true, .reading) := by decide
  obtain ⟨s, run, view⟩ := Option.map_eq_some_iff.mp view
  have accepts := accepts_of_all view
  exact ⟨s, run_of_exec _ run, accepts, registration twoConfig 8 8 s (run_of_exec _ run) accepts,
    congrArg Prod.snd view⟩

def hastyUser : List SessionAct :=
  registers 0 ++ accepts 0 8 ++ userSends 0 [1] ++ serverSends.take 2 ++
    .client .register :: clientSends ++ [.server (.bind 1 true), .server (.answer 1), .toClient]

theorem hasty_data : ¬ ∀ (config : ConfigInfo) (serverBuf clientBuf : Nat) (s : Session),
    Run step (fun _ a => a.transportFails = false) (start config serverBuf clientBuf) s →
    s.Accepts → s.Tolerant := by
  intro claim
  have view : (exec (guarded step fun _ a => a.transportFails = false) (start twoConfig 8 8)
      hastyUser).map registration? = some (true, .ended .unexpectedFrame) := by decide
  obtain ⟨s, run, view⟩ := Option.map_eq_some_iff.mp view
  have running := (claim twoConfig 8 8 s (run_of_exec _ run) (accepts_of_all view)).running
  have main : s.client.main = .ended .unexpectedFrame := congrArg Prod.snd view
  rw [Client.running, main] at running
  cases running

end Session

end Rfrp
