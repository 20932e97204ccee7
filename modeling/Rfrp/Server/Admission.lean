import Rfrp.Server.Progress
import Rfrp.Config.ConfigParser

/-!
# Which registrations the server accepts

For a client that waits for its answers, entry `i` of the Registers is accepted if it is one of the
first sixteen, asks for an unprivileged port and no entry before it has that port. Nothing else
decides, as long as nobody else listens on the ports.
-/

namespace Rfrp

/-- The registration of `client` after those in `before` is accepted. -/
def admits (before : List ClientInfo) (client : ClientInfo) : Bool :=
  before.length < maxProxiesPerClient && firstUnprivilegedPort ≤ client.bindPort &&
    before.all fun other => other.bindPort ≠ client.bindPort

theorem admits_congr {before before' : List ClientInfo} {client client' : ClientInfo}
    (ports : before'.map ClientInfo.bindPort = before.map ClientInfo.bindPort)
    (port : client'.bindPort = client.bindPort) : admits before' client' = admits before client := by
  have length : before'.length = before.length := by simpa using congrArg List.length ports
  have others : ∀ clients : List ClientInfo, (clients.all fun other => other.bindPort ≠ client.bindPort) =
      (clients.map ClientInfo.bindPort).all fun other => other ≠ client.bindPort := fun clients => by
    rw [List.all_map]
    rfl
  unfold admits
  rw [length, port, others, others, ports]

theorem admits_of_distinct {clients : List ClientInfo} (few : clients.length ≤ maxProxiesPerClient)
    (unprivileged : ∀ client ∈ clients, firstUnprivilegedPort ≤ client.bindPort)
    (distinct : (clients.map ClientInfo.bindPort).Nodup) {i : Nat} {client : ClientInfo}
    (here : clients[i]? = some client) : admits (clients.take i) client = true := by
  have inside := Slots.get_lt here
  have first : (clients.take i).length < maxProxiesPerClient := by
    rw [List.length_take]
    omega
  have port := unprivileged client (List.mem_of_getElem? here)
  have others : ∀ other ∈ clients.take i, other.bindPort ≠ client.bindPort := by
    intro other mem same
    obtain ⟨j, found⟩ := List.mem_iff_getElem?.mp mem
    have less : j < i := by
      have bound := Slots.get_lt found
      rw [List.length_take] at bound
      omega
    rw [List.getElem?_take_of_lt less] at found
    have equal : (clients.map ClientInfo.bindPort)[j]? = (clients.map ClientInfo.bindPort)[i]? := by
      simp [found, here, same]
    have bound : j < (clients.map ClientInfo.bindPort).length := by
      rw [List.length_map]
      omega
    exact absurd ((List.getElem?_inj bound distinct).mp equal) (Nat.ne_of_lt less)
  simp only [admits, decide_eq_true first, decide_eq_true port, Bool.and_self, Bool.true_and]
  simpa using others

def RegTask.judgement (t : RegTask) : ClientInfo × Bool × Bool × Bool :=
  (t.clientInfo, t.unanswered, t.bound, t.pc = .checking)

namespace Server

open Transition Endpoint

variable {s s' : Server} {a : ServerAct}

def portTaken (s : Server) (port : UInt16) : Bool :=
  s.tasks.any fun t => t.bound && t.clientInfo.bindPort == port

def portsFree (s : Server) : ServerAct → Bool
  | .bind r ok => s.tasks[r]?.all fun t => ok == !s.portTaken t.clientInfo.bindPort
  | _ => true

theorem Reachable.tasks_clients (reach : s.Reachable) :
    s.tasks.map RegTask.clientInfo = (registersOf s.received).take maxProxiesPerClient := by
  refine reach.induct (P := fun s => s.tasks.map RegTask.clientInfo =
    (registersOf s.received).take maxProxiesPerClient) (fun _ => rfl) fun s a s' _ ih move => ?_
  have full : (registersOf s.received).take maxProxiesPerClient =
      s.tasks.map RegTask.clientInfo := ih.symm
  have count : s.tasks.length = min maxProxiesPerClient (registersOf s.received).length := by
    simpa using congrArg List.length ih
  have clients : s'.tasks.map RegTask.ident = s.tasks.map RegTask.ident →
      s'.tasks.map RegTask.clientInfo = s.tasks.map RegTask.clientInfo := by
    intro same
    have firsts := congrArg (List.map Prod.fst) same
    rw [List.map_map, List.map_map] at firsts
    exact firsts
  have keep : s'.tasks.map RegTask.ident = s.tasks.map RegTask.ident →
      registersOf s'.received = registersOf s.received → s'.tasks.map RegTask.clientInfo =
        (registersOf s'.received).take maxProxiesPerClient := by
    intro same received
    rw [received, clients same, ih]
  have tasks := step_tasks move
  cases move with
  | recvLimit main full =>
      have enough : maxProxiesPerClient ≤ (registersOf s.received).length := by omega
      rw [registersOf_append, List.take_append_of_le_length enough]
      exact ih
  | recvRegister main free =>
      have all : (registersOf s.received).length = s.tasks.length := by omega
      have whole : (registersOf s.received).take maxProxiesPerClient = registersOf s.received :=
        List.take_of_length_le (by omega)
      rw [registersOf_append, List.take_of_length_le (by simp; omega), List.map_append, ih, whole]
      rfl
  | recvPing | recvRouted | recvUnrouted => exact keep rfl (by simp)
  | recvOther _ register => exact keep rfl (by simp [registersOf, register])
  | _ => exact keep (tasks.resolve_right (by simp)) rfl

theorem Reachable.tasks_length (reach : s.Reachable) :
    s.tasks.length = min maxProxiesPerClient (registersOf s.received).length := by
  simpa using congrArg List.length reach.tasks_clients

structure Judged (s : Server) : Prop where
  turn : ∀ (r : Nat) (t : RegTask), s.tasks[r]? = some t →
    (t.unanswered = true ↔ (acksOf s.endpoint.tunnel.chan.log).length ≤ r)
  tasks : ∀ (r : Nat) (t : RegTask), s.tasks[r]? = some t → t.pc ≠ .checking →
    t.bound = admits ((registersOf s.received).take r) t.clientInfo
  acks : ∀ (i : Nat) (ack : RegisterResponse) (client : ClientInfo),
    (acksOf s.endpoint.tunnel.chan.log)[i]? = some ack → (registersOf s.received)[i]? = some client →
    ack.success = admits ((registersOf s.received).take i) client
  limit : ∀ client, s.main = .rejecting client → maxProxiesPerClient ≤ s.tasks.length

theorem judged_start (sndBuf : Nat) : (start sndBuf).Judged where
  turn := fun _ _ here => by simp [start] at here
  tasks := fun _ _ here => by simp [start] at here
  acks := fun _ _ _ here => by simp [start, Endpoint.spawn, FrameWriter.spawn] at here
  limit := fun _ main => by cases main

theorem Judged.keep (judged : s.Judged) (reach : s.Reachable) (all : s.AnswersAll)
    (tasks : s'.tasks.map RegTask.judgement = s.tasks.map RegTask.judgement)
    (acks : acksOf s'.endpoint.tunnel.chan.log = acksOf s.endpoint.tunnel.chan.log)
    (received : registersOf s.received <+: registersOf s'.received)
    (limit : ∀ client, s'.main = .rejecting client → maxProxiesPerClient ≤ s'.tasks.length) :
    s'.Judged := by
  have count := reach.tasks_length
  have answers := all.answers
  obtain ⟨more, received⟩ := received
  have early : ∀ {r : Nat}, r ≤ (registersOf s.received).length →
      (registersOf s'.received).take r = (registersOf s.received).take r := by
    intro r bound
    rw [← received, List.take_append_of_le_length bound]
  constructor
  case turn =>
    intro r t' here
    obtain ⟨t, before, same⟩ := Slots.get_of_map RegTask.judgement tasks here
    simp only [RegTask.judgement, Prod.mk.injEq] at same
    rw [acks, ← same.2.1]
    exact judged.turn r t before
  case tasks =>
    intro r t' here pc
    obtain ⟨t, before, same⟩ := Slots.get_of_map RegTask.judgement tasks here
    simp only [RegTask.judgement, Prod.mk.injEq, decide_eq_decide] at same
    have bound := Slots.get_lt before
    rw [early (by omega), ← same.1, ← same.2.2.1]
    exact judged.tasks r t before fun checking => pc (same.2.2.2.mp checking)
  case acks =>
    intro i ack client here register
    rw [acks] at here
    have bound := Slots.get_lt here
    have inside : i < (registersOf s.received).length := by omega
    rw [early (by omega)]
    refine judged.acks i ack client here ?_
    rwa [← received, List.getElem?_append_left inside] at register
  case limit => exact limit

structure Waiting (s : Server) : Prop where
  one : (registersOf s.received).length ≤ (acksOf s.endpoint.tunnel.chan.log).length + 1
  accepted : ∀ i, i + 1 < (registersOf s.received).length →
    ∃ ack, (acksOf s.endpoint.tunnel.chan.log)[i]? = some ack ∧ ack.success = true

theorem Judged.open_task (judged : s.Judged) (reach : s.Reachable) (waiting : s.Waiting)
    {r : Nat} {t : RegTask} (here : s.tasks[r]? = some t) (owed : t.unanswered = true) :
    r = (acksOf s.endpoint.tunnel.chan.log).length ∧ s.tasks.length = r + 1 ∧
      (registersOf s.received).length = r + 1 := by
  have count := reach.tasks_length
  have late := (judged.turn r t here).mp owed
  have bound := Slots.get_lt here
  have one := waiting.one
  omega

theorem Judged.portTaken_eq (judged : s.Judged) (reach : s.Reachable) (waiting : s.Waiting)
    {r : Nat} {t : RegTask} (here : s.tasks[r]? = some t) (pc : t.pc = .checking) (port : UInt16) :
    s.portTaken port = ((registersOf s.received).take r).any fun other => other.bindPort == port := by
  have owed : t.unanswered = true := by simp [RegTask.unanswered, pc]
  obtain ⟨last, length, all⟩ := judged.open_task reach waiting here owed
  have clients := reach.tasks_clients
  have count := reach.booked.count
  have register : ∀ {q : Nat} {u : RegTask}, s.tasks[q]? = some u →
      (registersOf s.received)[q]? = some u.clientInfo := by
    intro q u found
    have listed : (s.tasks.map RegTask.clientInfo)[q]? = some u.clientInfo := by simp [found]
    rw [clients] at listed
    exact Slots.get_isPrefix (List.take_prefix _ _) listed
  have bound : ∀ {q : Nat} {u : RegTask}, s.tasks[q]? = some u → q < r → u.bound = true := by
    intro q u found less
    obtain ⟨ack, queued, success⟩ := waiting.accepted q (by omega)
    have answered : u.unanswered ≠ true := fun owed =>
      absurd ((judged.turn q u found).mp owed) (by omega)
    have settled : u.pc ≠ .checking := fun checking => answered (by simp [RegTask.unanswered, checking])
    rw [judged.tasks q u found settled, ← judged.acks q ack _ queued (register found)]
    exact success
  rw [Bool.eq_iff_iff, portTaken, List.any_eq_true, List.any_eq_true]
  constructor
  · rintro ⟨u, mem, taken⟩
    obtain ⟨q, found⟩ := List.mem_iff_getElem?.mp mem
    simp only [Bool.and_eq_true] at taken
    have other : q ≠ r := by
      rintro rfl
      rw [here] at found
      cases found
      simp [RegTask.bound, pc] at taken
    have less : q < r := by
      have inside := Slots.get_lt found
      omega
    refine ⟨u.clientInfo, List.mem_iff_getElem?.mpr ⟨q, ?_⟩, taken.2⟩
    rw [List.getElem?_take_of_lt less, register found]
  · rintro ⟨other, mem, same⟩
    obtain ⟨q, found⟩ := List.mem_iff_getElem?.mp mem
    have less : q < r := by
      have inside := Slots.get_lt found
      rw [List.length_take] at inside
      omega
    have slot : s.tasks[q]? = some s.tasks[q] := List.getElem?_eq_getElem (by omega)
    rw [List.getElem?_take_of_lt less, register slot] at found
    cases found
    exact ⟨s.tasks[q], List.getElem_mem _, by simp [bound slot less, same]⟩

theorem Judged.bind (judged : s.Judged) (reach : s.Reachable) (waiting : s.Waiting) {r : Nat}
    {t t' : RegTask} {ok : Bool} (free : s.portsFree (.bind r ok) = true)
    (here : s.tasks[r]? = some t) (move : t.bind ok = some t') : (s.setTask r t').Judged := by
  obtain ⟨pc, outcome, eq⟩ := RegTask.bind_eq_some move
  have owed : t.unanswered = true := by simp [RegTask.unanswered, pc]
  obtain ⟨last, length, all⟩ := judged.open_task reach waiting here owed
  have count := reach.booked.count
  have client : t'.clientInfo = t.clientInfo := by rw [eq]
  have owed' : t'.unanswered = true := by
    rcases outcome with ⟨pc', -⟩ | ⟨pc', -⟩ <;> simp [RegTask.unanswered, pc']
  have ok_eq : ok = !s.portTaken t.clientInfo.bindPort := by
    simpa [portsFree, here] using free
  have first : ((registersOf s.received).take r).length < maxProxiesPerClient := by
    rw [List.length_take]
    omega
  have judges : t'.bound = admits ((registersOf s.received).take r) t.clientInfo := by
    rw [judged.portTaken_eq reach waiting here pc] at ok_eq
    have others : ok = ((registersOf s.received).take r).all
        fun other => other.bindPort ≠ t.clientInfo.bindPort := by
      rw [ok_eq, List.not_any_eq_all_not]
      congr 1
      funext other
      by_cases same : other.bindPort = t.clientInfo.bindPort <;> simp [same]
    unfold admits
    rw [← others, decide_eq_true first, Bool.true_and]
    rcases outcome with ⟨pc', unprivileged, rfl⟩ | ⟨pc', privileged | rfl⟩
    · simp [RegTask.bound, pc', unprivileged]
    · simp [RegTask.bound, pc', UInt16.not_le.mpr privileged]
    · simp [RegTask.bound, pc']
  constructor
  case turn =>
    intro q u found
    rcases Slots.get_set found with ⟨rfl, rfl⟩ | ⟨-, found⟩
    · have before := judged.turn q t here
      rw [owed] at before
      rw [owed']
      exact before
    · exact judged.turn q u found
  case tasks =>
    intro q u found settled
    rcases Slots.get_set found with ⟨rfl, rfl⟩ | ⟨-, found⟩
    · rw [client]
      exact judges
    · exact judged.tasks q u found settled
  case acks => exact judged.acks
  case limit =>
    intro other main
    rw [setTask, List.length_set]
    exact judged.limit other main

theorem Judged.acks_snoc (judged : s.Judged) {ack : RegisterResponse}
    (verdict : ∀ client,
      (registersOf s.received)[(acksOf s.endpoint.tunnel.chan.log).length]? = some client →
      ack.success = admits ((registersOf s.received).take
        (acksOf s.endpoint.tunnel.chan.log).length) client)
    (i : Nat) (ack' : RegisterResponse) (client : ClientInfo)
    (here : (acksOf s.endpoint.tunnel.chan.log ++ [ack])[i]? = some ack')
    (register : (registersOf s.received)[i]? = some client) :
    ack'.success = admits ((registersOf s.received).take i) client := by
  rcases Slots.get_append here with old | ⟨rfl, rfl⟩
  · exact judged.acks i ack' client old register
  · exact verdict client register

theorem Judged.answer (judged : s.Judged) (reach : s.Reachable) (waiting : s.Waiting) {r : Nat}
    {t t' : RegTask} {f : RfrpFrame} (here : s.tasks[r]? = some t) (move : t.answer = some (f, t'))
    {endpoint : Endpoint UInt16}
    (log : endpoint.tunnel.chan.log = s.endpoint.tunnel.chan.log ++ [f]) :
    ({ s with endpoint }.setTask r t').Judged := by
  have owed : t.unanswered = true := by
    rcases RegTask.answer_eq_some move with ⟨pc, -⟩ | ⟨pc, -⟩ <;> simp [RegTask.unanswered, pc]
  obtain ⟨last, length, all⟩ := judged.open_task reach waiting here owed
  obtain ⟨ack, rfl, success, settled, bound, client⟩ : ∃ ack, f = .registerAck ack ∧
      ack.success = t.bound ∧ t'.unanswered = false ∧ t'.bound = t.bound ∧
        t'.clientInfo = t.clientInfo := by
    rcases RegTask.answer_eq_some move with ⟨pc, rfl, rfl⟩ | ⟨pc, rfl, rfl⟩ <;>
      exact ⟨_, rfl, by simp [RegTask.bound, pc], by simp [RegTask.unanswered],
        by simp [RegTask.bound, pc], rfl⟩
  have judges : t.bound = admits ((registersOf s.received).take r) t.clientInfo := by
    refine judged.tasks r t here ?_
    rcases RegTask.answer_eq_some move with ⟨pc, -⟩ | ⟨pc, -⟩ <;> simp [pc]
  have listed : (registersOf s.received)[r]? = some t.clientInfo := by
    have listed : (s.tasks.map RegTask.clientInfo)[r]? = some t.clientInfo := by simp [here]
    rw [reach.tasks_clients] at listed
    exact Slots.get_isPrefix (List.take_prefix _ _) listed
  constructor <;> dsimp only [setTask]
  case turn =>
    intro q u found
    rw [log, acksOf_append, acksOf_registerAck, List.length_append, List.length_singleton]
    rcases Slots.get_set found with ⟨rfl, rfl⟩ | ⟨other, found⟩
    · rw [settled, ← last]
      simp
    · have bound := Slots.get_lt found
      rw [judged.turn q u found]
      omega
  case tasks =>
    intro q u found pc
    rcases Slots.get_set found with ⟨rfl, rfl⟩ | ⟨-, found⟩
    · rw [bound, client, judges]
    · exact judged.tasks q u found pc
  case acks =>
    rw [log, acksOf_append, acksOf_registerAck]
    refine judged.acks_snoc fun other register => ?_
    rw [← last] at register ⊢
    rw [listed] at register
    cases register
    rw [success, judges]
  case limit =>
    intro other main
    rw [List.length_set]
    exact judged.limit other main

theorem Judged.reject (judged : s.Judged) (all : s.AnswersAll)
    (waiting : s.Waiting) {client : ClientInfo} (main : s.main = .rejecting client)
    {endpoint : Endpoint UInt16}
    (log : endpoint.tunnel.chan.log =
      s.endpoint.tunnel.chan.log ++ [.newRegAckFrame client false 0]) :
    Judged { s with endpoint, main := .reading } := by
  have full := judged.limit client main
  have answers := all.answers
  have one := waiting.one
  simp only [owed, main, ServerMain.owed] at answers
  have none : s.tasks.countP RegTask.unanswered = 0 := by omega
  have answered : ∀ (r : Nat) (t : RegTask), s.tasks[r]? = some t → t.unanswered = false := by
    intro r t here
    simpa using List.countP_eq_zero.mp none t (List.mem_of_getElem? here)
  have early : ∀ r < s.tasks.length, r < (acksOf s.endpoint.tunnel.chan.log).length := by
    intro r bound
    have slot : s.tasks[r]? = some s.tasks[r] := List.getElem?_eq_getElem bound
    by_contra late
    have owed := (judged.turn r _ slot).mpr (Nat.le_of_not_lt late)
    rw [answered r _ slot] at owed
    cases owed
  constructor <;> dsimp only
  case turn =>
    intro r t here
    have less := early r (Slots.get_lt here)
    rw [log, acksOf_append, List.length_append, answered r t here]
    simp
    omega
  case tasks => exact judged.tasks
  case acks =>
    rw [log, acksOf_append, RfrpFrame.newRegAckFrame, acksOf_registerAck]
    refine judged.acks_snoc fun other register => ?_
    have late : maxProxiesPerClient ≤ (acksOf s.endpoint.tunnel.chan.log).length := by
      have last := early (s.tasks.length - 1) (by unfold maxProxiesPerClient at full; omega)
      omega
    have bound := Slots.get_lt register
    have past : ¬ ((registersOf s.received).take
        (acksOf s.endpoint.tunnel.chan.log).length).length < maxProxiesPerClient := by
      rw [List.length_take]
      omega
    simp only [admits, decide_eq_false past, Bool.false_and]
  case limit => simp

theorem Judged.register (judged : s.Judged) (reach : s.Reachable) (all : s.AnswersAll)
    (free : s.tasks.length < maxProxiesPerClient) {client : ClientInfo}
    (tasks : s'.tasks = s.tasks ++ [.spawn client s.nextProxyId s.endpoint.maps.length])
    (log : s'.endpoint.tunnel.chan.log = s.endpoint.tunnel.chan.log)
    (received : registersOf s'.received = registersOf s.received ++ [client])
    (main : s'.main = s.main) : s'.Judged := by
  have count := reach.tasks_length
  have answers := all.answers
  have early : ∀ {r : Nat}, r ≤ (registersOf s.received).length →
      (registersOf s'.received).take r = (registersOf s.received).take r := by
    intro r bound
    rw [received, List.take_append_of_le_length bound]
  constructor
  case turn =>
    intro r t here
    rw [tasks] at here
    rw [log]
    rcases Slots.get_append here with old | ⟨rfl, rfl⟩
    · exact judged.turn r t old
    · simp [RegTask.spawn, RegTask.unanswered]
      omega
  case tasks =>
    intro r t here settled
    rw [tasks] at here
    rcases Slots.get_append here with old | ⟨-, rfl⟩
    · have bound := Slots.get_lt old
      rw [early (by omega)]
      exact judged.tasks r t old settled
    · exact absurd rfl settled
  case acks =>
    intro i ack other here register
    rw [log] at here
    have bound := Slots.get_lt here
    have inside : i < (registersOf s.received).length := by omega
    rw [early (by omega)]
    refine judged.acks i ack other here ?_
    rwa [received, List.getElem?_append_left inside] at register
  case limit =>
    intro other rejecting
    rw [main] at rejecting
    have full := judged.limit other rejecting
    omega

theorem Judged.step (judged : s.Judged) (reach : s.Reachable) (all : s.AnswersAll)
    (waiting : s.Waiting) (fine : a.transportFails = false) (free : s.portsFree a = true)
    (h : Moves s a s') : s'.Judged := by
  have live : s.endpoint.tunnel.closed = false := by
    simpa [FrameWriter.closed] using all.going.serving
  have stays : ∀ {r : Nat} {t : RegTask}, s.tasks[r]? = some t → t.aborted = false := fun here =>
    reach.not_aborted all.running _ (List.mem_of_getElem? here)
  cases h with
  | @recvLimit client main full =>
      refine judged.keep reach all rfl rfl ?_ fun _ _ => full
      rw [registersOf_append]
      exact List.prefix_append _ _
  | recvRegister main room => exact judged.register reach all room rfl rfl (by simp) rfl
  | recvPing | recvRouted =>
      exact judged.keep reach all rfl rfl (by simp) fun _ rejecting => by cases rejecting
  | recvUnrouted => exact judged.keep reach all rfl rfl (by simp) judged.limit
  | recvOther _ register =>
      exact judged.keep reach all rfl rfl (by simp [registersOf, register]) judged.limit
  | exit => cases fine
  | reply frame sent =>
      obtain ⟨-, rfl⟩ := enqueue_eq_some sent
      rcases replyFrame_eq_some frame with ⟨client, main, rfl⟩ | ⟨-, rfl⟩
      · exact judged.reject all waiting main rfl
      · refine judged.keep reach all rfl (by simp [RfrpFrame.newPongFrame]) (List.prefix_refl _) ?_
        exact fun _ rejecting => by cases rejecting
  | replyErr _ closed | pongErr _ closed | answerErr _ _ closed =>
      rw [live] at closed
      cases closed
  | route _ sent =>
      obtain ⟨l, -, -, rfl⟩ := deliver_eq_some sent
      exact judged.keep reach all rfl rfl (List.prefix_refl _) fun _ rejecting => by cases rejecting
  | routeErr =>
      exact judged.keep reach all rfl rfl (List.prefix_refl _) fun _ rejecting => by cases rejecting
  | connect here =>
      refine judged.keep reach all (Slots.map_set _ here rfl) rfl (List.prefix_refl _) ?_
      simpa [setTask] using judged.limit
  | bind here bind => exact judged.bind reach waiting free here bind
  | answer here answer sent =>
      obtain ⟨-, rfl⟩ := enqueue_eq_some sent
      exact judged.answer reach waiting here answer rfl
  | accept here pc =>
      refine judged.keep reach all (Slots.map_set _ here ?_) rfl (List.prefix_refl _) ?_
      · simp [RegTask.judgement, RegTask.unanswered, RegTask.bound, pc]
      · simpa [acceptConn] using judged.limit
  | acquire here pc =>
      refine judged.keep reach all (Slots.map_set _ here ?_) rfl (List.prefix_refl _) ?_
      · simp [RegTask.judgement, RegTask.unanswered, RegTask.bound, pc]
      · simpa [setTask] using judged.limit
  | cancelWaiting here aborted | cancel here aborted =>
      rw [stays here] at aborted
      cases aborted
  | endpoint move =>
      refine judged.keep reach all rfl ?_ (List.prefix_refl _) judged.limit
      rcases step_tunnel_log move with same | ⟨n, l, data, -, -, -, -, eq⟩
      · rw [same]
      · simp [eq, RfrpFrame.newDataFrame]

end Server

end Rfrp
