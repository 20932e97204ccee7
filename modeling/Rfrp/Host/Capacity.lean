import Rfrp.Host.Basic
import Mathlib.Algebra.GroupWithZero.Nat

/-!
# The cap on clients

`MAX_CONCURRENT_CLIENTS` permits bound the sessions that run, and with `MAX_PROXIES_PER_CLIENT` the
listeners that are meant to stay. The clients over the cap are served in the order in which they
came.
-/

namespace Rfrp

open Transition

/-- A listener task that has not been told to end. -/
def RegTask.kept (t : RegTask) : Bool := !t.aborted

theorem Server.Reachable.aborted {s : Server} (reach : s.Reachable) :
    s.running = false → ∀ t ∈ s.tasks, t.aborted = true := by
  refine reach.induct (P := fun s => s.running = false → ∀ t ∈ s.tasks, t.aborted = true)
    (fun _ ended => by cases ended) fun s a s' _ ih move after => ?_
  have set : ∀ {r : Nat} {t t' : RegTask}, s.running = false → s.tasks[r]? = some t →
      t'.aborted = t.aborted → ∀ u ∈ s.tasks.set r t', u.aborted = true := by
    intro r t t' ended here same u mem
    rcases List.mem_or_eq_of_mem_set mem with old | rfl
    · exact ih ended u old
    · exact same.trans (ih ended t (List.mem_of_getElem? here))
  cases move with
  | exit | pongErr =>
      intro t mem
      obtain ⟨t, -, rfl⟩ := List.mem_map.mp mem
      rfl
  | recvLimit main | recvRegister main | recvPing main | recvRouted main =>
      simp [running, main] at after
  | reply | replyErr | route | routeErr => simp [running] at after
  | connect here => exact set after here rfl
  | bind here move => exact set after here (by rw [(RegTask.bind_eq_some move).2.2])
  | answer here move | answerErr here move =>
      refine set after here ?_
      rcases RegTask.answer_eq_some move with ⟨-, -, rfl⟩ | ⟨-, -, rfl⟩ <;> rfl
  | accept here | acquire here | cancelWaiting here | cancel here => exact set after here rfl
  | _ => exact ih after

namespace ClientTask

/-- How many listener tasks are meant to stay. -/
def kept (client : ClientTask) : Nat :=
  match client.server? with
  | some s => s.tasks.countP RegTask.kept
  | none => 0

/-- The permit has been granted. -/
def admitted : ClientTask → Bool
  | .spawned | .acquiring => false
  | _ => true

/-- What a session has come to is a state of a session on its own. -/
def Sound : ClientTask → Prop
  | .serving s => s.Reachable
  | .returned (some s) => s.Reachable ∧ s.running = false
  | _ => True

theorem Sound.server {client : ClientTask} (sound : client.Sound) {s : Server}
    (has : client.server? = some s) : s.Reachable := by
  cases client with
  | serving =>
      cases has
      exact sound
  | returned server =>
      cases has
      exact sound.1
  | _ => cases has

theorem Sound.kept_le {client : ClientTask} (sound : client.Sound) :
    client.kept ≤ if client.holdsPermit then maxProxiesPerClient else 0 := by
  cases client with
  | serving s => exact Nat.le_trans List.countP_le_length sound.booked.count
  | returned server =>
      cases server with
      | none => exact Nat.le_refl _
      | some s =>
          apply Nat.le_of_eq
          apply List.countP_eq_zero.mpr
          intro t mem
          simp [RegTask.kept, sound.1.aborted sound.2 t mem]
  | _ => exact Nat.zero_le _

theorem Sound.setServer {client : ClientTask} (sound : client.Sound) {s s' : Server} {a : ServerAct}
    (has : client.server? = some s) (move : s.step a = some s') : (client.setServer s').Sound := by
  have after : s'.Reachable := by
    obtain ⟨sndBuf, run⟩ := sound.server has
    exact ⟨sndBuf, run.tail trivial move⟩
  cases client with
  | serving => exact after
  | returned server =>
      cases has
      refine ⟨after, Bool.eq_false_iff.mpr fun running => ?_⟩
      have before := Server.running_of_step (Server.moves_of_step move) running
      rw [sound.2] at before
      cases before
  | _ => cases has

end ClientTask

namespace Host

variable {h h' : Host} {a : HostAct}

/-- What the semaphore says of the clients. -/
structure Counted (h : Host) : Prop where
  permits : h.permits + h.clients.countP ClientTask.holdsPermit = maxConcurrentClients
  asked : ∀ i ∈ h.waiters.log, ∃ client, h.clients[i]? = some client ∧ client ≠ .spawned
  once : h.waiters.log.Nodup
  queued : ∀ i, i ∈ h.waiters.queue ↔ h.clients[i]? = some .acquiring
  granted : ∀ i, i ∈ h.waiters.received ↔ ∃ client, h.clients[i]? = some client ∧ client.admitted = true

structure Orderly (h : Host) : Prop where
  counted : h.Counted
  sound : ∀ (i : Nat) (client : ClientTask), h.clients[i]? = some client → client.Sound

theorem counted_start (port : UInt16) : (start port).Counted where
  permits := rfl
  asked := fun i mem => by cases mem
  once := List.nodup_nil
  queued := fun i => by simp [start]
  granted := fun i => by simp [start]

/-- Only the phase of one client changes, and neither whether it waits nor whether it was admitted. -/
theorem Counted.set (counted : h.Counted) (permits : Nat) {i : Nat} {client client' : ClientTask}
    (here : h.clients[i]? = some client) (before : client.admitted = true)
    (after : client'.admitted = true)
    (kept : permits + (if client'.holdsPermit then 1 else 0) =
      h.permits + if client.holdsPermit then 1 else 0) :
    ({ h.setClient i client' with permits } : Host).Counted where
  permits := by
    have moved := Slots.countP_set (b := client') ClientTask.holdsPermit here
    have total := counted.permits
    show permits + (h.clients.set i client').countP ClientTask.holdsPermit = _
    omega
  asked := by
    intro j mem
    by_cases own : j = i
    · subst own
      refine ⟨client', Slots.get_set_self here, ?_⟩
      rintro rfl
      cases after
    · obtain ⟨other, there, polled⟩ := counted.asked j mem
      exact ⟨other, (Slots.get_set_ne own).trans there, polled⟩
  once := counted.once
  queued := by
    intro j
    show j ∈ h.waiters.queue ↔ (h.clients.set i client')[j]? = _
    by_cases own : j = i
    · subst own
      rw [counted.queued, Slots.get_set_self here, here]
      constructor
      · rintro same
        cases same
        cases before
      · rintro same
        cases same
        cases after
    · rw [Slots.get_set_ne own]
      exact counted.queued j
  granted := by
    intro j
    show j ∈ h.waiters.received ↔ ∃ other, (h.clients.set i client')[j]? = some other ∧ _
    rw [counted.granted]
    by_cases own : j = i
    · subst own
      rw [Slots.get_set_self here, here]
      exact ⟨fun _ => ⟨client', rfl, after⟩, fun _ => ⟨client, rfl, before⟩⟩
    · rw [Slots.get_set_ne own]

theorem Counted.accept (counted : h.Counted) :
    ({ h with clients := h.clients ++ [.spawned] } : Host).Counted where
  permits := by
    rw [List.countP_append]
    exact counted.permits
  asked := by
    intro i mem
    obtain ⟨client, here, polled⟩ := counted.asked i mem
    exact ⟨client, Slots.get_append_left here, polled⟩
  once := counted.once
  queued := by
    intro i
    rw [counted.queued]
    constructor
    · exact Slots.get_append_left
    · intro here
      rcases Slots.get_append here with here | ⟨-, new⟩
      · exact here
      · cases new
  granted := by
    intro i
    rw [counted.granted]
    constructor
    · rintro ⟨client, here, admitted⟩
      exact ⟨client, Slots.get_append_left here, admitted⟩
    · rintro ⟨client, here, admitted⟩
      rcases Slots.get_append here with here | ⟨-, rfl⟩
      · exact ⟨client, here, admitted⟩
      · cases admitted

theorem Counted.acquire (counted : h.Counted) {i : Nat} (here : h.clients[i]? = some .spawned) :
    ({ h.setClient i .acquiring with waiters := h.waiters.push i } : Host).Counted where
  permits := by
    have moved := Slots.countP_set (b := .acquiring) ClientTask.holdsPermit here
    have total := counted.permits
    simp [ClientTask.holdsPermit] at moved
    show h.permits + (h.clients.set i .acquiring).countP ClientTask.holdsPermit = _
    omega
  asked := by
    intro j mem
    by_cases own : j = i
    · subst own
      exact ⟨.acquiring, Slots.get_set_self here, by simp⟩
    · rcases List.mem_append.mp mem with old | new
      · obtain ⟨client, there, polled⟩ := counted.asked j old
        exact ⟨client, (Slots.get_set_ne own).trans there, polled⟩
      · exact absurd (List.mem_singleton.mp new) own
  once := by
    apply List.nodup_append.mpr
    refine ⟨counted.once, List.pairwise_singleton _ i, ?_⟩
    rintro j old k new rfl
    obtain rfl := List.mem_singleton.mp new
    obtain ⟨client, there, polled⟩ := counted.asked j old
    exact polled (Option.some.inj (there.symm.trans here))
  queued := by
    intro j
    show j ∈ (h.waiters.push i).queue ↔ (h.clients.set i .acquiring)[j]? = _
    rw [Fifo.queue_push, List.mem_append, List.mem_singleton, counted.queued]
    by_cases own : j = i
    · subst own
      exact ⟨fun _ => Slots.get_set_self here, fun _ => Or.inr rfl⟩
    · rw [Slots.get_set_ne own]
      exact or_iff_left own
  granted := by
    intro j
    show j ∈ (h.waiters.push i).received ↔ ∃ client, (h.clients.set i .acquiring)[j]? = some client ∧ _
    rw [Fifo.received_push, counted.granted]
    by_cases own : j = i
    · subst own
      rw [Slots.get_set_self here, here]
      simp [ClientTask.admitted]
    · rw [Slots.get_set_ne own]

/-- The permit goes to the task that has waited longest. -/
theorem Counted.grant (counted : h.Counted) {i : Nat} {waiters : Fifo Nat} (free : 0 < h.permits)
    (popped : h.waiters.pop = some (i, waiters)) :
    ({ h.setClient i .handshaking with permits := h.permits - 1, waiters } : Host).Counted := by
  obtain ⟨log, received, queue⟩ := Fifo.pop_eq_some popped
  have here : h.clients[i]? = some .acquiring :=
    (counted.queued i).mp (by rw [queue]; exact List.mem_cons_self)
  have apart : i ∉ waiters.queue := by
    have once := counted.once
    rw [← Fifo.received_append_queue, queue] at once
    exact (List.nodup_cons.mp (List.nodup_append.mp once).2.1).1
  constructor
  · have moved := Slots.countP_set (b := .handshaking) ClientTask.holdsPermit here
    have total := counted.permits
    simp [ClientTask.holdsPermit] at moved
    show h.permits - 1 + (h.clients.set i .handshaking).countP ClientTask.holdsPermit = _
    omega
  · intro j mem
    by_cases own : j = i
    · subst own
      exact ⟨.handshaking, Slots.get_set_self here, by simp⟩
    · obtain ⟨client, there, polled⟩ := counted.asked j (log ▸ mem)
      exact ⟨client, (Slots.get_set_ne own).trans there, polled⟩
  · exact log ▸ counted.once
  · intro j
    show j ∈ waiters.queue ↔ (h.clients.set i .handshaking)[j]? = _
    by_cases own : j = i
    · subst own
      rw [Slots.get_set_self here]
      simp [apart]
    · rw [Slots.get_set_ne own, ← counted.queued, queue, List.mem_cons]
      exact (or_iff_right own).symm
  · intro j
    show j ∈ waiters.received ↔ ∃ client, (h.clients.set i .handshaking)[j]? = some client ∧ _
    rw [received, List.mem_append, List.mem_singleton, counted.granted]
    by_cases own : j = i
    · subst own
      rw [Slots.get_set_self here]
      exact ⟨fun _ => ⟨_, rfl, rfl⟩, fun _ => Or.inr rfl⟩
    · rw [Slots.get_set_ne own]
      exact or_iff_left own

theorem Counted.step (counted : h.Counted) (move : Moves h a h') : h'.Counted := by
  cases move with
  | accept => exact counted.accept
  | acquire here => exact counted.acquire here
  | grant free popped => exact counted.grant free popped
  | shake here => exact counted.set _ here rfl rfl rfl
  | shakeErr here => exact counted.set _ here rfl rfl rfl
  | @session i client s s' _ here has _ _ =>
      cases client with
      | serving => exact counted.set h.permits here rfl rfl rfl
      | returned => exact counted.set h.permits here rfl rfl rfl
      | _ => cases has
  | finish here => exact counted.set _ here rfl rfl rfl

theorem orderly_step (orderly : h.Orderly) (move : Moves h a h') : h'.Orderly := by
  refine ⟨orderly.counted.step move, ?_⟩
  have set : ∀ {i : Nat} {client : ClientTask}, client.Sound →
      ∀ (j : Nat) (other : ClientTask), (h.clients.set i client)[j]? = some other → other.Sound := by
    intro i client sound j other here
    rcases Slots.get_set here with ⟨-, rfl⟩ | ⟨-, here⟩
    · exact sound
    · exact orderly.sound j other here
  cases move with
  | accept =>
      intro j other here
      rcases Slots.get_append here with here | ⟨-, rfl⟩
      · exact orderly.sound j other here
      · trivial
  | acquire | grant | shakeErr => exact set trivial
  | shake => exact set ⟨_, Run.refl _⟩
  | session here has _ move => exact set ((orderly.sound _ _ here).setServer has move)
  | finish here ended => exact set ⟨orderly.sound _ _ here, ended⟩

theorem Reachable.orderly (reach : h.Reachable) : h.Orderly :=
  reach.induct (fun port => ⟨counted_start port, fun i client here => by simp [start] at here⟩)
    fun _ _ _ _ ih move => orderly_step ih move

theorem kept_le (clients : List ClientTask) (sound : ∀ client ∈ clients, client.Sound) :
    (clients.map ClientTask.kept).sum ≤ maxProxiesPerClient * clients.countP ClientTask.holdsPermit := by
  induction clients with
  | nil => exact Nat.le_refl _
  | cons client clients ih =>
      have here := (sound client List.mem_cons_self).kept_le
      have there := ih fun other mem => sound other (List.mem_cons_of_mem _ mem)
      rw [List.map_cons, List.sum_cons, List.countP_cons, Nat.mul_add]
      split at here
      · rename_i holds
        rw [if_pos holds]
        omega
      · rename_i free
        rw [if_neg free]
        omega

/-- At most 64 sessions run and at most 1024 listeners are meant to stay; nobody is admitted before a
client that asked earlier, and nobody waits while a permit is free. -/
theorem clients_capped (h : Host) (reach : h.Reachable) :
    h.clients.countP ClientTask.holdsPermit ≤ maxConcurrentClients ∧
    (h.clients.map ClientTask.kept).sum ≤ maxProxiesPerClient * maxConcurrentClients ∧
    (∀ (n m i j : Nat) (client later : ClientTask), n ≤ m → h.waiters.log[n]? = some i →
      h.waiters.log[m]? = some j → h.clients[i]? = some client → h.clients[j]? = some later →
      later.admitted = true → client.admitted = true) ∧
    (∀ i : Nat, h.clients[i]? = some .acquiring →
      h.clients.countP ClientTask.holdsPermit = maxConcurrentClients ∨ ∃ h', h.step .grant = some h') ∧
    ∀ (i : Nat) (client : ClientTask) (s : Server), h.clients[i]? = some client →
      client.server? = some s → s.Reachable := by
  obtain ⟨counted, sound⟩ := reach.orderly
  have total := counted.permits
  refine ⟨by omega, ?_, ?_, ?_, fun i client s here has => (sound i client here).server has⟩
  · have listeners := kept_le h.clients fun client mem => by
      obtain ⟨i, here⟩ := List.mem_iff_getElem?.mp mem
      exact sound i client here
    exact Nat.le_trans listeners (Nat.mul_le_mul_left _ (by omega))
  · intro n m i j client later earlier first second here there admitted
    have taken : m < h.waiters.taken := by
      have mem := (counted.granted j).mpr ⟨later, there, admitted⟩
      obtain ⟨k, found⟩ := List.mem_iff_getElem?.mp mem
      rw [Fifo.received, List.getElem?_take] at found
      split at found
      · rename_i few
        have same : m = k := 
          (List.getElem?_inj (Slots.get_lt second) counted.once).mp (second.trans found.symm)
        omega
      · cases found
    have mem : i ∈ h.waiters.received := by
      apply List.mem_iff_getElem?.mpr
      refine ⟨n, ?_⟩
      rw [Fifo.received, List.getElem?_take, if_pos (by omega)]
      exact first
    obtain ⟨client', here', admitted⟩ := (counted.granted i).mp mem
    rw [here] at here'
    cases here'
    exact admitted
  · intro i waits
    by_cases free : 0 < h.permits
    · right
      have ne : h.waiters.queue ≠ [] := List.ne_nil_of_mem ((counted.queued i).mpr waits)
      obtain ⟨j, waiters, popped⟩ := Fifo.exists_pop ne
      refine ⟨{ h.setClient j .handshaking with permits := h.permits - 1, waiters }, ?_⟩
      simp only [step, if_pos free, popped, Option.map_some]
    · left
      omega

/-- One client more than there are permits. -/
def crowd : List HostAct :=
  (List.range 65).flatMap (fun i => [.accept, .acquire i]) ++ List.replicate 64 .grant

theorem clients_capped_crowd : ∃ h : Host, h.Reachable ∧ h.clients[64]? = some .acquiring ∧
    h.clients.countP ClientTask.holdsPermit = maxConcurrentClients := by
  have view : (exec step (start 11000) crowd).map (fun h =>
      (h.permits, h.clients[64]?.any fun client => client matches .acquiring)) = some (0, true) := by
    decide +kernel
  obtain ⟨h, run, seen⟩ := Option.map_eq_some_iff.mp view
  obtain ⟨none, waits⟩ := Prod.mk.inj seen
  have reach : h.Reachable := ⟨11000, reach_of_exec crowd run⟩
  have last : h.clients[64]? = some .acquiring := by
    cases here : h.clients[64]? with
    | none => simp [here] at waits
    | some client => cases client <;> simp [here] at waits ⊢
  obtain ⟨-, -, -, waiting, -⟩ := clients_capped h reach
  refine ⟨h, reach, last, (waiting 64 last).resolve_right ?_⟩
  rintro ⟨h', move⟩
  simp [step, none] at move

end Host

end Rfrp
