import Rfrp.Server.Registration
import Mathlib.Algebra.Group.Nat.Defs

/-!
# Accepted connections

Every connection of the server's endpoint was accepted by the task of its proxy: it carries that
task's id and port, and its `conn_id` counts the connections accepted before it. With fewer than
`2^64` of them per proxy, `(proxy_id, conn_id)` names one external connection.
-/

namespace Rfrp

def RegTask.waitsFor (t : RegTask) : Option Nat :=
  match t.pc with
  | .acquiring n => some n
  | _ => none

namespace Server

open Transition Endpoint

variable {s s' : Server} {a : ServerAct} {r n m : Nat} {t : RegTask} {l k : Link UInt16}

def acceptedBefore (s : Server) (n r : Nat) : Nat :=
  ((s.endpoint.links.map Link.map).take n).count r

/-- How many connections were accepted for proxy `r`. -/
def accepted (s : Server) (r : Nat) : Nat := (s.endpoint.links.map Link.map).count r

def taskView (t : RegTask) : (ClientInfo × UInt32 × Nat) × UInt64 × Option Nat :=
  (t.ident, t.nextConnId, t.waitsFor)

def linkView (l : Link UInt16) : (UInt16 × UInt32 × UInt64 × Nat) × Bool := (l.ident, l.waiting)

structure Accepted (s : Server) : Prop where
  task : ∀ (n : Nat) (l : Link UInt16), s.endpoint.links[n]? = some l →
    ∃ t, s.tasks[l.map]? = some t ∧ l.proxyId = t.proxyId ∧ l.info = t.clientInfo.bindPort
  connId : ∀ (n : Nat) (l : Link UInt16), s.endpoint.links[n]? = some l →
    l.connId = UInt64.ofNat (s.acceptedBefore n l.map)
  nextConnId : ∀ (r : Nat) (t : RegTask), s.tasks[r]? = some t →
    t.nextConnId = UInt64.ofNat (s.accepted r)
  waits : ∀ (r n : Nat) (t : RegTask), s.tasks[r]? = some t → t.pc = .acquiring n →
    ∃ l, s.endpoint.links[n]? = some l ∧ l.map = r ∧ l.waiting = true
  waiting : ∀ (n : Nat) (l : Link UInt16), s.endpoint.links[n]? = some l → l.waiting = true →
    ∃ t, s.tasks[l.map]? = some t ∧ t.pc = .acquiring n

theorem accepted_start (sndBuf : Nat) : (start sndBuf).Accepted where
  task := fun _ _ h => by simp [start, Endpoint.spawn] at h
  connId := fun _ _ h => by simp [start, Endpoint.spawn] at h
  nextConnId := fun _ _ h => by simp [start] at h
  waits := fun _ _ _ h => by simp [start] at h
  waiting := fun _ _ h => by simp [start, Endpoint.spawn] at h

theorem waitsFor_eq_some : t.waitsFor = some n ↔ t.pc = .acquiring n := by
  unfold RegTask.waitsFor
  split <;> simp_all

theorem Accepted.keep (acc : s.Accepted) (tasks : s'.tasks.map taskView = s.tasks.map taskView)
    (links : s'.endpoint.links.map linkView = s.endpoint.links.map linkView) : s'.Accepted := by
  have maps : s'.endpoint.links.map Link.map = s.endpoint.links.map Link.map := by
    simpa [linkView, Link.ident, Function.comp_def] using
      congrArg (List.map fun v : (UInt16 × UInt32 × UInt64 × Nat) × Bool => v.1.2.2.2) links
  have old : ∀ (n : Nat) (l' : Link UInt16), s'.endpoint.links[n]? = some l' →
      ∃ l : Link UInt16, s.endpoint.links[n]? = some l ∧ l.ident = l'.ident ∧
        l.waiting = l'.waiting := by
    intro n l' h
    obtain ⟨l, here, eq⟩ := Slots.get_of_map linkView links h
    exact ⟨l, here, (Prod.mk.inj eq).1, (Prod.mk.inj eq).2⟩
  have new : ∀ (r : Nat) (t : RegTask), s.tasks[r]? = some t →
      ∃ t' : RegTask, s'.tasks[r]? = some t' ∧ t'.ident = t.ident ∧
        t'.nextConnId = t.nextConnId ∧ t'.waitsFor = t.waitsFor := by
    intro r t h
    obtain ⟨t', here, eq⟩ := Slots.get_of_map taskView tasks.symm h
    simp only [taskView, Prod.mk.injEq] at eq
    exact ⟨t', here, eq.1, eq.2.1, eq.2.2⟩
  refine ⟨?_, ?_, ?_, ?_, ?_⟩
  · intro n l' h
    obtain ⟨l, here, ident, -⟩ := old n l' h
    obtain ⟨t, task, p, i⟩ := acc.task n l here
    obtain ⟨t', task', eq, -⟩ := new _ t task
    simp only [Link.ident, RegTask.ident, Prod.mk.injEq] at ident eq
    exact ⟨t', ident.2.2.2 ▸ task', by rw [← ident.2.1, p, eq.2.1], by rw [← ident.1, i, eq.1]⟩
  · intro n l' h
    obtain ⟨l, here, ident, -⟩ := old n l' h
    have id := acc.connId n l here
    simp only [Link.ident, Prod.mk.injEq] at ident
    rw [← ident.2.2.1, id, acceptedBefore, acceptedBefore, maps, ident.2.2.2]
  · intro r t' h
    obtain ⟨t, here, eq⟩ := Slots.get_of_map taskView tasks h
    simp only [taskView, Prod.mk.injEq] at eq
    rw [← eq.2.1, acc.nextConnId r t here, Server.accepted, Server.accepted, maps]
  · intro r n t' h pc
    obtain ⟨t, here, eq⟩ := Slots.get_of_map taskView tasks h
    simp only [taskView, Prod.mk.injEq] at eq
    obtain ⟨l, link, map, waiting⟩ := acc.waits r n t here
      (waitsFor_eq_some.mp (eq.2.2.trans (waitsFor_eq_some.mpr pc)))
    obtain ⟨l', link', eq'⟩ := Slots.get_of_map linkView links.symm link
    simp only [linkView, Link.ident, Prod.mk.injEq] at eq'
    exact ⟨l', link', eq'.1.2.2.2.trans map, eq'.2.trans waiting⟩
  · intro n l' h waiting
    obtain ⟨l, here, ident, wait⟩ := old n l' h
    obtain ⟨t, task, pc⟩ := acc.waiting n l here (wait.trans waiting)
    obtain ⟨t', task', -, -, eq⟩ := new _ t task
    simp only [Link.ident, Prod.mk.injEq] at ident
    exact ⟨t', ident.2.2.2 ▸ task', waitsFor_eq_some.mp (eq.trans (waitsFor_eq_some.mpr pc))⟩

theorem Accepted.settle (acc : s.Accepted) (here : s.tasks[r]? = some t)
    (pc : t.pc = .acquiring n) (link : s.endpoint.links[n]? = some l) {pc' : RegPc}
    (other : ∀ n, pc' ≠ .acquiring n) {conn : Conn} (started : conn.reader ≠ .unspawned) :
    ({ s with endpoint := s.endpoint.setLink n (l.setConn conn) }.setTask r
      { t with pc := pc' }).Accepted := by
  have maps : (s.endpoint.setLink n (l.setConn conn)).links.map Link.map =
      s.endpoint.links.map Link.map := map_setLink _ link rfl
  have column : (s.tasks.set r { t with pc := pc' }).map RegTask.ident =
      s.tasks.map RegTask.ident := Slots.map_set _ here rfl
  have task : ∀ (q : Nat) (u : RegTask), s.tasks[q]? = some u →
      ∃ u' : RegTask, (s.tasks.set r { t with pc := pc' })[q]? = some u' ∧ u'.ident = u.ident :=
    fun _ _ => Slots.get_of_map RegTask.ident column.symm
  refine ⟨?_, ?_, ?_, ?_, ?_⟩
  · intro k l' h
    rcases Slots.get_set h with ⟨rfl, rfl⟩ | ⟨-, h⟩
    · obtain ⟨u, found, p, i⟩ := acc.task _ l link
      obtain ⟨u', found', eq⟩ := task _ u found
      simp only [RegTask.ident, Prod.mk.injEq] at eq
      exact ⟨u', found', p.trans eq.2.1.symm, by rw [eq.1]; exact i⟩
    · obtain ⟨u, found, p, i⟩ := acc.task k l' h
      obtain ⟨u', found', eq⟩ := task _ u found
      simp only [RegTask.ident, Prod.mk.injEq] at eq
      exact ⟨u', found', p.trans eq.2.1.symm, by rw [eq.1]; exact i⟩
  · intro k l' h
    rw [acceptedBefore]
    simp only [setTask, maps]
    rcases Slots.get_set h with ⟨rfl, rfl⟩ | ⟨-, h⟩
    · exact acc.connId _ l link
    · exact acc.connId k l' h
  · intro q u h
    rw [Server.accepted]
    simp only [setTask, maps]
    rcases Slots.get_set h with ⟨rfl, rfl⟩ | ⟨-, h⟩
    · exact acc.nextConnId _ t here
    · exact acc.nextConnId q u h
  · intro q k u h wait
    rcases Slots.get_set h with ⟨rfl, rfl⟩ | ⟨ne, h⟩
    · exact absurd wait (other k)
    · obtain ⟨l', found, map, waiting⟩ := acc.waits q k u h wait
      have away : k ≠ n := by
        rintro rfl
        obtain ⟨l'', found', map', -⟩ := acc.waits r k t here pc
        rw [found] at found'
        cases found'
        exact ne (map.symm.trans map')
      exact ⟨l', by simpa only [setTask, setLink_links, Slots.get_set_ne away] using found, map,
        waiting⟩
  · intro k l' h waiting
    rcases Slots.get_set h with ⟨rfl, rfl⟩ | ⟨ne, h⟩
    · simp [Link.waiting, Link.setConn, started] at waiting
    · obtain ⟨u, found, wait⟩ := acc.waiting k l' h waiting
      have away : l'.map ≠ r := by
        intro same
        rw [same, here] at found
        cases found
        rw [pc] at wait
        cases wait
        exact ne rfl
      exact ⟨u, by simpa only [setTask, Slots.get_set_ne away] using found, wait⟩

theorem Accepted.accept (acc : s.Accepted) (booked : s.Booked) (here : s.tasks[r]? = some t)
    (pc : t.pc = .accepting) (sndBuf : Nat) : (s.acceptConn r t sndBuf).Accepted := by
  have routing : t.routing = r := (booked.task r t here).2
  have before : ∀ q ≤ s.endpoint.links.length, ∀ p,
      (s.acceptConn r t sndBuf).acceptedBefore q p = s.acceptedBefore q p := by
    intro q bound p
    simp [acceptedBefore, acceptConn, Endpoint.addLink, List.take_append_of_le_length, bound]
  have after : ∀ p, (s.acceptConn r t sndBuf).accepted p =
      s.accepted p + if r = p then 1 else 0 := by
    intro p
    simp [Server.accepted, acceptConn, Endpoint.addLink, routing, List.count_singleton]
  have column : (s.acceptConn r t sndBuf).tasks.map RegTask.ident = s.tasks.map RegTask.ident :=
    Slots.map_set _ here rfl
  have task : ∀ (q : Nat) (u : RegTask), s.tasks[q]? = some u →
      ∃ u' : RegTask, (s.acceptConn r t sndBuf).tasks[q]? = some u' ∧ u'.ident = u.ident :=
    fun _ _ => Slots.get_of_map RegTask.ident column.symm
  refine ⟨?_, ?_, ?_, ?_, ?_⟩
  · intro k l' h
    rcases Slots.get_append h with h | ⟨rfl, rfl⟩
    · obtain ⟨u, found, p, i⟩ := acc.task k l' h
      obtain ⟨u', found', eq⟩ := task _ u found
      simp only [RegTask.ident, Prod.mk.injEq] at eq
      exact ⟨u', found', p.trans eq.2.1.symm, by rw [eq.1]; exact i⟩
    · obtain ⟨u', found', eq⟩ := task r t here
      simp only [RegTask.ident, Prod.mk.injEq] at eq
      exact ⟨u', routing ▸ found', eq.2.1.symm, by rw [eq.1]⟩
  · intro k l' h
    rcases Slots.get_append h with h | ⟨rfl, rfl⟩
    · rw [before k (Nat.le_of_lt (Slots.get_lt h))]
      exact acc.connId k l' h
    · rw [before _ (Nat.le_refl _), acceptedBefore, List.take_of_length_le (by simp), routing]
      exact acc.nextConnId r t here
  · intro q u h
    rw [after]
    rcases Slots.get_set h with ⟨rfl, rfl⟩ | ⟨ne, h⟩
    · rw [if_pos rfl, UInt64.ofNat_add, ← acc.nextConnId _ t here]
      rfl
    · rw [if_neg (Ne.symm ne), Nat.add_zero]
      exact acc.nextConnId q u h
  · intro q k u h wait
    rcases Slots.get_set h with ⟨rfl, rfl⟩ | ⟨ne, h⟩
    · cases wait
      exact ⟨_, by simp [acceptConn, Endpoint.addLink]; rfl, routing, rfl⟩
    · obtain ⟨l', found, rest⟩ := acc.waits q k u h wait
      exact ⟨l', Slots.get_append_left found, rest⟩
  · intro k l' h waiting
    rcases Slots.get_append h with h | ⟨rfl, rfl⟩
    · obtain ⟨u, found, wait⟩ := acc.waiting k l' h waiting
      have away : l'.map ≠ r := by
        intro same
        rw [same, here] at found
        cases found
        rw [pc] at wait
        cases wait
      exact ⟨u, by rw [acceptConn, Slots.get_set_ne away]; exact found, wait⟩
    · exact ⟨_, by rw [routing]; exact Slots.get_set_self here, rfl⟩

theorem Accepted.register (acc : s.Accepted) {client : ClientInfo} {p : UInt32} {m : Nat}
    (tasks : s'.tasks = s.tasks ++ [.spawn client p m])
    (links : s'.endpoint.links = s.endpoint.links) : s'.Accepted := by
  have unused : s.accepted s.tasks.length = 0 := by
    simp only [Server.accepted, List.count_eq_zero, List.mem_map, not_exists, not_and]
    intro l mem same
    obtain ⟨n, here⟩ := List.mem_iff_getElem?.mp mem
    obtain ⟨t, found, -⟩ := acc.task n l here
    have := Slots.get_lt found
    omega
  refine ⟨?_, ?_, ?_, ?_, ?_⟩
  · intro n l h
    rw [links] at h
    obtain ⟨t, found, rest⟩ := acc.task n l h
    exact ⟨t, tasks ▸ Slots.get_append_left found, rest⟩
  · intro n l h
    rw [links] at h
    rw [acceptedBefore, links]
    exact acc.connId n l h
  · intro r t h
    rw [Server.accepted, links]
    rw [tasks] at h
    rcases Slots.get_append h with h | ⟨rfl, rfl⟩
    · exact acc.nextConnId r t h
    · exact congrArg UInt64.ofNat unused.symm
  · intro r n t h pc
    rw [links]
    rw [tasks] at h
    rcases Slots.get_append h with h | ⟨-, rfl⟩
    · exact acc.waits r n t h pc
    · cases pc
  · intro n l h waiting
    rw [links] at h
    obtain ⟨t, found, pc⟩ := acc.waiting n l h waiting
    exact ⟨t, tasks ▸ Slots.get_append_left found, pc⟩

theorem Accepted.step (acc : s.Accepted) (booked : s.Booked) (h : Moves s a s') : s'.Accepted := by
  cases h with
  | recvRegister => exact acc.register rfl rfl
  | exit => exact acc.keep (by simp [teardown, Function.comp_def]; exact fun _ _ => rfl) rfl
  | pongErr => exact acc.keep (by simp [teardown, Function.comp_def]; exact fun _ _ => rfl) rfl
  | reply _ sent =>
      obtain ⟨-, rfl⟩ := enqueue_eq_some sent
      exact acc.keep rfl rfl
  | route _ sent =>
      obtain ⟨l, here, -, rfl⟩ := deliver_eq_some sent
      exact acc.keep rfl (map_setLink _ here rfl)
  | connect here => exact acc.keep (Slots.map_set _ here rfl) rfl
  | @bind r ok t t' here move =>
      obtain ⟨pc, pc', eq⟩ := RegTask.bind_eq_some move
      refine acc.keep (Slots.map_set _ here ?_) rfl
      have before : t.waitsFor = none := by simp [RegTask.waitsFor, pc]
      have after : t'.waitsFor = none := by
        rcases pc' with ⟨pc', -⟩ | ⟨pc', -⟩ <;> simp only [RegTask.waitsFor, pc']
      rw [taskView, after, taskView, before, eq]
      rfl
  | answer here move sent =>
      obtain ⟨-, rfl⟩ := enqueue_eq_some sent
      refine acc.keep (Slots.map_set _ here ?_) rfl
      rcases RegTask.answer_eq_some move with ⟨pc, -, rfl⟩ | ⟨pc, -, rfl⟩ <;>
        simp [taskView, RegTask.ident, RegTask.waitsFor, pc]
  | answerErr here move =>
      refine acc.keep (Slots.map_set _ here ?_) rfl
      rcases RegTask.answer_eq_some move with ⟨pc, -, rfl⟩ | ⟨pc, -, rfl⟩ <;>
        simp [taskView, RegTask.ident, RegTask.waitsFor, pc]
  | accept here pc => exact acc.accept booked here pc _
  | acquire here pc link => exact acc.settle here pc link (by simp) (by simp [Conn.spawn])
  | cancelWaiting here _ pc link => exact acc.settle here pc link (by simp) (by simp [Conn.drop])
  | @cancel r t here _ _ other =>
      refine acc.keep (Slots.map_set _ here ?_) rfl
      have before : t.waitsFor = none :=
        Option.eq_none_iff_forall_not_mem.mpr fun n mem => other n (waitsFor_eq_some.mp mem)
      rw [taskView, taskView, before]
      rfl
  | endpoint move =>
      refine acc.keep rfl ?_
      have view : ∀ e : Endpoint UInt16, e.links.map linkView =
          (e.links.map Link.ident).zip (e.links.map Link.waiting) := fun e => by
        rw [List.zip_map', ]
        rfl
      simp only [view, step_ident move, step_waiting move]
  | _ => exact acc.keep rfl rfl

theorem Reachable.accepted (reach : s.Reachable) : s.Accepted :=
  reach.induct accepted_start fun _ _ _ before ih move => ih.step before.booked move

def allowed (s : Server) (a : ServerAct) : Allowed where
  act o b := o = s.owners ∧ a = .endpoint b
  remove := False
  drop := s.running = false
  abort := False

theorem step_endpoint (reach : s.Reachable) (h : Moves s a s') :
    Evolves (s.allowed a) s.endpoint s'.endpoint := by
  have acc := reach.accepted
  cases h with
  | recvRegister => exact .addMap
  | reply frame sent =>
      refine .enqueue ?_ sent
      rcases replyFrame_eq_some frame with ⟨client, -, rfl⟩ | ⟨-, rfl⟩ <;> rfl
  | route _ sent => exact .deliver sent
  | answer _ move sent =>
      refine .enqueue ?_ sent
      rcases RegTask.answer_eq_some move with ⟨-, rfl, -⟩ | ⟨-, rfl, -⟩ <;> rfl
  | accept => exact .addLink (Conn.ok_fresh _) rfl rfl rfl
  | acquire here pc link =>
      obtain ⟨l, found, -, waiting⟩ := acc.waits _ _ _ here pc
      rw [link] at found
      cases found
      exact .spawn link waiting
  | cancelWaiting here aborted pc link =>
      obtain ⟨l, found, -, waiting⟩ := acc.waits _ _ _ here pc
      rw [link] at found
      cases found
      refine .drop ?_ link waiting
      cases running : s.running with
      | false => exact running
      | true =>
          rw [reach.not_aborted running _ (List.mem_of_getElem? here)] at aborted
          cases aborted
  | endpoint move => exact .step ⟨rfl, rfl⟩ move
  | _ => exact .same

theorem Reachable.endpoint_ok (reach : s.Reachable) : s.endpoint.Ok :=
  reach.induct (P := fun s => s.endpoint.Ok) (fun sndBuf => ok_spawn sndBuf)
    fun _ _ _ before ih move => ih.evolves (step_endpoint before move)

theorem Reachable.mapped (reach : s.Reachable) : s.endpoint.Mapped :=
  reach.induct (P := fun s => s.endpoint.Mapped) (fun sndBuf => mapped_spawn sndBuf)
    fun _ _ _ before ih move => ih.evolves (step_endpoint before move)

theorem Reachable.upstream (reach : s.Reachable) : ∃ origin, s.endpoint.Upstream origin := by
  refine reach.induct (P := fun s => ∃ origin, s.endpoint.Upstream origin)
    (fun sndBuf => ⟨[], upstream_spawn sndBuf⟩) ?_
  intro s a s' before ⟨origin, up⟩ move
  obtain ⟨origin', up', -⟩ := up.evolves (step_endpoint before move)
  exact ⟨origin', up'⟩

/-! ## Connection ids -/

theorem acceptedBefore_le (s : Server) (n r : Nat) : s.acceptedBefore n r ≤ s.accepted r :=
  (List.take_sublist _ _).count_le _

theorem accepted_le (s : Server) (r : Nat) : s.accepted r ≤ s.endpoint.links.length := by
  simpa [Server.accepted] using List.count_le_length (a := r) (l := s.endpoint.links.map Link.map)

theorem acceptedBefore_lt (h : s.endpoint.links[n]? = some l) (less : n < m) :
    s.acceptedBefore n l.map < s.acceptedBefore m l.map := by
  have item : (s.endpoint.links.map Link.map)[n]? = some l.map := by simp [h]
  have grow : List.Sublist ((s.endpoint.links.map Link.map).take (n + 1))
      ((s.endpoint.links.map Link.map).take m) :=
    (List.take_prefix_take_left (by omega)).sublist
  have one : s.acceptedBefore (n + 1) l.map = s.acceptedBefore n l.map + 1 := by
    simp [acceptedBefore, List.take_add_one, item]
  have := grow.count_le l.map
  simp only [acceptedBefore] at one ⊢
  omega

theorem Accepted.unique (acc : s.Accepted) (hn : s.endpoint.links[n]? = some l)
    (hm : s.endpoint.links[m]? = some k) (few : s.accepted l.map < 2 ^ 64)
    (map : k.map = l.map) (connId : k.connId = l.connId) : m = n := by
  rw [acc.connId n l hn, acc.connId m k hm, map] at connId
  have size : UInt64.size = 2 ^ 64 := rfl
  have hm' := acceptedBefore_le s m l.map
  have hn' := acceptedBefore_le s n l.map
  have same := congrArg UInt64.toNat connId
  rw [UInt64.toNat_ofNat_of_lt' (by omega), UInt64.toNat_ofNat_of_lt' (by omega)] at same
  rcases Nat.lt_trichotomy m n with less | eq | less
  · have := acceptedBefore_lt hm less
    rw [map] at this
    omega
  · exact eq
  · have := acceptedBefore_lt hn less
    omega

end Server

end Rfrp
