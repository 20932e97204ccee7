import Rfrp.Server.Steps

/-!
# Registration on the server

Proxy ids are the positions of the registration tasks: the counter, the routing map, the cache and
the tasks agree on them in every reachable state, whatever the client sends. From this follow the
laws of the answers: ids of acknowledged proxies are distinct, an acknowledged proxy has its
listener, and its acknowledgement precedes its data.
-/

namespace Rfrp.Server

open Transition

variable {s s' : Server} {a : ServerAct}

def Reachable (s : Server) : Prop := ∃ sndBuf, Reach step (start sndBuf) s

theorem Reachable.induct {P : Server → Prop} (reach : s.Reachable) (fresh : ∀ sndBuf, P (start sndBuf))
    (preserve : ∀ s a s', s.Reachable → P s → Moves s a s' → P s') : P s := by
  obtain ⟨sndBuf, run⟩ := reach
  exact Run.induct run (fresh sndBuf) fun _ _ _ before ih _ move =>
    preserve _ _ _ ⟨sndBuf, before⟩ ih (moves_of_step move)

theorem running_of_step (h : Moves s a s') (after : s'.running = true) : s.running = true := by
  cases h with
  | reply frame =>
      rcases replyFrame_eq_some frame with ⟨client, main, -⟩ | ⟨main, -⟩ <;> simp [running, main]
  | _ => simp_all [running, teardown, setTask, acceptConn]

theorem step_tasks (h : Moves s a s') :
    s'.tasks.map RegTask.ident = s.tasks.map RegTask.ident ∨
      ∃ client, a = .recv (.register client) ∧
        s'.tasks = s.tasks ++ [.spawn client s.nextProxyId s.endpoint.maps.length] := by
  cases h with
  | recvRegister => exact Or.inr ⟨_, rfl, rfl⟩
  | exit => exact Or.inl (by simp [teardown, RegTask.ident, Function.comp_def])
  | pongErr => exact Or.inl (by simp [teardown, RegTask.ident, Function.comp_def])
  | connect here => exact Or.inl (Slots.map_set _ here rfl)
  | bind here move =>
      refine Or.inl (Slots.map_set _ here ?_)
      rw [(RegTask.bind_eq_some move).2.2]
      rfl
  | answer here move =>
      refine Or.inl (Slots.map_set _ here ?_)
      rcases RegTask.answer_eq_some move with ⟨-, -, rfl⟩ | ⟨-, -, rfl⟩ <;> rfl
  | answerErr here move =>
      refine Or.inl (Slots.map_set _ here ?_)
      rcases RegTask.answer_eq_some move with ⟨-, -, rfl⟩ | ⟨-, -, rfl⟩ <;> rfl
  | accept here => exact Or.inl (Slots.map_set _ here rfl)
  | acquire here => exact Or.inl (Slots.map_set _ here rfl)
  | cancelWaiting here => exact Or.inl (Slots.map_set _ here rfl)
  | cancel here => exact Or.inl (Slots.map_set _ here rfl)
  | _ => exact Or.inl rfl

structure Booked (s : Server) : Prop where
  count : s.tasks.length ≤ maxProxiesPerClient
  maps : s.endpoint.maps.length = s.tasks.length
  nextId : s.nextProxyId = UInt32.ofNat s.tasks.length
  task : ∀ (r : Nat) (t : RegTask), s.tasks[r]? = some t →
    t.proxyId = UInt32.ofNat r ∧ t.routing = r
  routing : ∀ p m, s.proxyRouting p = some m → m < s.tasks.length ∧ p = UInt32.ofNat m
  routed : s.running = true → ∀ r < s.tasks.length, s.proxyRouting (UInt32.ofNat r) = some r
  cache : ∀ p m, s.cachedRouting = some (p, m) → s.proxyRouting p = some m

theorem booked_start (sndBuf : Nat) : (start sndBuf).Booked where
  count := Nat.zero_le _
  maps := rfl
  nextId := rfl
  task := fun _ _ h => by simp [start] at h
  routing := fun _ _ h => by simp [start] at h
  routed := fun _ _ h => by simp [start] at h
  cache := fun _ _ h => by simp [start] at h

theorem ofNat_inj {n m : Nat} (hn : n ≤ maxProxiesPerClient) (hm : m ≤ maxProxiesPerClient)
    (h : UInt32.ofNat n = UInt32.ofNat m) : n = m := by
  have bound : maxProxiesPerClient < UInt32.size := by decide
  have := congrArg UInt32.toNat h
  rwa [UInt32.toNat_ofNat_of_lt' (by omega), UInt32.toNat_ofNat_of_lt' (by omega)] at this

theorem Booked.routingFor (booked : s.Booked) (p : UInt32) :
    (s.routingFor p).1 = s.proxyRouting p ∧
      ∀ q m, (s.routingFor p).2 = some (q, m) → s.proxyRouting q = some m := by
  have cache := booked.cache
  unfold Server.routingFor
  cases hc : s.cachedRouting with
  | none => cases hp : s.proxyRouting p <;> simp_all
  | some entry =>
      obtain ⟨id, t⟩ := entry
      have hit := cache id t hc
      by_cases same : id = p
      · subst same
        simp_all
      · cases hp : s.proxyRouting p <;> simp_all

theorem Booked.keep (booked : s.Booked)
    (tasks : s'.tasks.map RegTask.ident = s.tasks.map RegTask.ident)
    (maps : s'.endpoint.maps.length = s.endpoint.maps.length)
    (nextId : s'.nextProxyId = s.nextProxyId)
    (routing : ∀ p m, s'.proxyRouting p = some m → s.proxyRouting p = some m)
    (routed : s'.running = true → s.running = true ∧ s'.proxyRouting = s.proxyRouting)
    (cache : ∀ p m, s'.cachedRouting = some (p, m) → s'.proxyRouting p = some m) : s'.Booked := by
  have length : s'.tasks.length = s.tasks.length := by
    simpa using congrArg List.length tasks
  refine ⟨length ▸ booked.count, ?_, ?_, ?_, ?_, ?_, cache⟩
  · rw [maps, booked.maps, length]
  · rw [nextId, booked.nextId, length]
  · intro r t h
    obtain ⟨t₀, here, eq⟩ := Slots.get_of_map RegTask.ident tasks h
    simp only [RegTask.ident, Prod.mk.injEq] at eq
    rw [← eq.2.1, ← eq.2.2]
    exact booked.task r t₀ here
  · intro p m h
    rw [length]
    exact booked.routing p m (routing p m h)
  · intro after r bound
    obtain ⟨before, same⟩ := routed after
    rw [same]
    exact booked.routed before r (length ▸ bound)

theorem Booked.register (booked : s.Booked) (running : s.running = true)
    (free : s.tasks.length < maxProxiesPerClient) {client : ClientInfo} {log : List RfrpFrame} :
    Booked { s with
      received := log
      nextProxyId := s.nextProxyId + 1
      proxyRouting := s.proxyRouting.insert s.nextProxyId s.endpoint.maps.length
      tasks := s.tasks ++ [.spawn client s.nextProxyId s.endpoint.maps.length]
      endpoint := { s.endpoint with maps := s.endpoint.maps ++ [.empty] } } := by
  have fresh : ∀ r, r < s.tasks.length → UInt32.ofNat r ≠ s.nextProxyId := by
    intro r bound same
    rw [booked.nextId] at same
    have := ofNat_inj (by omega) (by omega) same
    omega
  constructor <;> dsimp only
  case count => simpa using Nat.succ_le_of_lt free
  case maps => simp [booked.maps]
  case nextId =>
    have one : (1 : UInt32) = UInt32.ofNat 1 := rfl
    rw [List.length_append, List.length_singleton, booked.nextId, one, UInt32.ofNat_add]
  case task =>
    intro r t h
    rcases Slots.get_append h with h | ⟨rfl, rfl⟩
    · exact booked.task r t h
    · exact ⟨booked.nextId, booked.maps⟩
  case routing =>
    intro p m h
    rcases DashMap.insert_eq_some h with ⟨rfl, rfl⟩ | ⟨-, h⟩
    · simp [booked.maps, booked.nextId]
    · obtain ⟨bound, id⟩ := booked.routing p m h
      exact ⟨by simp; omega, id⟩
  case routed =>
    intro _ r bound
    simp only [List.length_append, List.length_singleton] at bound
    by_cases last : r = s.tasks.length
    · subst last
      rw [← booked.nextId, DashMap.insert_self, booked.maps]
    · have old : r < s.tasks.length := by omega
      rw [DashMap.insert_ne (fresh r old)]
      exact booked.routed running r old
  case cache =>
    intro p m h
    have entry := booked.cache p m h
    obtain ⟨bound, rfl⟩ := booked.routing p m entry
    rw [DashMap.insert_ne (fresh m bound)]
    exact entry

theorem Booked.step (booked : s.Booked) (h : Moves s a s') : s'.Booked := by
  have ended : ∀ r, (s.teardown r).Booked := fun r =>
    booked.keep (by simp [teardown, RegTask.ident, Function.comp_def]) rfl rfl (by simp [teardown])
      (by simp [teardown, running]) (by simp [teardown])
  have before := running_of_step h
  have tasks := step_tasks h
  cases h with
  | recvRegister main free => exact booked.register (by simp [running, main]) free
  | recvRouted | recvUnrouted =>
      exact booked.keep rfl rfl rfl (fun _ _ h => h) (fun after => ⟨before after, rfl⟩)
        (booked.routingFor _).2
  | exit => exact ended _
  | pongErr => exact ended _
  | reply _ sent =>
      obtain ⟨-, rfl⟩ := Endpoint.enqueue_eq_some sent
      exact booked.keep rfl rfl rfl (fun _ _ h => h) (fun after => ⟨before after, rfl⟩) booked.cache
  | route _ sent =>
      obtain ⟨l, -, -, rfl⟩ := Endpoint.deliver_eq_some sent
      exact booked.keep rfl rfl rfl (fun _ _ h => h) (fun after => ⟨before after, rfl⟩) booked.cache
  | answer _ _ sent =>
      obtain ⟨-, rfl⟩ := Endpoint.enqueue_eq_some sent
      exact booked.keep (tasks.resolve_right (by simp)) rfl rfl (fun _ _ h => h)
        (fun after => ⟨before after, rfl⟩) booked.cache
  | accept =>
      exact booked.keep (tasks.resolve_right (by simp)) (by simp [acceptConn, Endpoint.addLink]) rfl
        (fun _ _ h => h) (fun after => ⟨before after, rfl⟩) booked.cache
  | endpoint move =>
      exact booked.keep rfl (Endpoint.step_maps_length move) rfl (fun _ _ h => h)
        (fun after => ⟨before after, rfl⟩) booked.cache
  | recvOther =>
      exact booked.keep rfl rfl rfl (fun _ _ h => h) (fun after => ⟨before after, rfl⟩) booked.cache
  | _ =>
      exact booked.keep (tasks.resolve_right (by simp)) rfl rfl (fun _ _ h => h)
        (fun after => ⟨before after, rfl⟩) booked.cache

theorem Reachable.booked (reach : s.Reachable) : s.Booked :=
  reach.induct booked_start fun _ _ _ _ ih move => ih.step move

theorem Reachable.not_aborted (reach : s.Reachable) :
    s.running = true → ∀ t ∈ s.tasks, t.aborted = false := by
  refine reach.induct (P := fun s => s.running = true → ∀ t ∈ s.tasks, t.aborted = false)
    (fun _ _ => by simp [start]) fun s a s' _ ih move after => ?_
  have before := ih (running_of_step move after)
  have set : ∀ {r : Nat} {t t' : RegTask}, s.tasks[r]? = some t → t'.aborted = t.aborted →
      ∀ u ∈ s.tasks.set r t', u.aborted = false := by
    intro r t t' here same u mem
    rcases List.mem_or_eq_of_mem_set mem with old | rfl
    · exact before u old
    · exact same.trans (before t (List.mem_of_getElem? here))
  cases move with
  | recvRegister =>
      intro t mem
      rcases List.mem_append.mp mem with old | new
      · exact before t old
      · obtain rfl := List.mem_singleton.mp new
        rfl
  | exit | pongErr => simp [running, teardown] at after
  | connect here => exact set here rfl
  | bind here move => exact set here (by rw [(RegTask.bind_eq_some move).2.2])
  | answer here move | answerErr here move =>
      refine set here ?_
      rcases RegTask.answer_eq_some move with ⟨-, -, rfl⟩ | ⟨-, -, rfl⟩ <;> rfl
  | accept here | acquire here | cancelWaiting here | cancel here => exact set here rfl
  | _ => exact before

end Rfrp.Server
