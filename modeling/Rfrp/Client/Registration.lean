import Rfrp.Client.Connections

/-!
# Registration on the client

The registration phase is a strict alternation: one Register, one answer. The client pairs an
answer with its request by position, so what it knows of a proxy is what the answer at the entry's
position said.
-/

namespace Rfrp

theorem acksOf_map_registerAck (acks : List RegisterResponse) :
    acksOf (acks.map .registerAck) = acks := by
  simp [acksOf, List.filterMap_map, Function.comp_def, RfrpFrame.ack?]

namespace Client

open Transition Endpoint

variable {c c' : Client} {a : ClientAct} {config : List ClientInfo} {k : Nat}

def Answered (c : Client) (k : Nat) : Prop :=
  ∃ acks : List RegisterResponse, acks.length = k ∧ acks.map .registerAck <+: c.received ∧
    ∀ a ∈ acks, a.success = true ∧ (c.proxyConfigs a.proxyId).isSome

def Stage (config : List ClientInfo) (c : Client) : Prop :=
  match c.main with
  | .registering i =>
      i < config.length ∧ registersOf c.endpoint.tunnel.chan.log = config.take i ∧
        c.received.length = i ∧ c.Answered i
  | .awaiting i =>
      i < config.length ∧ registersOf c.endpoint.tunnel.chan.log = config.take (i + 1) ∧
        c.received.length = i ∧ c.Answered i
  | .reading | .connecting _ _ _ | .forwarding _ _ _ =>
      registersOf c.endpoint.tunnel.chan.log = config ∧ c.Answered config.length
  | .ended _ => True

theorem stage_iff (forwarding : c.forwarding = true) : c.Stage config ↔
    registersOf c.endpoint.tunnel.chan.log = config ∧ c.Answered config.length := by
  unfold Client.forwarding at forwarding
  unfold Stage
  cases main : c.main <;> simp [main] at forwarding <;> exact Iff.rfl

structure Registered (config : List ClientInfo) (c : Client) : Prop where
  config_eq : c.config = config
  sent : registersOf c.endpoint.tunnel.chan.log <+: config
  configs : ∀ p client, c.proxyConfigs p = some client →
    ∃ (i : Nat) (a : RegisterResponse), config[i]? = some client ∧
      (acksOf c.received)[i]? = some a ∧ a.success = true ∧ a.proxyId = p
  stage : c.Stage config
  pace : (registersOf c.endpoint.tunnel.chan.log).length ≤ (acksOf c.received).length + 1

theorem Answered.keep (answered : c.Answered k) (received : c.received <+: c'.received)
    (configs : c'.proxyConfigs = c.proxyConfigs) : c'.Answered k := by
  obtain ⟨acks, length, first, known⟩ := answered
  exact ⟨acks, length, first.trans received, by rw [configs]; exact known⟩

theorem registered_start (config : List ClientInfo) (sndBuf : Nat) :
    (start config sndBuf).Registered config := by
  have fields : (start config sndBuf).config = config ∧ (start config sndBuf).received = [] ∧
      (start config sndBuf).proxyConfigs = .empty := by
    unfold start registerFrom
    split <;> exact ⟨rfl, rfl, rfl⟩
  obtain ⟨config_eq, received, configs⟩ := fields
  have log : registersOf (start config sndBuf).endpoint.tunnel.chan.log = [] := by
    rw [endpoint_start]
    rfl
  have answered : (start config sndBuf).Answered 0 := ⟨[], rfl, List.nil_prefix, by simp⟩
  refine ⟨config_eq, by simp [log], by simp [configs], ?_, by simp [log]⟩
  unfold Stage
  rcases main_start config sndBuf with ⟨some, main⟩ | ⟨rfl, main⟩
  · rw [main]
    exact ⟨some, by simp [log], by simp [received], answered⟩
  · rw [main]
    exact ⟨log, answered⟩

theorem step_registers (h : Moves c a c') :
    registersOf c'.endpoint.tunnel.chan.log = registersOf c.endpoint.tunnel.chan.log ∨
      ∃ i client, c.main = .registering i ∧ c.config[i]? = some client ∧ c'.main = .awaiting i ∧
        c'.received = c.received ∧ c'.proxyConfigs = c.proxyConfigs ∧ c'.config = c.config ∧
        registersOf c'.endpoint.tunnel.chan.log =
          registersOf c.endpoint.tunnel.chan.log ++ [client] := by
  cases h with
  | recvFast _ _ finds | recvNew _ _ finds => cases finds <;> exact Or.inl rfl
  | register main here sent =>
      obtain ⟨-, rfl⟩ := enqueue_eq_some sent
      exact Or.inr ⟨_, _, main, here, rfl, rfl, rfl, rfl, by simp⟩
  | ping _ sent =>
      obtain ⟨-, rfl⟩ := enqueue_eq_some sent
      exact Or.inl (by simp [RfrpFrame.newPingFrame])
  | forward _ sent =>
      obtain ⟨l, -, -, rfl⟩ := deliver_eq_some sent
      exact Or.inl rfl
  | endpoint move =>
      rcases step_tunnel_log move with same | ⟨n, l, data, -, -, -, -, eq⟩
      · exact Or.inl (by rw [same])
      · exact Or.inl (by simp [eq, RfrpFrame.newDataFrame])
  | _ => exact Or.inl rfl

theorem step_received (h : Moves c a c') :
    c'.received = c.received ∨ ∃ f, a = .recv f ∧ c'.received = c.received ++ [f] := by
  cases h with
  | recvAck | recvLastAck | recvStray | recvReject | recvUnexpected | recvOther | recvUnknown
  | recvFast | recvNew => exact Or.inr ⟨_, rfl, rfl⟩
  | _ => exact Or.inl rfl

theorem received_isPrefix (h : Moves c a c') : c.received <+: c'.received := by
  rcases step_received h with same | ⟨f, -, eq⟩
  · rw [same]
  · rw [eq]
    exact List.prefix_append _ _

theorem Answered.snoc (answered : c.Answered k) (length : c.received.length = k)
    {resp : RegisterResponse} {client : ClientInfo} (success : resp.success = true)
    (received : c'.received = c.received ++ [.registerAck resp])
    (configs : c'.proxyConfigs = c.proxyConfigs.insert resp.proxyId client) :
    c'.Answered (k + 1) ∧ (acksOf c'.received)[k]? = some resp := by
  obtain ⟨acks, count, first, known⟩ := answered
  have whole : c.received = acks.map .registerAck :=
    (first.eq_of_length (by simp [count, length])).symm
  have all : c'.received = (acks ++ [resp]).map .registerAck := by simp [received, whole]
  refine ⟨⟨acks ++ [resp], by simp [count], by rw [all], ?_⟩, ?_⟩
  · intro a mem
    rw [configs]
    rcases List.mem_append.mp mem with old | new
    · exact ⟨(known a old).1, DashMap.insert_isSome (known a old).2⟩
    · obtain rfl := List.mem_singleton.mp new
      exact ⟨success, by simp⟩
  · rw [all, acksOf_map_registerAck, ← count]
    simp

theorem Answered.acks_length (answered : c.Answered k) : k ≤ (acksOf c.received).length := by
  obtain ⟨acks, rfl, first, -⟩ := answered
  simpa only [acksOf_map_registerAck] using (acksOf_isPrefix first).length_le

theorem Stage.keep (stage : c.Stage config) (main : c'.main = c.main)
    (configs : c'.proxyConfigs = c.proxyConfigs)
    (log : registersOf c'.endpoint.tunnel.chan.log = registersOf c.endpoint.tunnel.chan.log)
    (received : c'.received = c.received) : c'.Stage config := by
  have keep : ∀ {k : Nat}, c.Answered k → c'.Answered k := fun answered =>
    answered.keep (by rw [received]) configs
  unfold Stage at stage ⊢
  rw [main, log, received]
  split at stage
  · exact ⟨stage.1, stage.2.1, stage.2.2.1, keep stage.2.2.2⟩
  · exact ⟨stage.1, stage.2.1, stage.2.2.1, keep stage.2.2.2⟩
  · exact ⟨stage.1, keep stage.2⟩
  · exact ⟨stage.1, keep stage.2⟩
  · exact ⟨stage.1, keep stage.2⟩
  · trivial

theorem Registered.snoc (reg : c.Registered config) (length : c.received.length = k)
    (answered : c.Answered k) {resp : RegisterResponse} {client : ClientInfo}
    (here : config[k]? = some client) (success : resp.success = true)
    (received : c'.received = c.received ++ [.registerAck resp])
    (insert : c'.proxyConfigs = c.proxyConfigs.insert resp.proxyId client) :
    ∀ p client, c'.proxyConfigs p = some client →
      ∃ (i : Nat) (a : RegisterResponse), config[i]? = some client ∧
        (acksOf c'.received)[i]? = some a ∧ a.success = true ∧ a.proxyId = p := by
  obtain ⟨-, ack⟩ := answered.snoc length success received insert
  intro p client' entry
  rw [insert] at entry
  rcases DashMap.insert_eq_some entry with ⟨rfl, rfl⟩ | ⟨-, old⟩
  · exact ⟨k, resp, here, ack, success, rfl⟩
  · obtain ⟨i, a, here, before, rest⟩ := reg.configs p client' old
    have more : c.received <+: c'.received := by
      rw [received]
      exact List.prefix_append _ _
    exact ⟨i, a, here, Slots.get_isPrefix (acksOf_isPrefix more) before, rest⟩

theorem Registered.step (reg : c.Registered config) (h : Moves c a c') :
    c'.Registered config := by
  obtain ⟨rfl, sent, configs, stage, pace⟩ := id reg
  have received := received_isPrefix h
  have more := (acksOf_isPrefix received).length_le
  have known : c'.proxyConfigs = c.proxyConfigs → ∀ p client, c'.proxyConfigs p = some client →
      ∃ (i : Nat) (a : RegisterResponse), c.config[i]? = some client ∧
        (acksOf c'.received)[i]? = some a ∧ a.success = true ∧ a.proxyId = p := by
    intro same p client entry
    rw [same] at entry
    obtain ⟨i, a, here, ack, rest⟩ := configs p client entry
    exact ⟨i, a, here, Slots.get_isPrefix (acksOf_isPrefix received) ack, rest⟩
  -- a step within the forwarding loop, or out of any phase
  have keep : c'.config = c.config → c'.proxyConfigs = c.proxyConfigs →
      registersOf c'.endpoint.tunnel.chan.log = registersOf c.endpoint.tunnel.chan.log →
      c'.Stage c.config → c'.Registered c.config :=
    fun same same' log stage => ⟨same, log ▸ sent, known same', stage, by rw [log]; omega⟩
  have forwarding : c'.config = c.config → c'.proxyConfigs = c.proxyConfigs →
      registersOf c'.endpoint.tunnel.chan.log = registersOf c.endpoint.tunnel.chan.log →
      c.forwarding = true → c'.forwarding = true → c'.Registered c.config := by
    intro same same' log before after
    obtain ⟨whole, answered⟩ := (stage_iff before).mp stage
    exact keep same same' log
      ((stage_iff after).mpr ⟨log.trans whole, answered.keep received same'⟩)
  have idle : c'.config = c.config → c'.proxyConfigs = c.proxyConfigs →
      registersOf c'.endpoint.tunnel.chan.log = registersOf c.endpoint.tunnel.chan.log →
      c'.main = c.main → c'.received = c.received → c'.Registered c.config := by
    intro same same' log main eq
    exact keep same same' log (stage.keep main same' log eq)
  cases h with
  | recvAck main here success next =>
      simp only [Stage, main] at stage
      obtain ⟨-, log, length, answered⟩ := stage
      exact ⟨rfl, sent, reg.snoc length answered here success rfl rfl,
        ⟨next, log, by simp [length], (answered.snoc length success rfl rfl).1⟩,
        by dsimp only at more ⊢; omega⟩
  | recvLastAck main here success last =>
      simp only [Stage, main] at stage
      obtain ⟨bound, log, length, answered⟩ := stage
      have all := Nat.le_antisymm last bound
      refine ⟨rfl, sent, reg.snoc length answered here success rfl rfl,
        ⟨by rw [log, ← all, List.take_length], ?_⟩, by dsimp only at more ⊢; omega⟩
      rw [all]
      exact (answered.snoc length success rfl rfl).1
  | recvStray main beyond =>
      simp only [Stage, main] at stage
      exact absurd (List.getElem?_eq_none_iff.mp beyond) (Nat.not_le.mpr stage.1)
  | recvOther main | recvUnknown main =>
      exact forwarding rfl rfl rfl (by simp [Client.forwarding, main])
        (by simp [Client.forwarding, main])
  | recvFast main _ finds | recvNew main _ finds =>
      have before : c.forwarding = true := by simp [Client.forwarding, main]
      cases finds <;> exact forwarding rfl rfl rfl before rfl
  | @register i client _ main here sent =>
      obtain ⟨-, rfl⟩ := enqueue_eq_some sent
      simp only [Stage, main] at stage
      obtain ⟨bound, log, length, answered⟩ := stage
      have grown : registersOf (c.endpoint.tunnel.chan.push (.register client)).log =
          c.config.take (i + 1) := by
        rw [Fifo.log_push, registersOf_append, log, registersOf_register, List.take_add_one, here]
        rfl
      have count := answered.acks_length
      refine ⟨rfl, grown ▸ List.take_prefix _ _, configs, ⟨bound, grown, length, answered⟩, ?_⟩
      rw [grown, List.length_take]
      exact Nat.le_trans (Nat.min_le_left _ _) (Nat.succ_le_succ count)
  | ping _ sent =>
      obtain ⟨-, rfl⟩ := enqueue_eq_some sent
      exact idle rfl rfl (by simp [RfrpFrame.newPingFrame]) rfl rfl
  | connectedTwice main | connected main | refused main | forwardErr main =>
      exact forwarding rfl rfl rfl (by simp [Client.forwarding, main]) rfl
  | forward main sent =>
      obtain ⟨l, -, -, rfl⟩ := deliver_eq_some sent
      exact forwarding rfl rfl rfl (by simp [Client.forwarding, main]) rfl
  | endpoint move =>
      refine idle rfl rfl ?_ rfl rfl
      rcases step_tunnel_log move with same | ⟨n, l, data, -, -, -, -, eq⟩
      · rw [same]
      · simp [eq, RfrpFrame.newDataFrame]
  | tick | pingErr | pingCancel => exact idle rfl rfl rfl rfl rfl
  | _ => exact keep rfl rfl rfl trivial

theorem Reachable.registered (reach : c.Reachable config) : c.Registered config :=
  reach.induct (fun sndBuf => registered_start config sndBuf) fun _ _ _ _ ih move => ih.step move

end Client

end Rfrp
