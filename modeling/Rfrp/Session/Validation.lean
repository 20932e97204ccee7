import Rfrp.Session.Registering
import Rfrp.Server.Admission
import Rfrp.Proto.Handshake

/-!
# What validation promises for a session

Validation asks a client for one usable entry and a server for a complete record. The client
registers all of its entries, whatever validation found, and the server decides by rules of its own,
of which validation knows nothing.
-/

namespace Rfrp

open Transition

namespace Client

open Endpoint

variable {c c' : Client} {a : ClientAct} {config : List ClientInfo}

def Paced (c : Client) : Prop :=
  ∀ i, i + 1 < (registersOf c.endpoint.tunnel.chan.log).length →
    ∃ ack, (acksOf c.received)[i]? = some ack ∧ ack.success = true

theorem Reachable.paced (reach : c.Reachable config) : c.Paced := by
  refine reach.induct (P := Paced) (fun sndBuf i bound => ?_) fun c a c' before ih move i bound => ?_
  · rw [endpoint_start] at bound
    simp [Endpoint.spawn, FrameWriter.spawn] at bound
  · have more := acksOf_isPrefix (received_isPrefix move)
    rcases step_registers move with same | ⟨k, client, main, -, -, -, -, -, log⟩
    · rw [same] at bound
      obtain ⟨ack, here, success⟩ := ih i bound
      exact ⟨ack, Slots.get_isPrefix more here, success⟩
    · have stage := before.registered.stage
      simp only [Stage, main] at stage
      obtain ⟨inside, sent, -, acks, length, first, known⟩ := stage
      rw [log, sent, List.length_append, List.length_take, List.length_singleton] at bound
      have early : i < acks.length := by omega
      have prefixed := (acksOf_isPrefix first).trans more
      rw [acksOf_map_registerAck] at prefixed
      exact ⟨acks[i], Slots.get_isPrefix prefixed (List.getElem?_eq_getElem early),
        (known _ (List.getElem_mem early)).1⟩

def Rejection (c : Client) : Prop :=
  c.main = .ended .rejected → ∃ ack ∈ acksOf c.received, ack.success = false

theorem rejection_start (config : List ClientInfo) (sndBuf : Nat) :
    (start config sndBuf).Rejection := by
  intro main
  rcases main_start config sndBuf with ⟨-, other⟩ | ⟨-, other⟩ <;> rw [other] at main <;> cases main

theorem Rejection.step (rejection : c.Rejection) (fine : a.transportFails = false)
    (h : Moves c a c') : c'.Rejection := by
  have more := received_isPrefix h
  intro main
  by_cases before : c.main = .ended .rejected
  · obtain ⟨ack, mem, failed⟩ := rejection before
    exact ⟨ack, (acksOf_isPrefix more).subset mem, failed⟩
  · cases h with
    | @recvReject i resp _ rejected => exact ⟨resp, by simp, rejected⟩
    | giveUp | exit => cases fine
    | registerErr => cases main
    | recvStray | recvOther | recvUnknown | tick | ping | pingErr | pingCancel | endpoint =>
        exact absurd main before
    | _ => cases main

end Client

namespace Session

variable {s s' : Session} {a : SessionAct} {config : ConfigInfo}

/-- The transport does not fail, and the ports are free but for this session's own listeners. -/
def fair (s : Session) (a : SessionAct) : Bool :=
  !a.transportFails &&
    match a with
    | .server a => s.server.portsFree a
    | _ => true

theorem Moves.fair (h : Moves s a s') (fair : s.fair a = true) :
    (s'.server = s.server ∨ ∃ b, s.server.step b = some s'.server ∧ b.transportFails = false ∧
      s.server.portsFree b = true) ∧
    (s'.client = s.client ∨ ∃ b, s.client.step b = some s'.client ∧ b.transportFails = false) := by
  simp only [Session.fair, Bool.and_eq_true, Bool.not_eq_true'] at fair
  cases h with
  | server _ move => exact ⟨Or.inr ⟨_, move, fair⟩, Or.inl rfl⟩
  | client _ move => exact ⟨Or.inl rfl, Or.inr ⟨_, move, fair.1⟩⟩
  | toServer _ read recv => exact ⟨Or.inr ⟨_, recv, rfl, rfl⟩, Or.inr ⟨_, read, rfl⟩⟩
  | toClient _ read recv => exact ⟨Or.inr ⟨_, read, rfl, rfl⟩, Or.inr ⟨_, recv, rfl⟩⟩

section reachable
variable (reach : s.Reachable config)
include reach

theorem Reachable.waiting : s.server.Waiting := by
  refine ⟨reach.one_open, fun i bound => ?_⟩
  have sent := reach.registers_toServer.length_le
  rw [List.length_map] at sent
  obtain ⟨ack, received, success⟩ := reach.client.paced i (by omega)
  obtain ⟨b, queued, rfl⟩ := reach.ack received
  exact ⟨b, queued, success⟩

theorem Reachable.registers_config :
    registersOf s.server.received <+: config.clientProxy.map ClientInfo.skipAddr := by
  have configured := reach.registers_toServer.trans
    (reach.client.registered.sent.map ClientInfo.skipAddr)
  rwa [ConfigInfo.init, List.map_map] at configured

end reachable

theorem fair_judged {serverBuf clientBuf : Nat}
    (run : Run step (fun s a => s.fair a) (start config serverBuf clientBuf) s) :
    s.server.AnswersAll ∧ s.server.Judged ∧ s.client.Rejection := by
  refine run.induct (P := fun s => s.server.AnswersAll ∧ s.server.Judged ∧ s.client.Rejection)
    ⟨Server.answersAll_start _, Server.judged_start _, Client.rejection_start _ _⟩
    fun s a t before ih fair step => ?_
  have reach : s.Reachable config := ⟨serverBuf, clientBuf, before.reach⟩
  obtain ⟨all, judged, rejection⟩ := ih
  obtain ⟨server, client⟩ := (moves_of_step step).fair fair
  have served : t.server.AnswersAll ∧ t.server.Judged := by
    rcases server with same | ⟨b, move, fine, free⟩
    · rw [same]
      exact ⟨all, judged⟩
    · have move := Server.moves_of_step move
      exact ⟨all.step reach.server fine move,
        judged.step reach.server all reach.waiting fine free move⟩
  refine ⟨served.1, served.2, ?_⟩
  rcases client with same | ⟨b, move, fine⟩
  · rw [same]
    exact rejection
  · exact rejection.step fine (Client.moves_of_step move)

theorem Reachable.verdict (reach : s.Reachable config) (judged : s.server.Judged) {i : Nat}
    {ack : RegisterResponse}
    (queued : (acksOf s.server.endpoint.tunnel.chan.log)[i]? = some ack) :
    ∃ entry, config.clientProxy[i]? = some entry ∧ ack.client = entry.skipAddr ∧
      ack.success = admits (config.clientProxy.take i) entry := by
  have register : (registersOf s.server.received)[i]? = some ack.client :=
    Slots.get_isPrefix reach.ordered (by simp [queued])
  have configured := reach.registers_config
  have listed := Slots.get_isPrefix configured register
  rw [List.getElem?_map, Option.map_eq_some_iff] at listed
  obtain ⟨entry, here, same⟩ := listed
  refine ⟨entry, here, same.symm, ?_⟩
  rw [judged.acks i ack ack.client queued register, ← same]
  refine admits_congr ?_ rfl
  have bound := Slots.get_lt register
  have firsts : (registersOf s.server.received).take i =
      (config.clientProxy.map ClientInfo.skipAddr).take i := by
    rw [List.prefix_iff_eq_take.mp configured, List.take_take, Nat.min_eq_left (by omega)]
  rw [firsts, ← List.map_take, List.map_map]
  rfl

theorem validation (client server : ConfigInfo) (serverBuf clientBuf : Nat) (s : Session)
    (clientMode : client.runningMode = .client) (clientValid : client.validate = .ok ())
    (serverMode : server.runningMode = .server) (serverValid : server.validate = .ok ())
    (sameToken : client.server.authToken = server.server.authToken)
    (run : Run step (fun s a => s.fair a) (start client serverBuf clientBuf) s) :
    (client.server.authToken ≠ "" ∧
      ∀ sha256 clientNonce serverNonce clientPrefix serverPrefix, ∃ atClient atServer,
        clientHandshake sha256 client.server.authToken clientNonce clientPrefix (.done ())
          (.done serverNonce) = .ok atClient ∧
        serverHandshake sha256 server.server.authToken serverNonce serverPrefix
          (.done clientNonce) (.done ()) = .ok atServer ∧
        atClient.key = atServer.key) ∧
    (∃ entry ∈ client.clientProxy, entry.usable = true) ∧
    (∀ i ack, (acksOf s.server.endpoint.tunnel.chan.log)[i]? = some ack →
      ∃ entry, client.clientProxy[i]? = some entry ∧ ack.client = entry.skipAddr ∧
        ack.success = admits (client.clientProxy.take i) entry) ∧
    (s.client.main = .ended .rejected → ∃ (i : Nat) (entry : ClientInfo),
      client.clientProxy[i]? = some entry ∧ admits (client.clientProxy.take i) entry = false) ∧
    (client.clientProxy.length ≤ 16 → (∀ entry ∈ client.clientProxy, 1024 ≤ entry.bindPort) →
      (client.clientProxy.map ClientInfo.bindPort).Nodup →
      s.Accepts ∧ s.client.main ≠ .ended .rejected) ∧
    (∀ p entry, s.client.proxyConfigs p = some entry → entry ∈ client.init.clientProxy) ∧
    (s.client.forwarding = true → ∀ entry ∈ client.init.clientProxy,
      ∃ p, s.client.proxyConfigs p = some entry) := by
  have reach : s.Reachable client := ⟨serverBuf, clientBuf, run.reach⟩
  obtain ⟨-, judged, rejection⟩ := fair_judged run
  have complete : server.server.authToken ≠ "" := by
    rw [ConfigInfo.validate, serverMode] at serverValid
    exact (ConfigInfo.validateServer_eq_ok.mp serverValid).2.2.2
  have rejected : s.client.main = .ended .rejected → ∃ (i : Nat) (entry : ClientInfo),
      client.clientProxy[i]? = some entry ∧ admits (client.clientProxy.take i) entry = false := by
    intro main
    obtain ⟨ack, mem, failed⟩ := rejection main
    obtain ⟨i, received⟩ := List.mem_iff_getElem?.mp mem
    obtain ⟨b, queued, rfl⟩ := reach.ack received
    obtain ⟨entry, here, -, verdict⟩ := reach.verdict judged queued
    exact ⟨i, entry, here, verdict.symm.trans failed⟩
  refine ⟨⟨sameToken ▸ complete, ?_⟩, ?_, fun i ack => reach.verdict judged, rejected,
    fun few unprivileged distinct => ?_, fun p entry known => ?_,
    fun forwarding entry => reach.configured_all forwarding⟩
  · intro sha256 clientNonce serverNonce clientPrefix serverPrefix
    exact ⟨_, _, rfl, rfl, by rw [sameToken]; rfl⟩
  · rw [ConfigInfo.validate, clientMode] at clientValid
    exact ConfigInfo.validateClients_eq_ok.mp clientValid
  · have admitted : ∀ {i : Nat} {entry : ClientInfo}, client.clientProxy[i]? = some entry →
        admits (client.clientProxy.take i) entry = true := fun here =>
      admits_of_distinct few unprivileged distinct here
    constructor
    · intro ack mem
      obtain ⟨i, queued⟩ := List.mem_iff_getElem?.mp mem
      obtain ⟨entry, here, -, verdict⟩ := reach.verdict judged queued
      exact verdict.trans (admitted here)
    · intro main
      obtain ⟨i, entry, here, inadmissible⟩ := rejected main
      rw [admitted here] at inadmissible
      cases inadmissible
  · obtain ⟨i, -, here, -⟩ := reach.client.registered.configs p entry known
    exact List.mem_of_getElem? here

def publicServer : ConfigInfo where
  runningMode := .server
  server := ⟨"0.0.0.0", 11000, "token", ""⟩
  clientProxy := []

theorem publicServer_valid : publicServer.validate = .ok () := by
  show publicServer.validateServer = .ok ()
  exact ConfigInfo.validateServer_eq_ok.mpr (by decide)

def mixedConfig : ConfigInfo where
  runningMode := .client
  server := ⟨"127.0.0.1", 11000, "token", ""⟩
  clientProxy := [⟨"ssh", 22001, "127.0.0.1", 22, "tcp", ""⟩,
    ⟨"printer", 22002, "printer", 9100, "tcp", ""⟩, ⟨"web", 80, "127.0.0.1", 80, "tcp", ""⟩]

theorem mixedConfig_valid : mixedConfig.validate = .ok () := by
  show mixedConfig.validateClients = .ok ()
  exact ConfigInfo.validateClients_eq_ok.mpr (by decide)

theorem validation_mixed : ∃ s : Session,
    Run step (fun s a => s.fair a) (start mixedConfig 8 8) s ∧
    s.client.main = .ended .rejected ∧ ∃ (i : Nat) (entry : ClientInfo),
      mixedConfig.clientProxy[i]? = some entry ∧
        admits (mixedConfig.clientProxy.take i) entry = false := by
  have view : (exec (guarded step fun s a => s.fair a) (start mixedConfig 8 8)
      (registers 0 ++ registers 1 ++ registers 2)).map (fun s => s.client.main) =
      some (.ended .rejected) := by decide
  obtain ⟨s, run, view⟩ := Option.map_eq_some_iff.mp view
  have run := run_of_exec _ run
  have sound := validation mixedConfig publicServer 8 8 s rfl mixedConfig_valid rfl
    publicServer_valid rfl run
  exact ⟨s, run, view, sound.2.2.2.1 view⟩

theorem validated_rejected : ¬ ∀ (client server : ConfigInfo) (serverBuf clientBuf : Nat)
    (s : Session), client.runningMode = .client → client.validate = .ok () →
    server.runningMode = .server → server.validate = .ok () →
    client.server.authToken = server.server.authToken →
    Run step (fun s a => s.fair a) (start client serverBuf clientBuf) s →
    s.Accepts ∨ ∀ p entry, s.client.proxyConfigs p = some entry → entry.usable = true := by
  intro claim
  have view : (exec (guarded step fun s a => s.fair a) (start mixedConfig 8 8)
      (registers 0 ++ registers 1 ++ registers 2)).map (fun s =>
        ((acksOf s.server.endpoint.tunnel.chan.log).all RegisterResponse.success,
          (s.client.proxyConfigs 1).map ClientInfo.usable)) = some (false, some false) := by decide
  obtain ⟨s, run, view⟩ := Option.map_eq_some_iff.mp view
  obtain ⟨rejects, unusable⟩ := Prod.mk.inj view
  obtain ⟨entry, known, unusable⟩ := Option.map_eq_some_iff.mp unusable
  rcases claim mixedConfig publicServer 8 8 s rfl mixedConfig_valid rfl publicServer_valid rfl
    (run_of_exec _ run) with accepts | usable
  · rw [List.all_eq_true.mpr accepts] at rejects
    cases rejects
  · rw [usable 1 entry known] at unusable
    cases unusable

end Session

end Rfrp
