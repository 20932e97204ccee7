import Rfrp.Session.Wires
import Rfrp.Server.Progress
import Rfrp.Client.Progress

/-!
# Heartbeats

Pings that are sent, pings that are received, pongs that are sent and pongs that are received: each
count is at most the one before it, so when all pings are answered nothing of the heartbeat is under
way.
-/

namespace Rfrp

open Transition

def pings (log : List RfrpFrame) : Nat := log.countP RfrpFrame.isPing

def pongs (log : List RfrpFrame) : Nat := log.countP RfrpFrame.isPong

section counts
variable (log log' : List RfrpFrame) (f : RfrpFrame)

@[simp] theorem pings_append : pings (log ++ log') = pings log + pings log' := List.countP_append ..

@[simp] theorem pongs_append : pongs (log ++ log') = pongs log + pongs log' := List.countP_append ..

theorem RfrpFrame.isPing_skipAddr : f.skipAddr.isPing = f.isPing := by
  cases f <;> rfl

theorem RfrpFrame.isPong_skipAddr : f.skipAddr.isPong = f.isPong := by
  cases f <;> rfl

@[simp] theorem pings_map_skipAddr : pings (log.map RfrpFrame.skipAddr) = pings log := by
  simp only [pings, List.countP_map, Function.comp_def, RfrpFrame.isPing_skipAddr]

@[simp] theorem pongs_map_skipAddr : pongs (log.map RfrpFrame.skipAddr) = pongs log := by
  simp only [pongs, List.countP_map, Function.comp_def, RfrpFrame.isPong_skipAddr]

end counts

namespace Server

variable {s s' : Server} {a : ServerAct}

/-- A pong that is queued, or about to be, answers a ping of its own. -/
def Echoes (s : Server) : Prop :=
  pongs s.endpoint.tunnel.chan.log + (if s.main = .ponging then 1 else 0) ≤ pings s.received

theorem Queues.pongs {fs : List RfrpFrame} (queues : Queues s a fs) :
    pongs fs = 0 ∨ (a = .reply ∧ s.main = .ponging ∧ Rfrp.pongs fs = 1) := by
  cases queues with
  | nothing => exact Or.inl rfl
  | data => exact Or.inl rfl
  | reply frame =>
      rcases replyFrame_eq_some frame with ⟨client, -, rfl⟩ | ⟨main, rfl⟩
      · exact Or.inl rfl
      · exact Or.inr ⟨rfl, main, by decide⟩
  | answer _ move =>
      rcases RegTask.answer_eq_some move with ⟨-, rfl, -⟩ | ⟨-, rfl, -⟩ <;> exact Or.inl rfl

theorem ponging_of_step (h : Moves s a s') (main : s'.main = .ponging) :
    (s.main = .ponging ∧ a ≠ .reply) ∨ (s.main ≠ .ponging ∧ ∃ f, a = .recv f ∧ f.isPing = true) := by
  cases h with
  | recvPing reads ping =>
      exact Or.inr ⟨by simp [reads], _, rfl, by simpa [RfrpFrame.isPing] using ping⟩
  | recvRegister reads | recvOther reads | recvUnrouted reads =>
      exact absurd (reads.symm.trans main) (by simp)
  | connect | bind | answer | answerErr | accept | acquire | cancelWaiting | cancel | endpoint =>
      exact Or.inl ⟨main, by simp⟩
  | _ => cases main

theorem ponging_of_ping {f : RfrpFrame} (h : Moves s (.recv f) s') (ping : f.isPing = true) :
    s'.main = .ponging := by
  cases h with
  | recvPing => rfl
  | recvOther _ _ _ other => exact absurd ping (by simp [other])
  | _ => cases ping

/-- A pong is sent before anything else is read. -/
theorem main_of_ponging (h : Moves s a s') (before : s.main = .ponging) :
    s'.main = .ponging ∨ s'.main = .reading ∨ s'.running = false := by
  cases h with
  | reply | replyErr | route | routeErr => exact Or.inr (Or.inl rfl)
  | pongErr | exit => exact Or.inr (Or.inr rfl)
  | connect | bind | answer | answerErr | accept | acquire | cancelWaiting | cancel | endpoint =>
      exact Or.inl before
  | recvLimit main | recvRegister main | recvPing main | recvOther main | recvRouted main
  | recvUnrouted main => exact absurd (main.symm.trans before) (by simp)

theorem Echoes.step (echoes : s.Echoes) (h : Moves s a s') : s'.Echoes := by
  obtain ⟨fs, queues, log⟩ := queues_of_step h
  have fewer : pings s.received ≤ pings s'.received := by
    rcases step_received h with same | ⟨f, -, eq⟩
    · rw [same]
    · rw [eq, pings_append]
      exact Nat.le_add_right _ _
  unfold Echoes at echoes ⊢
  rw [log, pongs_append]
  rcases queues.pongs with none | ⟨rfl, before, one⟩
  · by_cases main : s'.main = .ponging
    · rcases ponging_of_step h main with ⟨before, -⟩ | ⟨before, f, rfl, ping⟩
      · rw [if_pos before] at echoes
        rw [if_pos main]
        omega
      · rw [if_neg before] at echoes
        rw [if_pos main, (step_recv h).1, pings_append]
        have one : pings [f] = 1 := by simp [pings, ping]
        omega
    · rw [if_neg main]
      omega
  · rw [if_pos before] at echoes
    have reads : s'.main ≠ .ponging := by
      intro main
      rcases ponging_of_step h main with ⟨-, other⟩ | ⟨other, -⟩
      · exact other rfl
      · exact other before
    rw [if_neg reads]
    omega

theorem Reachable.echoes (reach : s.Reachable) : s.Echoes :=
  reach.induct (P := Echoes)
    (fun _ => by simp [Echoes, start, Endpoint.spawn, FrameWriter.spawn, Rfrp.pongs, pings])
    fun _ _ _ _ ih move => ih.step move

end Server

namespace Client

open Endpoint

variable {c c' : Client} {a : ClientAct} {config : List ClientInfo}

/-- What becomes of the heartbeat task between two ticks, and the pings it queues. -/
inductive Beats (c : Client) : PingTask → Nat → Prop
  | idle : Beats c c.ping 0
  | spawned {i : Nat} (main : c.main = .awaiting i) : Beats c .waiting 0
  | sent (ping : c.ping = .sending) : Beats c .waiting 1
  | stopped : Beats c .done 0

theorem beats_of_step (h : Moves c a c') (other : a ≠ .tick) : ∃ k, c.Beats c'.ping k ∧
    pings c'.endpoint.tunnel.chan.log = pings c.endpoint.tunnel.chan.log + k := by
  cases h with
  | recvLastAck main => exact ⟨0, .spawned main, rfl⟩
  | recvFast _ _ finds | recvNew _ _ finds => cases finds <;> exact ⟨0, .idle, rfl⟩
  | register _ _ sent =>
      obtain ⟨-, rfl⟩ := enqueue_eq_some sent
      exact ⟨0, .idle, by simp [pings, RfrpFrame.isPing]⟩
  | forward _ sent =>
      obtain ⟨l, -, -, rfl⟩ := deliver_eq_some sent
      exact ⟨0, .idle, rfl⟩
  | tick => exact absurd rfl other
  | ping ping sent =>
      obtain ⟨-, rfl⟩ := enqueue_eq_some sent
      exact ⟨1, .sent ping, by simp [pings, RfrpFrame.isPing, RfrpFrame.newPingFrame]⟩
  | pingErr | pingCancel => exact ⟨0, .stopped, rfl⟩
  | endpoint move =>
      refine ⟨0, .idle, ?_⟩
      rcases step_tunnel_log move with same | ⟨n, l, data, -, -, -, -, eq⟩
      · rw [same, Nat.add_zero]
      · simp [eq, pings, RfrpFrame.isPing, RfrpFrame.newDataFrame]
  | _ => exact ⟨0, .idle, rfl⟩

theorem Beats.waiting {ping : PingTask} {k : Nat} (beats : c.Beats ping k)
    (waiting : ping = .waiting) : (c.ping = .waiting ∧ k = 0) ∨
      ((∃ i, c.main = .awaiting i) ∧ k = 0) ∨ (c.ping = .sending ∧ k = 1) := by
  cases beats with
  | idle => exact Or.inl ⟨waiting, rfl⟩
  | spawned main => exact Or.inr (Or.inl ⟨⟨_, main⟩, rfl⟩)
  | sent ping => exact Or.inr (Or.inr ⟨ping, rfl⟩)
  | stopped => cases waiting

/-- A pong leaves the main loop where it is, or ends the registration phase. -/
theorem main_of_pong {f : RfrpFrame} (h : Moves c (.recv f) c') (pong : f.isPong = true) :
    c.registering = true ∨ (c.main = .reading ∧ c'.main = .reading) := by
  cases h with
  | recvAck main | recvLastAck main | recvStray main | recvReject main | recvUnexpected main =>
      exact Or.inl (by simp [registering, main])
  | recvOther main => exact Or.inr ⟨main, main⟩
  | _ => cases pong

/-- No ping is sent before the forwarding loop. -/
theorem Reachable.pings_eq_zero (reach : c.Reachable config) (phase : c.registering = true) :
    pings c.endpoint.tunnel.chan.log = 0 :=
  List.countP_eq_zero.mpr fun f mem => by simp [(reach.unpinged phase).frames f mem]

end Client

namespace Session

variable {s s' : Session} {a : SessionAct} {config : ConfigInfo}

theorem beats_of_step (h : Moves s a s') (other : a ≠ .client .tick) :
    ∃ k, s.client.Beats s'.client.ping k ∧
      pings s'.client.endpoint.tunnel.chan.log = pings s.client.endpoint.tunnel.chan.log + k := by
  cases h with
  | server => exact ⟨0, .idle, rfl⟩
  | client _ move =>
      exact Client.beats_of_step (Client.moves_of_step move) fun tick => other (tick ▸ rfl)
  | toServer _ read => exact Client.beats_of_step (Client.moves_of_step read) (by simp)
  | toClient _ _ recv => exact Client.beats_of_step (Client.moves_of_step recv) (by simp)

theorem heard_of_step (h : Moves s a s') : s'.server.received = s.server.received ∨
    (a = .toServer ∧ ∃ f, s.server.step (.recv f) = some s'.server) := by
  cases h with
  | server here move => exact Or.inl (Server.step_local (Server.moves_of_step move) here).1
  | client => exact Or.inl rfl
  | toServer _ _ recv => exact Or.inr ⟨rfl, _, recv⟩
  | toClient _ read =>
      obtain ⟨endpoint, -, same⟩ := Option.map_eq_some_iff.mp read
      exact Or.inl (congrArg Server.received same).symm

theorem answered_of_step (h : Moves s a s') : s'.client.received = s.client.received ∨
    (a = .toClient ∧ ∃ f, s.client.step (.recv f) = some s'.client) := by
  cases h with
  | server => exact Or.inl rfl
  | client here move => exact Or.inl (Client.step_local (Client.moves_of_step move) here).1
  | toServer _ read =>
      obtain ⟨endpoint, -, same⟩ := Option.map_eq_some_iff.mp read
      exact Or.inl (congrArg Client.received same).symm
  | toClient _ _ recv => exact Or.inr ⟨rfl, _, recv⟩

section logs
variable (reach : s.Reachable config)
include reach

theorem Reachable.pings_toServer :
    pings s.server.received ≤ pings s.client.endpoint.tunnel.chan.log := by
  rw [← pings_map_skipAddr s.client.endpoint.tunnel.chan.log]
  exact reach.toServer.sublist.countP_le

theorem Reachable.pongs_toClient :
    pongs s.client.received ≤ pongs s.server.endpoint.tunnel.chan.log := by
  rw [← pongs_map_skipAddr s.server.endpoint.tunnel.chan.log]
  exact reach.toClient.sublist.countP_le

/-- Pongs received, and one more while the server is at it, are at most the pings sent. -/
theorem Reachable.answered : pongs s.client.received + (if s.server.main = .ponging then 1 else 0) ≤
    pings s.server.received := by
  have echoes := reach.server.echoes
  have heard := reach.pongs_toClient
  unfold Server.Echoes at echoes
  omega

end logs

end Session

end Rfrp
