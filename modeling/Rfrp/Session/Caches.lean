import Rfrp.Server.Delivery
import Rfrp.Client.Connections

/-!
# The lookup caches

Each main loop remembers the table of the proxy it has seen last. A table is never replaced or
removed while the loop runs, so a loop without the cache, which looks every proxy up in the outer
map, does the same in every run.
-/

namespace Rfrp

open Transition

namespace Server

variable {s : Server} {a : ServerAct}

def forget (s : Server) : Server := { s with cachedRouting := none }

/-- What the main loop does with a frame when it looks every proxy up in `proxy_routing`. -/
def handleUncached (s : Server) : RfrpFrame → Server
  | .data d =>
      match (s.proxyRouting d.proxyId).bind fun t => s.endpoint.lookup t d.connId with
      | some n => { s with main := .routing n d.data }
      | none => s
  | f => s.handleFrame f

def stepUncached (s : Server) : ServerAct → Option Server
  | .recv f =>
      match s.main with
      | .reading => some { s.handleUncached f with received := s.received ++ [f] }
      | _ => none
  | a => s.step a

theorem handle_forget (booked : s.Booked) (f : RfrpFrame) :
    (s.handleFrame f).forget = s.forget.handleUncached f := by
  cases f with
  | data d =>
      have table := (booked.routingFor d.proxyId).1
      simp only [handleFrame, handleUncached, forget, ← table]
      cases (s.routingFor d.proxyId).1.bind fun t => s.endpoint.lookup t d.connId <;> rfl
  | register client =>
      by_cases full : maxProxiesPerClient ≤ s.tasks.length <;>
        simp [handleFrame, handleUncached, forget, full]
  | control info =>
      by_cases ping : info.command = "ping" <;>
        simp [handleFrame, handleUncached, forget, ping]
  | registerAck response => rfl

theorem step_forget (booked : s.Booked) (a : ServerAct) :
    (s.step a).map forget = s.forget.stepUncached a := by
  cases a with
  | recv f =>
      have main : s.forget.main = s.main := rfl
      have handled := handle_forget booked f
      simp only [step, stepUncached, main, ← handled]
      cases s.main <;> rfl
  | exit r =>
      cases main : s.main <;> simp [step, stepUncached, forget, teardown, main]
      split <;> rfl
  | reply =>
      cases main : s.main <;>
        simp [step, stepUncached, forget, replyFrame, main, Function.comp_def]
  | replyErr =>
      cases closed : s.endpoint.tunnel.closed <;> cases main : s.main <;>
        simp [step, stepUncached, forget, teardown, main, closed]
  | route => cases main : s.main <;> simp [step, stepUncached, forget, main, Function.comp_def]
  | routeErr => cases main : s.main <;> simp [step, stepUncached, forget, main]
  | endpoint a => simp [step, stepUncached, forget, owners, running, Function.comp_def]
  | connect r =>
      simp [step, stepUncached, forget, setTask, Option.map_bind, Function.comp_def]
  | bind r ok =>
      simp [step, stepUncached, forget, setTask, Option.map_bind, Function.comp_def]
  | answer r =>
      simp [step, stepUncached, forget, setTask, Option.map_bind, Function.comp_def]
  | answerErr r =>
      simp only [step, stepUncached, forget, setTask, Option.map_bind, Function.comp_def]
      congr 1
      funext t
      congr 1
      funext answered
      exact apply_ite (Option.map forget) _ _ _
  | accept r sndBuf =>
      simp only [step, stepUncached, forget, acceptConn, Option.map_bind, Function.comp_def]
      congr 1
      funext t
      exact apply_ite (Option.map forget) _ _ _
  | acquire r =>
      simp only [step, stepUncached, forget, setTask, permitsTaken, Option.map_bind,
        Function.comp_def]
      congr 1
      funext t
      split
      · rw [Option.map_bind]
        congr 1
        funext l
        exact apply_ite (Option.map forget) _ _ _
      · rfl
  | cancel r =>
      simp only [step, stepUncached, forget, setTask, Option.map_bind, Function.comp_def]
      congr 1
      funext t
      split
      · split
        · rfl
        · rw [Option.map_bind]
          rfl
        · rfl
      · rfl

end Server

namespace Client

variable {c : Client} {a : ClientAct} {config : List ClientInfo}

def forget (c : Client) : Client := { c with cachedConns := none }

/-- The connection map of a proxy when it is looked up in `proxy_conns`. -/
def connsUncached (c : Client) (p : UInt32) : Nat × Client :=
  match c.proxyConns p with
  | some m => (m, c)
  | none =>
      let m := c.endpoint.maps.length
      (m, { c with
        proxyConns := c.proxyConns.insert p m
        endpoint := { c.endpoint with maps := c.endpoint.maps ++ [.empty] } })

/-- What the forwarding loop does with a frame when it looks every proxy up in `proxy_conns`. -/
def handleUncached (c : Client) : RfrpFrame → Client
  | .data d =>
      match c.proxyConfigs d.proxyId with
      | none => c
      | some client =>
          let (m, c) := c.connsUncached d.proxyId
          match c.endpoint.lookup m d.connId with
          | some n => { c with main := .forwarding n d m }
          | none => { c with main := .connecting client d m }
  | f => c.handleFrame f

def stepUncached (c : Client) : ClientAct → Option Client
  | .recv f =>
      match c.main with
      | .awaiting i => some { c.handleAnswer i f with received := c.received ++ [f] }
      | .reading => some { c.handleUncached f with received := c.received ++ [f] }
      | _ => none
  | a => c.step a

theorem connsFor_forget (kept : c.Kept) (p : UInt32) :
    ((c.connsFor p).1, (c.connsFor p).2.forget) = c.forget.connsUncached p := by
  unfold connsFor connsUncached forget
  cases cached : c.cachedConns with
  | none => cases c.proxyConns p <;> rfl
  | some pair =>
      obtain ⟨id, m⟩ := pair
      by_cases same : id = p
      · subst same
        simp [kept.cache id m cached]
      · cases c.proxyConns p <;> simp [same]

theorem handle_forget (kept : c.Kept) (f : RfrpFrame) :
    (c.handleFrame f).forget = c.forget.handleUncached f := by
  cases f with
  | data d =>
      have configs : c.forget.proxyConfigs = c.proxyConfigs := rfl
      simp only [handleFrame, handleUncached, configs, ← connsFor_forget kept]
      cases c.proxyConfigs d.proxyId with
      | none => rfl
      | some client =>
          have endpoint : (c.connsFor d.proxyId).2.forget.endpoint =
              (c.connsFor d.proxyId).2.endpoint := rfl
          dsimp only
          rw [endpoint]
          cases (c.connsFor d.proxyId).2.endpoint.lookup (c.connsFor d.proxyId).1 d.connId <;> rfl
  | register | registerAck | control => rfl

theorem answer_forget (i : Nat) (f : RfrpFrame) :
    (c.handleAnswer i f).forget = c.forget.handleAnswer i f := by
  cases f with
  | registerAck response =>
      have config : c.forget.config = c.config := rfl
      by_cases success : response.success = true
      · cases entry : c.config[i]? with
        | none => simp [handleAnswer, success, config, entry]
        | some client =>
            by_cases last : i + 1 < c.config.length <;>
              simp [handleAnswer, success, entry, registerFrom, last, forget]
      · simp [handleAnswer, success, giveUp, forget]
  | register | data | control => rfl

theorem step_forget (kept : c.Kept) (a : ClientAct) :
    (c.step a).map forget = c.forget.stepUncached a := by
  cases a with
  | recv f =>
      have main : c.forget.main = c.main := rfl
      have handled := handle_forget kept f
      simp only [step, stepUncached, main, ← handled, ← answer_forget]
      cases c.main <;> rfl
  | exit r =>
      cases main : c.main <;> simp [step, stepUncached, forget, teardown, giveUp, main]
  | register =>
      cases main : c.main <;>
        simp [step, stepUncached, forget, main, Option.map_bind, Function.comp_def]
  | registerErr =>
      cases closed : c.endpoint.tunnel.closed <;> cases main : c.main <;>
        simp [step, stepUncached, forget, giveUp, main, closed]
  | connected sndBuf =>
      cases main : c.main <;> simp [step, stepUncached, forget, insertConn, main]
      split <;> rfl
  | refused => cases main : c.main <;> simp [step, stepUncached, forget, main]
  | forward => cases main : c.main <;> simp [step, stepUncached, forget, main, Function.comp_def]
  | forwardErr =>
      cases main : c.main <;> simp [step, stepUncached, forget, removeConn, main]
  | ping =>
      by_cases sending : c.ping = .sending <;>
        simp [step, stepUncached, forget, sending, Function.comp_def]
  | tick | pingErr | pingCancel => exact apply_ite (Option.map forget) _ _ _
  | endpoint a =>
      simp [step, stepUncached, forget, owners, running, forwarding, Function.comp_def]

theorem start_forget (config : List ClientInfo) (sndBuf : Nat) :
    (start config sndBuf).forget = start config sndBuf := by
  unfold start registerFrom
  split <;> rfl

end Client

/-- The loops with their caches and without take the same steps to the same states, the caches
apart, and a cached table is the one in the outer map. -/
theorem caches_transparent (config : List ClientInfo) (sndBuf : Nat) :
    (∀ labels, (exec Server.step (.start sndBuf) labels).map Server.forget =
      exec Server.stepUncached (.start sndBuf) labels) ∧
    (∀ labels, (exec Client.step (.start config sndBuf) labels).map Client.forget =
      exec Client.stepUncached (.start config sndBuf) labels) ∧
    (∀ s, Reach Server.step (.start sndBuf) s → ∀ p m, s.cachedRouting = some (p, m) →
      s.proxyRouting p = some m) ∧
    (∀ c, Reach Client.step (.start config sndBuf) c → ∀ p m, c.cachedConns = some (p, m) →
      c.proxyConns p = some m) := by
  refine ⟨?server, ?client, ?_, ?_⟩
  case server =>
    apply exec_map (P := Server.Booked)
    · exact fun _ _ _ booked move => booked.step (Server.moves_of_step move)
    · exact fun _ a booked => Server.step_forget booked a
    · exact Server.booked_start sndBuf
  case client =>
    rw [← Client.start_forget config sndBuf]
    nth_rewrite 1 [Client.start_forget config sndBuf]
    apply exec_map (P := Client.Reachable config)
    · exact fun _ _ _ ⟨_, run⟩ move => ⟨_, run.tail trivial move⟩
    · exact fun _ a reach => Client.step_forget reach.kept.1 a
    · exact ⟨sndBuf, Run.refl _⟩
  · intro s run
    exact (Server.Reachable.booked ⟨sndBuf, run⟩).cache
  · intro c run
    exact (Client.Reachable.kept ⟨sndBuf, run⟩).1.cache

theorem caches_transparent_hit :
    (exec Server.stepUncached (.start 8)
      (Server.firstVisit.take 17 ++ [.recv (.data ⟨0, 0, [8]⟩)])).map (fun s => s.main) =
      some (.routing 0 [8]) := by
  rw [← (caches_transparent [] 8).1]
  rfl

end Rfrp
