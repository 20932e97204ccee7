import Rfrp.Server.RunProxy
import Rfrp.Proto.EndpointLaws
import Rfrp.Lib.Transition

/-!
# The steps of the server, one constructor each

`Server.Moves` says what every step of the server can do, with its guard and the state after it.
All invariants of the server are proved from it.
-/

namespace Rfrp

namespace RegTask

variable {t t' : RegTask} {f : RfrpFrame}

def ident (t : RegTask) : ClientInfo × UInt32 × Nat := (t.clientInfo, t.proxyId, t.routing)

theorem bind_eq_some {ok : Bool} (h : t.bind ok = some t') :
    t.pc = .checking ∧ ((t'.pc = .acking ∧ firstUnprivilegedPort ≤ t.clientInfo.bindPort ∧ ok) ∨
      (t'.pc = .rejecting ∧ (t.clientInfo.bindPort < firstUnprivilegedPort ∨ ok = false))) ∧
      t' = { t with pc := t'.pc } := by
  unfold bind at h
  split at h
  · rename_i pc
    cases h
    refine ⟨pc, ?_, rfl⟩
    dsimp only
    split
    · rename_i privileged
      exact Or.inr ⟨rfl, Or.inl privileged⟩
    · rename_i unprivileged
      cases ok
      · exact Or.inr ⟨rfl, Or.inr rfl⟩
      · exact Or.inl ⟨rfl, UInt16.not_lt.mp unprivileged, rfl⟩
  · cases h

theorem answer_eq_some (h : t.answer = some (f, t')) :
    (t.pc = .rejecting ∧ f = .newRegAckFrame t.clientInfo false 0 ∧ t' = { t with pc := .done }) ∨
    (t.pc = .acking ∧ f = .newRegAckFrame t.clientInfo true t.proxyId ∧
      t' = { t with pc := .accepting }) := by
  unfold answer at h
  split at h
  · rename_i pc
    cases h
    exact Or.inl ⟨pc, rfl, rfl⟩
  · rename_i pc
    cases h
    exact Or.inr ⟨pc, rfl, rfl⟩
  · cases h

end RegTask

namespace Server

variable {s s' : Server} {a : ServerAct}

inductive Moves (s : Server) : ServerAct → Server → Prop
  | recvLimit {client : ClientInfo} (main : s.main = .reading)
      (full : maxProxiesPerClient ≤ s.tasks.length) :
      Moves s (.recv (.register client))
        { s with main := .rejecting client, received := s.received ++ [.register client] }
  | recvRegister {client : ClientInfo} (main : s.main = .reading)
      (free : s.tasks.length < maxProxiesPerClient) :
      Moves s (.recv (.register client))
        { s with
          received := s.received ++ [.register client]
          nextProxyId := s.nextProxyId + 1
          proxyRouting := s.proxyRouting.insert s.nextProxyId s.endpoint.maps.length
          tasks := s.tasks ++ [.spawn client s.nextProxyId s.endpoint.maps.length]
          endpoint := { s.endpoint with maps := s.endpoint.maps ++ [.empty] } }
  | recvPing {info : ControlInfo} (main : s.main = .reading) (ping : info.command = "ping") :
      Moves s (.recv (.control info))
        { s with main := .ponging, received := s.received ++ [.control info] }
  | recvOther {f : RfrpFrame} (main : s.main = .reading) (register : f.register? = none)
      (data : f.dataInfo? = none) (ping : f.isPing = false) :
      Moves s (.recv f) { s with received := s.received ++ [f] }
  | recvRouted {d : DataInfo} {t n : Nat} (main : s.main = .reading)
      (table : (s.routingFor d.proxyId).1 = some t)
      (found : s.endpoint.lookup t d.connId = some n) :
      Moves s (.recv (.data d))
        { s with
          main := .routing n d.data
          received := s.received ++ [.data d]
          cachedRouting := (s.routingFor d.proxyId).2 }
  | recvUnrouted {d : DataInfo} (main : s.main = .reading)
      (miss : ((s.routingFor d.proxyId).1.bind fun t => s.endpoint.lookup t d.connId) = none) :
      Moves s (.recv (.data d))
        { s with
          received := s.received ++ [.data d]
          cachedRouting := (s.routingFor d.proxyId).2 }
  | exit {r : ExitReason} (main : s.main = .reading) (other : r ≠ .pongFailed) :
      Moves s (.exit r) (s.teardown r)
  | reply {f : RfrpFrame} {endpoint : Endpoint UInt16} (frame : s.replyFrame = some f)
      (sent : s.endpoint.enqueue f = some endpoint) :
      Moves s .reply { s with endpoint, main := .reading }
  | replyErr {client : ClientInfo} (main : s.main = .rejecting client)
      (closed : s.endpoint.tunnel.closed = true) :
      Moves s .replyErr { s with main := .reading }
  | pongErr (main : s.main = .ponging) (closed : s.endpoint.tunnel.closed = true) :
      Moves s .replyErr (s.teardown .pongFailed)
  | route {n : Nat} {data : Bytes} {endpoint : Endpoint UInt16} (main : s.main = .routing n data)
      (sent : s.endpoint.deliver n data = some endpoint) :
      Moves s .route { s with endpoint, main := .reading }
  | routeErr {n : Nat} {data : Bytes} (main : s.main = .routing n data)
      (gone : s.endpoint.undeliverable n = true) :
      Moves s .routeErr { s with main := .reading }
  | connect {r : Nat} {t : RegTask} (here : s.tasks[r]? = some t) (bound : t.bound = true) :
      Moves s (.connect r) (s.setTask r { t with backlog := t.backlog + 1 })
  | bind {r : Nat} {ok : Bool} {t t' : RegTask} (here : s.tasks[r]? = some t)
      (move : t.bind ok = some t') : Moves s (.bind r ok) (s.setTask r t')
  | answer {r : Nat} {t t' : RegTask} {f : RfrpFrame} {endpoint : Endpoint UInt16}
      (here : s.tasks[r]? = some t) (move : t.answer = some (f, t'))
      (sent : s.endpoint.enqueue f = some endpoint) :
      Moves s (.answer r) ({ s with endpoint }.setTask r t')
  | answerErr {r : Nat} {t t' : RegTask} {f : RfrpFrame} (here : s.tasks[r]? = some t)
      (move : t.answer = some (f, t')) (closed : s.endpoint.tunnel.closed = true) :
      Moves s (.answerErr r) (s.setTask r t')
  | accept {r sndBuf : Nat} {t : RegTask} (here : s.tasks[r]? = some t) (pc : t.pc = .accepting)
      (waiting : 0 < t.backlog) : Moves s (.accept r sndBuf) (s.acceptConn r t sndBuf)
  | acquire {r n : Nat} {t : RegTask} {l : Link UInt16} (here : s.tasks[r]? = some t)
      (pc : t.pc = .acquiring n) (link : s.endpoint.links[n]? = some l)
      (free : s.permitsTaken t < maxConcurrentExternalConns) :
      Moves s (.acquire r)
        ({ s with endpoint := s.endpoint.setLink n (l.setConn l.conn.spawn) }.setTask r
          { t with pc := .accepting })
  | cancelWaiting {r n : Nat} {t : RegTask} {l : Link UInt16} (here : s.tasks[r]? = some t)
      (aborted : t.aborted = true) (pc : t.pc = .acquiring n)
      (link : s.endpoint.links[n]? = some l) :
      Moves s (.cancel r)
        ({ s with endpoint := s.endpoint.setLink n (l.setConn l.conn.drop) }.setTask r
          { t with pc := .done })
  | cancel {r : Nat} {t : RegTask} (here : s.tasks[r]? = some t) (aborted : t.aborted = true)
      (live : t.pc ≠ .done) (other : ∀ n, t.pc ≠ .acquiring n) :
      Moves s (.cancel r) (s.setTask r { t with pc := .done })
  | endpoint {a : EndpointAct} {endpoint : Endpoint UInt16}
      (move : s.endpoint.step s.owners a = some endpoint) :
      Moves s (.endpoint a) { s with endpoint }

theorem replyFrame_eq_some {f : RfrpFrame} (h : s.replyFrame = some f) :
    (∃ client, s.main = .rejecting client ∧ f = .newRegAckFrame client false 0) ∨
      (s.main = .ponging ∧ f = .newPongFrame) := by
  unfold replyFrame at h
  split at h
  · rename_i client main
    exact Or.inl ⟨client, main, (Option.some.inj h).symm⟩
  · rename_i main
    exact Or.inr ⟨main, (Option.some.inj h).symm⟩
  · cases h

theorem moves_of_recv {f : RfrpFrame} (main : s.main = .reading) :
    Moves s (.recv f) { s.handleFrame f with received := s.received ++ [f] } := by
  cases f with
  | register client =>
      by_cases full : maxProxiesPerClient ≤ s.tasks.length
      · simpa only [handleFrame, if_pos full] using Moves.recvLimit main full
      · simpa only [handleFrame, if_neg full] using Moves.recvRegister main (Nat.lt_of_not_le full)
  | registerAck response => exact .recvOther main rfl rfl rfl
  | control info =>
      by_cases ping : info.command = "ping"
      · simpa only [handleFrame, if_pos ping] using Moves.recvPing main ping
      · have other : (RfrpFrame.control info).isPing = false := by simpa [RfrpFrame.isPing] using ping
        simpa only [handleFrame, if_neg ping] using Moves.recvOther main rfl rfl other
  | data d =>
      cases found : (s.routingFor d.proxyId).1.bind fun t => s.endpoint.lookup t d.connId with
      | none => simpa only [handleFrame, found] using Moves.recvUnrouted main found
      | some n =>
          obtain ⟨t, table, here⟩ := Option.bind_eq_some_iff.mp found
          simpa only [handleFrame, found] using Moves.recvRouted main table here

theorem moves_of_step (h : s.step a = some s') : Moves s a s' := by
  cases a <;> simp only [step] at h
  case recv f =>
    split at h
    · rename_i main
      cases h
      exact moves_of_recv main
    · cases h
  case exit r =>
    split at h
    · rename_i main
      split at h
      · cases h
      · rename_i other
        cases h
        exact .exit main other
    · cases h
  case reply =>
    obtain ⟨f, frame, h⟩ := Option.bind_eq_some_iff.mp h
    obtain ⟨endpoint, sent, rfl⟩ := Option.map_eq_some_iff.mp h
    exact .reply frame sent
  case replyErr =>
    split at h
    · rename_i closed
      split at h
      · rename_i main
        cases h
        exact .replyErr main closed
      · rename_i main
        cases h
        exact .pongErr main closed
      · cases h
    · cases h
  case route =>
    split at h
    · rename_i main
      obtain ⟨endpoint, sent, rfl⟩ := Option.map_eq_some_iff.mp h
      exact .route main sent
    · cases h
  case routeErr =>
    split at h
    · rename_i main
      split at h
      · rename_i gone
        cases h
        exact .routeErr main gone
      · cases h
    · cases h
  case connect r =>
    obtain ⟨t, here, h⟩ := Option.bind_eq_some_iff.mp h
    split at h
    · rename_i bound
      cases h
      exact .connect here bound
    · cases h
  case bind r ok =>
    obtain ⟨t, here, h⟩ := Option.bind_eq_some_iff.mp h
    obtain ⟨t', move, rfl⟩ := Option.map_eq_some_iff.mp h
    exact .bind here move
  case answer r =>
    obtain ⟨t, here, h⟩ := Option.bind_eq_some_iff.mp h
    obtain ⟨⟨f, t'⟩, move, h⟩ := Option.bind_eq_some_iff.mp h
    obtain ⟨endpoint, sent, rfl⟩ := Option.map_eq_some_iff.mp h
    exact .answer here move sent
  case answerErr r =>
    obtain ⟨t, here, h⟩ := Option.bind_eq_some_iff.mp h
    obtain ⟨⟨f, t'⟩, move, h⟩ := Option.bind_eq_some_iff.mp h
    split at h
    · rename_i closed
      cases h
      exact .answerErr here move closed
    · cases h
  case accept r sndBuf =>
    obtain ⟨t, here, h⟩ := Option.bind_eq_some_iff.mp h
    split at h
    · rename_i ready
      cases h
      exact .accept here ready.1 ready.2
    · cases h
  case acquire r =>
    obtain ⟨t, here, h⟩ := Option.bind_eq_some_iff.mp h
    split at h
    · rename_i n pc
      obtain ⟨l, link, h⟩ := Option.bind_eq_some_iff.mp h
      split at h
      · rename_i free
        cases h
        exact .acquire here pc link free
      · cases h
    · cases h
  case cancel r =>
    obtain ⟨t, here, h⟩ := Option.bind_eq_some_iff.mp h
    split at h
    · rename_i aborted
      split at h
      · cases h
      · rename_i n pc
        obtain ⟨l, link, h⟩ := Option.bind_eq_some_iff.mp h
        cases h
        exact .cancelWaiting here aborted pc link
      · rename_i live other
        cases h
        exact .cancel here aborted live other
    · cases h
  case endpoint a =>
    obtain ⟨endpoint, move, rfl⟩ := Option.map_eq_some_iff.mp h
    exact .endpoint move

end Server

end Rfrp
