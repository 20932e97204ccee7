import Rfrp.Client.RunProxy
import Rfrp.Proto.EndpointLaws
import Rfrp.Lib.Transition

/-!
# The steps of the client, one constructor each

`Client.Moves` says what every step of the client can do, with its guard and the state after it.
All invariants of the client are proved from it.
-/

namespace Rfrp.Client

open Transition Endpoint

variable {c c' : Client} {a : ClientAct}

inductive Finds (c : Client) (p : UInt32) : Nat → Client → Prop
  | cached {m : Nat} (hit : c.cachedConns = some (p, m)) : Finds c p m c
  | known {m : Nat} (entry : c.proxyConns p = some m) :
      Finds c p m { c with cachedConns := some (p, m) }
  | created (new : c.proxyConns p = none) :
      Finds c p c.endpoint.maps.length
        { c with
          proxyConns := c.proxyConns.insert p c.endpoint.maps.length
          cachedConns := some (p, c.endpoint.maps.length)
          endpoint := { c.endpoint with maps := c.endpoint.maps ++ [.empty] } }

theorem finds_connsFor (c : Client) (p : UInt32) : Finds c p (c.connsFor p).1 (c.connsFor p).2 := by
  unfold connsFor
  by_cases hit : ∃ m, c.cachedConns = some (p, m)
  · obtain ⟨m, hit⟩ := hit
    simp only [hit, if_true]
    exact .cached hit
  · have miss : ∀ id m, c.cachedConns = some (id, m) → id ≠ p := by
      rintro id m cache rfl
      exact hit ⟨m, cache⟩
    cases cache : c.cachedConns with
    | none =>
        cases entry : c.proxyConns p with
        | some m => exact .known entry
        | none => exact .created entry
    | some e =>
        have other := miss e.1 e.2 cache
        cases entry : c.proxyConns p with
        | some m =>
            simp only [if_neg other]
            exact .known entry
        | none =>
            simp only [if_neg other]
            exact .created entry

inductive Moves (c : Client) : ClientAct → Client → Prop
  | recvAck {i : Nat} {client : ClientInfo} {resp : RegisterResponse} (main : c.main = .awaiting i)
      (here : c.config[i]? = some client) (success : resp.success = true)
      (more : i + 1 < c.config.length) :
      Moves c (.recv (.registerAck resp))
        { c with
          proxyConfigs := c.proxyConfigs.insert resp.proxyId client
          main := .registering (i + 1)
          received := c.received ++ [.registerAck resp] }
  | recvLastAck {i : Nat} {client : ClientInfo} {resp : RegisterResponse}
      (main : c.main = .awaiting i) (here : c.config[i]? = some client)
      (success : resp.success = true) (last : c.config.length ≤ i + 1) :
      Moves c (.recv (.registerAck resp))
        { c with
          proxyConfigs := c.proxyConfigs.insert resp.proxyId client
          main := .reading
          ping := .waiting
          received := c.received ++ [.registerAck resp] }
  | recvStray {i : Nat} {resp : RegisterResponse} (main : c.main = .awaiting i)
      (beyond : c.config[i]? = none) :
      Moves c (.recv (.registerAck resp)) { c with received := c.received ++ [.registerAck resp] }
  | recvReject {i : Nat} {resp : RegisterResponse} (main : c.main = .awaiting i)
      (rejected : resp.success = false) :
      Moves c (.recv (.registerAck resp))
        { c with main := .ended .rejected, received := c.received ++ [.registerAck resp] }
  | recvUnexpected {i : Nat} {f : RfrpFrame} (main : c.main = .awaiting i) (other : f.ack? = none) :
      Moves c (.recv f) { c with main := .ended .unexpectedFrame, received := c.received ++ [f] }
  | recvOther {f : RfrpFrame} (main : c.main = .reading) (other : f.dataInfo? = none) :
      Moves c (.recv f) { c with received := c.received ++ [f] }
  | recvUnknown {d : DataInfo} (main : c.main = .reading)
      (unknown : c.proxyConfigs d.proxyId = none) :
      Moves c (.recv (.data d)) { c with received := c.received ++ [.data d] }
  | recvFast {d : DataInfo} {client : ClientInfo} {m n : Nat} {c' : Client}
      (main : c.main = .reading) (known : c.proxyConfigs d.proxyId = some client)
      (finds : Finds c d.proxyId m c') (found : c'.endpoint.lookup m d.connId = some n) :
      Moves c (.recv (.data d))
        { c' with main := .forwarding n d m, received := c.received ++ [.data d] }
  | recvNew {d : DataInfo} {client : ClientInfo} {m : Nat} {c' : Client}
      (main : c.main = .reading) (known : c.proxyConfigs d.proxyId = some client)
      (finds : Finds c d.proxyId m c') (miss : c'.endpoint.lookup m d.connId = none) :
      Moves c (.recv (.data d))
        { c' with main := .connecting client d m, received := c.received ++ [.data d] }
  | giveUp {i : Nat} {r : ClientExit} (main : c.main = .awaiting i) : Moves c (.exit r) (c.giveUp r)
  | exit {r : ClientExit} (main : c.main = .reading) : Moves c (.exit r) (c.teardown r)
  | register {i : Nat} {client : ClientInfo} {endpoint : Endpoint String}
      (main : c.main = .registering i) (here : c.config[i]? = some client)
      (sent : c.endpoint.enqueue (.register client) = some endpoint) :
      Moves c .register { c with endpoint, main := .awaiting i }
  | registerErr {i : Nat} (main : c.main = .registering i)
      (closed : c.endpoint.tunnel.closed = true) : Moves c .registerErr (c.giveUp .sendFailed)
  | connectedTwice {client : ClientInfo} {d : DataInfo} {m n sndBuf : Nat}
      (main : c.main = .connecting client d m) (found : c.endpoint.lookup m d.connId = some n) :
      Moves c (.connected sndBuf) { c with main := .forwarding n d m }
  | connected {client : ClientInfo} {d : DataInfo} {m sndBuf : Nat}
      (main : c.main = .connecting client d m) (miss : c.endpoint.lookup m d.connId = none) :
      Moves c (.connected sndBuf)
        { c with
          main := .forwarding c.endpoint.links.length d m
          endpoint := c.endpoint.addLink client.addr d.proxyId d.connId m (Conn.fresh sndBuf).spawn }
  | refused {client : ClientInfo} {d : DataInfo} {m : Nat} (main : c.main = .connecting client d m) :
      Moves c .refused { c with main := .reading }
  | forward {n m : Nat} {d : DataInfo} {endpoint : Endpoint String}
      (main : c.main = .forwarding n d m) (sent : c.endpoint.deliver n d.data = some endpoint) :
      Moves c .forward { c with endpoint, main := .reading }
  | forwardErr {n m : Nat} {d : DataInfo} (main : c.main = .forwarding n d m)
      (gone : c.endpoint.undeliverable n = true) :
      Moves c .forwardErr { c.removeConn m d.connId with main := .reading }
  | tick (ping : c.ping = .waiting) : Moves c .tick { c with ping := .sending }
  | ping {endpoint : Endpoint String} (ping : c.ping = .sending)
      (sent : c.endpoint.enqueue .newPingFrame = some endpoint) :
      Moves c .ping { c with endpoint, ping := .waiting }
  | pingErr (ping : c.ping = .sending) (closed : c.endpoint.tunnel.closed = true) :
      Moves c .pingErr { c with ping := .done }
  | pingCancel (aborted : c.pingAborted = true) (live : c.ping = .waiting ∨ c.ping = .sending) :
      Moves c .pingCancel { c with ping := .done }
  | endpoint {a : EndpointAct} {endpoint : Endpoint String}
      (move : c.endpoint.step c.owners a = some endpoint) :
      Moves c (.endpoint a) { c with endpoint }

theorem moves_of_answer {i : Nat} {f : RfrpFrame} (main : c.main = .awaiting i) :
    Moves c (.recv f) { c.handleAnswer i f with received := c.received ++ [f] } := by
  cases f with
  | register | control | data => exact .recvUnexpected main rfl
  | registerAck resp =>
      cases success : resp.success with
      | false =>
          have answer : c.handleAnswer i (.registerAck resp) = c.giveUp .rejected := by
            simp [handleAnswer, success]
          rw [answer]
          exact .recvReject main success
      | true =>
          cases here : c.config[i]? with
          | none =>
              have answer : c.handleAnswer i (.registerAck resp) = c := by
                simp [handleAnswer, success, here]
              rw [answer]
              exact .recvStray main here
          | some client =>
              have answer : c.handleAnswer i (.registerAck resp) =
                  { c with proxyConfigs := c.proxyConfigs.insert resp.proxyId client }.registerFrom
                    (i + 1) := by
                simp [handleAnswer, success, here]
              rw [answer]
              by_cases more : i + 1 < c.config.length
              · simpa only [registerFrom, if_pos more] using .recvAck main here success more
              · simpa only [registerFrom, if_neg more] using
                  .recvLastAck main here success (Nat.le_of_not_lt more)

theorem moves_of_recv {f : RfrpFrame} (main : c.main = .reading) :
    Moves c (.recv f) { c.handleFrame f with received := c.received ++ [f] } := by
  cases f with
  | register | registerAck | control => exact .recvOther main rfl
  | data d =>
      cases known : c.proxyConfigs d.proxyId with
      | none =>
          have frame : c.handleFrame (.data d) = c := by simp [handleFrame, known]
          rw [frame]
          exact .recvUnknown main known
      | some client =>
          have finds := finds_connsFor c d.proxyId
          cases found : (c.connsFor d.proxyId).2.endpoint.lookup (c.connsFor d.proxyId).1 d.connId with
          | none =>
              have frame : c.handleFrame (.data d) = { (c.connsFor d.proxyId).2 with
                  main := .connecting client d (c.connsFor d.proxyId).1 } := by
                simp [handleFrame, known, found]
              have move := Moves.recvNew main known finds found
              rwa [frame]
          | some n =>
              have frame : c.handleFrame (.data d) = { (c.connsFor d.proxyId).2 with
                  main := .forwarding n d (c.connsFor d.proxyId).1 } := by
                simp [handleFrame, known, found]
              have move := Moves.recvFast main known finds found
              rwa [frame]

theorem moves_of_step (h : c.step a = some c') : Moves c a c' := by
  cases a <;> simp only [step] at h
  case recv f =>
    split at h
    · rename_i main
      cases h
      exact moves_of_answer main
    · rename_i main
      cases h
      exact moves_of_recv main
    · cases h
  case exit r =>
    obtain ⟨-, h⟩ := Option.ite_none_right_eq_some.mp h
    split at h
    · rename_i main
      cases h
      exact .giveUp main
    · rename_i main
      cases h
      exact .exit main
    · cases h
  case register =>
    split at h
    · rename_i main
      obtain ⟨client, here, h⟩ := Option.bind_eq_some_iff.mp h
      obtain ⟨endpoint, sent, rfl⟩ := Option.map_eq_some_iff.mp h
      exact .register main here sent
    · cases h
  case registerErr =>
    split at h
    · rename_i main
      split at h
      · rename_i closed
        cases h
        exact .registerErr main closed
      · cases h
    · cases h
  case connected sndBuf =>
    split at h
    · rename_i client d m main
      cases h
      unfold insertConn
      split
      · rename_i found
        exact .connectedTwice main found
      · rename_i miss
        exact .connected main miss
    · cases h
  case refused =>
    split at h
    · rename_i main
      cases h
      exact .refused main
    · cases h
  case forward =>
    split at h
    · rename_i main
      obtain ⟨endpoint, sent, rfl⟩ := Option.map_eq_some_iff.mp h
      exact .forward main sent
    · cases h
  case forwardErr =>
    split at h
    · rename_i main
      split at h
      · rename_i gone
        cases h
        exact .forwardErr main gone
      · cases h
    · cases h
  case tick =>
    split at h
    · rename_i ping
      cases h
      exact .tick ping
    · cases h
  case ping =>
    split at h
    · rename_i ping
      obtain ⟨endpoint, sent, rfl⟩ := Option.map_eq_some_iff.mp h
      exact .ping ping sent
    · cases h
  case pingErr =>
    split at h
    · rename_i ready
      cases h
      exact .pingErr ready.1 ready.2
    · cases h
  case pingCancel =>
    split at h
    · rename_i ready
      cases h
      exact .pingCancel ready.1 ready.2
    · cases h
  case endpoint a =>
    obtain ⟨endpoint, move, rfl⟩ := Option.map_eq_some_iff.mp h
    exact .endpoint move

end Rfrp.Client
