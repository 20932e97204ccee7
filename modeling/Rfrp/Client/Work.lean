import Rfrp.Client.Steps
import Rfrp.Proto.Work

/-!
# The client's work

What is left to do on the client's side is the work of its main loop, with the entries it has not
registered yet, of the heartbeat task, and of its connections and the frame writer.
-/

namespace Rfrp

def ClientAct.costs : ClientAct → Nat
  | .tick => 0
  | .endpoint a => a.costs
  | _ => 1

/-- `tick` brings a ping and the server's answer to it. -/
def ClientAct.brings : ClientAct → Nat
  | .recv f => f.forClient
  | .tick => 8
  | .endpoint a => a.brings Rates.client.byte
  | _ => 0

/-- `n` is the number of entries to register. -/
def ClientMain.work (n : Nat) : ClientMain → Nat
  | .registering i => 10 * (n - i) + 2
  | .awaiting i => 10 * (n - (i + 1)) + 2
  | .reading => 1
  | .connecting _ d _ => 2 * d.data.length + 12
  | .forwarding _ d _ => 2 * d.data.length + 6
  | .ended _ => 0

def PingTask.work : PingTask → Nat
  | .waiting => 1
  | .sending => 9
  | .unspawned | .done => 0

namespace Client

variable {c c' : Client} {a : ClientAct}

def work (c : Client) : Nat :=
  c.main.work c.config.length + c.ping.work + c.endpoint.work Rates.client

theorem work_finds {p : UInt32} {m : Nat} (finds : Finds c p m c') :
    c'.ping = c.ping ∧ c'.endpoint.work Rates.client = c.endpoint.work Rates.client := by
  cases finds <;> exact ⟨rfl, rfl⟩

theorem work_step (h : Moves c a c') (other : a ≠ .endpoint (.writer .peerReads)) :
    c'.work + a.costs ≤ c.work + a.brings := by
  unfold work
  cases h with
  | recvAck main | recvReject main =>
      simp only [main, ClientMain.work, ClientAct.costs, ClientAct.brings, RfrpFrame.forClient]
      omega
  | recvLastAck main =>
      simp only [main, ClientMain.work, PingTask.work, ClientAct.costs, ClientAct.brings,
        RfrpFrame.forClient]
      omega
  | recvStray main =>
      simp only [ClientAct.costs, ClientAct.brings, RfrpFrame.forClient]
      omega
  | @recvUnexpected i f main | @recvOther f main =>
      have some : 0 < f.forClient := by
        cases f <;> exact Nat.succ_pos _
      simp only [main, ClientMain.work, ClientAct.costs, ClientAct.brings]
      omega
  | recvUnknown main =>
      simp only [ClientAct.costs, ClientAct.brings, RfrpFrame.forClient]
      omega
  | recvFast main known finds | recvNew main known finds =>
      obtain ⟨ping, endpoint⟩ := work_finds finds
      simp only [ping, endpoint, main, ClientMain.work, ClientAct.costs, ClientAct.brings,
        RfrpFrame.forClient]
      omega
  | giveUp main | registerErr main =>
      simp only [giveUp, main, ClientMain.work, ClientAct.costs, ClientAct.brings]
      omega
  | exit main =>
      have aborted : ({ c.endpoint with
          tunnel := { c.endpoint.tunnel with aborted := true } } : Endpoint String).work Rates.client =
          c.endpoint.work Rates.client := rfl
      simp only [teardown, main, ClientMain.work, aborted, ClientAct.costs, ClientAct.brings]
      omega
  | register main here sent =>
      have bound := Slots.get_lt here
      rw [Endpoint.work_enqueue _ sent]
      simp only [main, ClientMain.work, Rates.client, RfrpFrame.forServer, ClientAct.costs,
        ClientAct.brings]
      omega
  | connectedTwice main =>
      simp only [main, ClientMain.work, ClientAct.costs, ClientAct.brings]
      omega
  | @connected client d m sndBuf main =>
      have fresh : (c.endpoint.addLink client.addr d.proxyId d.connId m
          (Conn.fresh sndBuf).spawn).work Rates.client = c.endpoint.work Rates.client + 5 :=
        Endpoint.work_addLink _ _ _ _ _ _ ⟨rfl, rfl, rfl, rfl⟩ fun _ => rfl
      simp only [main, fresh, ClientMain.work, ClientAct.costs, ClientAct.brings]
      omega
  | refused main =>
      simp only [main, ClientMain.work, ClientAct.costs, ClientAct.brings]
      omega
  | forward main sent =>
      rw [Endpoint.work_deliver _ sent]
      simp only [main, ClientMain.work, chunkWork, ClientAct.costs, ClientAct.brings]
      omega
  | @forwardErr n m d main =>
      have removed : (c.removeConn m d.connId).endpoint.work Rates.client =
          c.endpoint.work Rates.client := rfl
      have ping : (c.removeConn m d.connId).ping = c.ping := rfl
      simp only [removed, ping, main, ClientMain.work, ClientAct.costs, ClientAct.brings]
      omega
  | tick ping =>
      simp only [ping, PingTask.work, ClientAct.costs, ClientAct.brings]
      omega
  | ping ping sent =>
      rw [Endpoint.work_enqueue _ sent]
      simp only [ping, PingTask.work, Rates.client, RfrpFrame.newPingFrame, RfrpFrame.forServer,
        ClientAct.costs, ClientAct.brings]
      omega
  | pingErr ping =>
      simp only [ping, PingTask.work, ClientAct.costs, ClientAct.brings]
      omega
  | pingCancel _ live =>
      have some : 0 < c.ping.work := by
        rcases live with live | live <;> rw [live] <;> decide
      have gone : PingTask.work .done = 0 := rfl
      simp only [gone, ClientAct.costs, ClientAct.brings]
      omega
  | endpoint move =>
      have paid := Endpoint.work_step Rates.client move fun same => other (same ▸ rfl)
      simp only [ClientAct.costs, ClientAct.brings]
      omega

end Client

end Rfrp
