import Rfrp.Lib.Framing
import Rfrp.Proto.TunnelEnd
import Rfrp.Client.Quiescence
import Rfrp.Session.Wires

/-!
# A session on bytes

The session as the sockets see it: each side with its encoder, its decoder and the byte stream to
the other side, which may be cut into pieces anywhere. Where `Session` hands over frames, here a
frame is serialized, deflated, encrypted and framed by one side and taken apart again by the other.
-/

namespace Rfrp

namespace Server

def onArrival (s : Server) : Arrival → Option Server
  | .pending => some s
  | .frame f => s.step (.recv f)
  | .eof => s.step (.exit .eof)
  | .readError => s.step (.exit .readError)
  | .undecodable => s.step (.exit .undecodable)
  | .keepaliveTimeout => s.step (.exit .keepaliveTimeout)

theorem exit_keeps {s s' : Server} {r : ExitReason} (h : s.step (.exit r) = some s') :
    s'.endpoint.tunnel.task = s.endpoint.tunnel.task ∧ s.running = true ∧ s'.running = false := by
  cases moves_of_step h with
  | exit main => exact ⟨rfl, by rw [running, main]; rfl, rfl⟩

theorem onArrival_keeps {s s' : Server} {a : Arrival} (h : s.onArrival a = some s') :
    s'.endpoint.tunnel.task = s.endpoint.tunnel.task ∧ (s'.running = true → s.running = true) := by
  cases a with
  | pending =>
      cases h
      exact ⟨rfl, id⟩
  | frame f =>
      have move := moves_of_step (a := .recv f) h
      exact ⟨congrArg FrameWriter.task (step_recv move).2, running_of_step move⟩
  | eof | readError | undecodable | keepaliveTimeout =>
      obtain ⟨task, before, -⟩ := exit_keeps h
      exact ⟨task, fun _ => before⟩

instance : RunProxy Server where
  tunnel s := s.endpoint.tunnel
  setTunnel s tunnel := { s with endpoint := { s.endpoint with tunnel } }
  running := running
  waits s := s.main = .reading
  arrive := onArrival
  tunnel_setTunnel _ _ := rfl
  running_setTunnel _ _ := rfl
  running_of_waits s waits := by rw [running, of_decide_eq_true waits]; rfl
  arrive_pending _ := rfl
  arrive_task _ _ _ h := (onArrival_keeps h).1
  arrive_running _ _ _ h := (onArrival_keeps h).2
  arrive_undecodable _ _ h := (exit_keeps h).2.2

end Server

namespace Client

def onArrival (c : Client) : Arrival → Option Client
  | .pending => some c
  | .frame f => c.step (.recv f)
  | .eof => c.step (.exit .eof)
  | .readError => c.step (.exit .readError)
  | .undecodable => c.step (.exit .undecodable)
  | .keepaliveTimeout => c.step (.exit .keepaliveTimeout)

theorem exit_keeps {c c' : Client} {r : ClientExit} (h : c.step (.exit r) = some c') :
    c'.endpoint.tunnel.task = c.endpoint.tunnel.task ∧ c.running = true ∧ c'.running = false := by
  cases moves_of_step h with
  | giveUp main | exit main => exact ⟨rfl, by rw [running, main]; rfl, rfl⟩

theorem onArrival_keeps {c c' : Client} {a : Arrival} (h : c.onArrival a = some c') :
    c'.endpoint.tunnel.task = c.endpoint.tunnel.task ∧ (c'.running = true → c.running = true) := by
  cases a with
  | pending =>
      cases h
      exact ⟨rfl, id⟩
  | frame f =>
      have move := moves_of_step (a := .recv f) h
      exact ⟨congrArg FrameWriter.task (step_recv move).2, running_of_step move⟩
  | eof =>
      obtain ⟨task, before, -⟩ := exit_keeps (r := .eof) h
      exact ⟨task, fun _ => before⟩
  | readError =>
      obtain ⟨task, before, -⟩ := exit_keeps (r := .readError) h
      exact ⟨task, fun _ => before⟩
  | undecodable =>
      obtain ⟨task, before, -⟩ := exit_keeps (r := .undecodable) h
      exact ⟨task, fun _ => before⟩
  | keepaliveTimeout =>
      obtain ⟨task, before, -⟩ := exit_keeps (r := .keepaliveTimeout) h
      exact ⟨task, fun _ => before⟩

instance : RunProxy Client where
  tunnel c := c.endpoint.tunnel
  setTunnel c tunnel := { c with endpoint := { c.endpoint with tunnel } }
  running := running
  waits c := c.main matches .awaiting _ | .reading
  arrive := onArrival
  tunnel_setTunnel _ _ := rfl
  running_setTunnel _ _ := rfl
  running_of_waits c waits := by
    unfold running
    cases main : c.main <;> simp [main] at waits ⊢
  arrive_pending _ := rfl
  arrive_task _ _ _ h := (onArrival_keeps h).1
  arrive_running _ _ _ h := (onArrival_keeps h).2
  arrive_undecodable _ _ h := (exit_keeps (r := .undecodable) h).2.2

end Client

/-- Steps that do not touch the socket of the tunnel. -/
def EndpointAct.isInner : EndpointAct → Bool
  | .writer .sent | .writer .sendErr | .writer .peerReads => false
  | _ => true

def ServerAct.isInner : ServerAct → Bool
  | .recv _ | .exit _ => false
  | .endpoint a => a.isInner
  | _ => true

def ClientAct.isInner : ClientAct → Bool
  | .recv _ | .exit _ => false
  | .endpoint a => a.isInner
  | _ => true

structure ByteSession (S Z Z' : Type) where
  server : TunnelEnd Server S Z Z'
  client : TunnelEnd Client S Z Z'

inductive ByteAct
  | server (a : ServerAct)
  | client (a : ClientAct)
  | serverSocket (a : SocketAct)
  | clientSocket (a : SocketAct)
  -- the server reads `k` bytes of what the client has written
  | toServer (k : Nat)
  | toClient (k : Nat)
deriving DecidableEq, Repr

namespace ByteSession

variable {S Z Z' : Type}

def start (config : ConfigInfo) (sndBuf : Nat) (fresh : S) (serverSender clientSender : Sender Z)
    (serverReceiver clientReceiver : Receiver Z') : ByteSession S Z Z' where
  server := .start (.start 0) sndBuf serverSender fresh serverReceiver
  client := .start (.start config.init.clientProxy 0) sndBuf clientSender fresh clientReceiver

def step (aesGcm : Block 32 → Aead 12 16) (messagePack : MessagePack) (deflate : Coder Z)
    (inflate : Coder Z') (codec : Codec S) (frame : Bytes → Bytes) (b : ByteSession S Z Z') :
    ByteAct → Option (ByteSession S Z Z')
  | .server a =>
      if a.isInner then
        (b.server.proxy.step a).map fun proxy => { b with server := { b.server with proxy } }
      else none
  | .client a =>
      if a.isInner then
        (b.client.proxy.step a).map fun proxy => { b with client := { b.client with proxy } }
      else none
  | .serverSocket a =>
      (b.server.step aesGcm messagePack deflate inflate codec frame a).map fun server =>
        { b with server }
  | .clientSocket a =>
      (b.client.step aesGcm messagePack deflate inflate codec frame a).map fun client =>
        { b with client }
  | .toServer k => (b.server.readFrom k b.client).map fun (server, client) => { server, client }
  | .toClient k => (b.client.readFrom k b.server).map fun (client, server) => { server, client }

end ByteSession

end Rfrp
