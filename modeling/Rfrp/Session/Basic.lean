import Rfrp.Server.RunProxy
import Rfrp.Client.RunProxy
import Rfrp.Lib.Transition

/-!
# A session

The server's and the client's side of one tunnel connection, joined by the two directions of its
TCP stream. A frame travels as the sender's `encode_encrypted` and the receiver's
`decode_encrypted_bytes_mut` make of it: unchanged but for the skipped addresses.
-/

namespace Rfrp

structure Session where
  server : Server
  client : Client

inductive SessionAct
  | server (a : ServerAct)
  | client (a : ClientAct)
  -- the server's main loop reads the oldest frame in flight to it
  | toServer
  | toClient
deriving DecidableEq, Repr

/-- Steps that happen on one side alone: frames cross in `toServer` and `toClient`, and a stream
ends only when its sender has. -/
def ServerAct.isLocal : ServerAct → Bool
  | .recv _ | .exit .eof | .endpoint (.writer .peerReads) => false
  | _ => true

def ClientAct.isLocal : ClientAct → Bool
  | .recv _ | .exit .eof | .endpoint (.writer .peerReads) => false
  | _ => true

/-- The sender has dropped its half of the stream and everything it sent has been read. -/
def FrameWriter.ended (w : FrameWriter) : Bool := w.task = .done ∧ w.wire.queue = []

namespace Session

def start (config : ConfigInfo) (serverBuf clientBuf : Nat) : Session :=
  ⟨.start serverBuf, .start config.init.clientProxy clientBuf⟩

def step (s : Session) : SessionAct → Option Session
  | .server a =>
      if a.isLocal ∨ (a = .exit .eof ∧ s.client.endpoint.tunnel.ended) then
        (s.server.step a).map fun server => { s with server }
      else none
  | .client a =>
      if a.isLocal ∨ (a = .exit .eof ∧ s.server.endpoint.tunnel.ended) then
        (s.client.step a).map fun client => { s with client }
      else none
  | .toServer =>
      s.client.endpoint.tunnel.wire.pop.bind fun (f, _) =>
        (s.client.step (.endpoint (.writer .peerReads))).bind fun client =>
          (s.server.step (.recv f.skipAddr)).map fun server => { server, client }
  | .toClient =>
      s.server.endpoint.tunnel.wire.pop.bind fun (f, _) =>
        (s.server.step (.endpoint (.writer .peerReads))).bind fun server =>
          (s.client.step (.recv f.skipAddr)).map fun client => { server, client }

/-! ## Schedules

The steps that carry one frame, one registration or one chunk through the session while nothing
else moves; concrete runs are put together from them. -/

def serverSends : List SessionAct :=
  [.server (.endpoint (.writer .recv)), .server (.endpoint (.writer .sent)), .toClient]

def clientSends : List SessionAct :=
  [.client (.endpoint (.writer .recv)), .client (.endpoint (.writer .sent)), .toServer]

/-- The registration of entry `r`, accepted. -/
def registers (r : Nat) : List SessionAct :=
  .client .register :: clientSends ++ [.server (.bind r true), .server (.answer r)] ++ serverSends

/-- A user connects to the port of proxy `r`. -/
def accepts (r sndBuf : Nat) : List SessionAct :=
  [.server (.connect r), .server (.accept r sndBuf), .server (.acquire r)]

/-- The user of external connection `n` sends `bytes`, up to the frame channel. -/
def userSends (n : Nat) (bytes : Bytes) : List SessionAct :=
  [.server (.endpoint (.conn n (.peerSends bytes))),
    .server (.endpoint (.conn n (.read bytes.length))), .server (.endpoint (.sendData n))]

/-- The internal service of connection `n` answers with `bytes`, up to the frame channel. -/
def serviceSends (n : Nat) (bytes : Bytes) : List SessionAct :=
  [.client (.endpoint (.conn n (.peerSends bytes))),
    .client (.endpoint (.conn n (.read bytes.length))), .client (.endpoint (.sendData n))]

/-- The write task of a connection writes one chunk of `k` bytes and parks. -/
def writes (k : Nat) : List ConnAct :=
  [.recv, .writeDone, .test, .push k, .flushDone]

def internalWrites (n k : Nat) : List SessionAct :=
  (writes k).map fun a => .client (.endpoint (.conn n a))

def externalWrites (n k : Nat) : List SessionAct :=
  (writes k).map fun a => .server (.endpoint (.conn n a))

def internalCloses (n : Nat) : List SessionAct :=
  [.client (.endpoint (.conn n .peerShutdown)), .client (.endpoint (.conn n .readEof)),
    .client (.endpoint (.remove n)), .client (.endpoint (.finish n))]

def externalCloses (n : Nat) : List SessionAct :=
  [.server (.endpoint (.conn n .peerShutdown)), .server (.endpoint (.conn n .readEof)),
    .server (.endpoint (.remove n)), .server (.endpoint (.finish n))]

def sshConfig : ConfigInfo where
  runningMode := .client
  server := ⟨"127.0.0.1", 11000, "token", ""⟩
  clientProxy := [⟨"ssh", 22001, "127.0.0.1", 22, "tcp", ""⟩]

def firstByte : List SessionAct :=
  registers 0 ++ accepts 0 8 ++ userSends 0 [1] ++ serverSends ++
    [.client (.connected 8), .client .forward] ++ internalWrites 0 1 ++
    [.client (.endpoint (.conn 0 (.peerReads 1)))]

def externalEnds (n : Nat) : List SessionAct :=
  externalCloses n ++
    [.server (.endpoint (.conn n .recvNone)), .server (.endpoint (.conn n .closeDone))]

end Session

end Rfrp
