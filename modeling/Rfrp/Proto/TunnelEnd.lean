import Rfrp.Proto.Coalesce
import Rfrp.Proto.FramedRead

/-!
# One end of the tunnel connection

Either `run_proxy` with the two halves of its tunnel connection. The write task encodes the frame in
hand, `FramedWrite` frames the buffer and the socket takes the bytes as it likes; the other way the
main loop asks `FramedRead` for a frame and decodes it. The tunnel's own `wire` and `sndBuf` are not
used: here the frames in flight are bytes.
-/

namespace Rfrp

/-- The limit of `make_length_delimited_codec`. -/
def maxFrameLen : Nat := 1024 * 1024

/-- What the main loop gets: nothing yet, a decoded frame, or a reason to leave. -/
inductive Arrival
  | pending
  | frame (f : RfrpFrame)
  | eof
  | readError
  | undecodable
  | keepaliveTimeout
deriving DecidableEq, Repr

/-- A main loop as its socket sees it. -/
class RunProxy (σ : Type) where
  tunnel : σ → FrameWriter
  setTunnel : σ → FrameWriter → σ
  -- the main loop has not been left
  running : σ → Bool
  -- it awaits `reader.next()`
  waits : σ → Bool
  arrive : σ → Arrival → Option σ
  tunnel_setTunnel : ∀ s t, tunnel (setTunnel s t) = t
  running_setTunnel : ∀ s t, running (setTunnel s t) = running s
  running_of_waits : ∀ s, waits s = true → running s = true
  arrive_pending : ∀ s, arrive s .pending = some s
  arrive_task : ∀ s a s', arrive s a = some s' → (tunnel s').task = (tunnel s).task
  arrive_running : ∀ s a s', arrive s a = some s' → running s' = true → running s = true
  arrive_undecodable : ∀ s s', arrive s .undecodable = some s' → running s' = false

structure TunnelEnd (σ S Z Z' : Type) where
  proxy : σ
  sender : Sender Z
  -- framed and not yet taken by the socket
  writing : Bytes
  outbound : Fifo UInt8
  -- how many bytes the socket takes before a write blocks
  sndBuf : Nat
  reader : FramedRead S
  receiver : Receiver Z'

inductive SocketAct
  -- `encode_encrypted` of the frame in hand and `start_send`
  | encode (fuel : Nat)
  -- the socket takes `k` bytes
  | write (k : Nat)
  | sendErr
  | readErr
  -- `reader.next()` asks the codec
  | next (fuel : Nat)
  | deadline
deriving DecidableEq, Repr

namespace TunnelEnd

variable {σ σ' S Z Z' : Type} [RunProxy σ] [RunProxy σ']

def start (proxy : σ) (sndBuf : Nat) (sender : Sender Z) (fresh : S) (receiver : Receiver Z') :
    TunnelEnd σ S Z Z' :=
  ⟨proxy, sender, [], .empty, sndBuf, .new fresh, receiver⟩

def tunnel (p : TunnelEnd σ S Z Z') : FrameWriter := RunProxy.tunnel p.proxy

def setTask (p : TunnelEnd σ S Z Z') (task : WriterTask) : TunnelEnd σ S Z Z' :=
  { p with proxy := RunProxy.setTunnel p.proxy { p.tunnel with task } }

def arrive (arrival : Arrival) (p : TunnelEnd σ S Z Z') : Option (TunnelEnd σ S Z Z') :=
  (RunProxy.arrive p.proxy arrival).map fun proxy => { p with proxy }

@[simp] theorem tunnel_setTask (p : TunnelEnd σ S Z Z') (task : WriterTask) :
    (p.setTask task).tunnel = { p.tunnel with task } :=
  RunProxy.tunnel_setTunnel _ _

/-- The sending half of the socket has been dropped and everything written has been read. -/
def ended (p : TunnelEnd σ S Z Z') : Bool := p.tunnel.task = .done ∧ p.outbound.queue = []

/-- `reader.next()` is about to read from the socket. -/
def reads (p : TunnelEnd σ S Z Z') : Bool :=
  RunProxy.waits p.proxy && !p.reader.readable && !p.reader.eof

section
variable (aesGcm : Block 32 → Aead 12 16) (messagePack : MessagePack) (deflate : Coder Z)
  (inflate : Coder Z') (codec : Codec S) (frame : Bytes → Bytes)

/-- A buffer over the limit is refused before anything is written. -/
def encode (fuel : Nat) (p : TunnelEnd σ S Z Z') : Option (TunnelEnd σ S Z Z') :=
  match p.tunnel.task with
  | .sending f =>
      if p.writing = [] then
        (f.encodeEncrypted aesGcm messagePack deflate fuel p.sender).map fun (bytes, sender) =>
          if bytes.length ≤ maxFrameLen then { p with sender, writing := frame bytes }
          else { p with sender }.setTask .done
      else none
  | _ => none

/-- `send` completes when the socket has taken the last byte. -/
def write (k : Nat) (p : TunnelEnd σ S Z Z') : Option (TunnelEnd σ S Z Z') :=
  match p.tunnel.task with
  | .sending _ =>
      if 0 < k ∧ k ≤ p.writing.length ∧ p.outbound.queue.length + k ≤ p.sndBuf then
        let p := { p with
          outbound := p.outbound.pushAll (p.writing.take k), writing := p.writing.drop k }
        some (if p.writing = [] then p.setTask .receiving else p)
      else none
  | _ => none

def decode (fuel : Nat) (buf : Bytes) (r : Receiver Z') : Option (Receiver Z' × Arrival) :=
  match RfrpFrame.decodeEncryptedBytesMut aesGcm messagePack inflate fuel buf r with
  | (some (.ok f), receiver) => some (receiver, .frame f)
  | (some (.error _), receiver) => some (receiver, .undecodable)
  | (none, _) => none

def next (fuel : Nat) (reader : FramedRead S) (receiver : Receiver Z') :
    Option (FramedRead S × Receiver Z' × Arrival) :=
  match reader.next codec with
  | (reader, .ok (some buf)) =>
      (decode aesGcm messagePack inflate fuel buf receiver).map fun (receiver, arrival) =>
        (reader, receiver, arrival)
  | (reader, .ok none) =>
      if reader.eof then some (reader, receiver, .eof)
      else some ({ reader with readable := false }, receiver, .pending)
  | (reader, .error _) => some (reader, receiver, .readError)

def step (p : TunnelEnd σ S Z Z') : SocketAct → Option (TunnelEnd σ S Z Z')
  | .encode fuel => p.encode aesGcm messagePack deflate frame fuel
  | .write k => p.write k
  | .sendErr =>
      match p.tunnel.task with
      | .sending _ => some (p.setTask .done)
      | _ => none
  | .readErr => if p.reads then p.arrive .readError else none
  | .next fuel =>
      if RunProxy.waits p.proxy ∧ p.reader.readable then
        (next aesGcm messagePack inflate codec fuel p.reader p.receiver).bind
          fun (reader, receiver, arrival) => { p with reader, receiver }.arrive arrival
      else none
  | .deadline => p.arrive .keepaliveTimeout

/-- `p` reads `k` bytes of what `q` has written; no bytes mean the end of the stream. -/
def readFrom (k : Nat) (p : TunnelEnd σ S Z Z') (q : TunnelEnd σ' S Z Z') :
    Option (TunnelEnd σ S Z Z' × TunnelEnd σ' S Z Z') :=
  if p.reads ∧ k ≤ q.outbound.queue.length ∧ (k = 0 → q.ended) then
    some ({ p with reader := p.reader.read (q.outbound.queue.take k) },
      { q with outbound := q.outbound.advance k })
  else none

end

end TunnelEnd

end Rfrp
