import Rfrp.Lib.Fifo
import Rfrp.Proto.Coalesce

/-!
# The two tasks of one forwarded connection

The server's external connections (`frame_handle.rs`) and the client's internal connections
(`rfrp_client/src/run_proxy.rs`) are served by the same pair of tasks: a read task that turns what
it reads from the socket into Data frames, and a write task that writes the payloads of a channel
of 256 entries through a `BufWriter`. Both are modelled here, one await or one shared access a
step. A label says what the peer, the socket or the scheduler does next.
-/

namespace Rfrp

/-- `BytesMut::with_capacity(65536)`: what one `read_buf` returns at most. -/
def readBufCapacity : Nat := 65536

/-- The default capacity of a `BufWriter`. -/
def bufWriterCapacity : Nat := 8192

inductive ReadTask
  | unspawned
  | reading
  -- `tx.send(frame).await` with the Data frame of this chunk
  | sending (data : Bytes)
  -- the loop has been left, the map entry is still to be removed
  | cleanup
  -- the entry is removed, the task's captures are still to be dropped
  | ending
  | done
deriving DecidableEq, Repr

inductive WriteTask
  | unspawned
  | receiving
  | writing (data : Bytes)
  -- about to ask `rx.is_empty()`
  | testing
  | flushing
  -- the flush after the loop
  | closing
  | done
deriving DecidableEq, Repr

structure Conn where
  -- what the peer has sent and how much of it the read task has read
  inbound : Fifo UInt8
  -- the peer has shut down its sending direction
  eof : Bool
  -- the chunks `read_buf` has returned
  reads : List Bytes
  reader : ReadTask
  chan : Fifo Bytes
  -- accepted by `write_all` and not yet handed to the socket
  held : Bytes
  -- the chunks whose `write_all` has completed
  written : List Bytes
  -- what was handed to the socket and how much of it the peer has read
  outbound : Fifo UInt8
  -- how many bytes the socket takes before a write blocks
  sndBuf : Nat
  writer : WriteTask
deriving DecidableEq, Repr

inductive ConnAct
  | peerSends (bytes : Bytes)
  | peerShutdown
  | peerReads (k : Nat)
  | read (k : Nat)
  | readEof
  | readErr
  | recv
  | recvNone
  | push (k : Nat)
  | writeDone
  | writeErr (k : Nat)
  | test
  | flushDone
  | flushErr
  | closeDone
  | closeErr
deriving DecidableEq, Repr

def ConnAct.fails : ConnAct → Bool
  | .readErr | .writeErr _ | .flushErr | .closeErr => true
  | _ => false

def ConnAct.isTask : ConnAct → Bool
  | .peerSends _ | .peerShutdown | .peerReads _ => false
  | a => !a.fails

def ConnAct.pushes : ConnAct → Bool
  | .push _ => true
  | _ => false

namespace Conn

/-- An accepted or connected socket, before its tasks run. -/
def fresh (sndBuf : Nat) : Conn :=
  { inbound := .empty, eof := false, reads := [], reader := .unspawned, chan := .empty, held := []
    written := [], outbound := .empty, sndBuf, writer := .unspawned }

/-- The two `task::spawn` calls. -/
def spawn (c : Conn) : Conn := { c with reader := .reading, writer := .receiving }

def drop (c : Conn) : Conn := { c with reader := .done, writer := .done }

def closed (c : Conn) : Bool := c.writer = .done

/-- `sender.send(data).await` completing with success; while the channel is full it waits. -/
def send (c : Conn) (data : Bytes) : Option Conn :=
  if c.closed = false ∧ c.chan.queue.length < channelCapacity then
    some { c with chan := c.chan.push data }
  else none

/-- `senders` says whether a sender of the channel is still alive. -/
def step (senders : Bool) (c : Conn) : ConnAct → Option Conn
  | .peerSends bytes =>
      if c.eof = false then some { c with inbound := c.inbound.pushAll bytes } else none
  | .peerShutdown => some { c with eof := true }
  | .peerReads k => some { c with outbound := c.outbound.advance k }
  | .read k =>
      if c.reader = .reading ∧ 0 < k ∧ k ≤ readBufCapacity ∧ k ≤ c.inbound.queue.length then
        let data := c.inbound.queue.take k
        some { c with
          inbound := c.inbound.advance k, reads := c.reads ++ [data], reader := .sending data }
      else none
  | .readEof =>
      if c.reader = .reading ∧ c.inbound.queue = [] ∧ c.eof = true then
        some { c with reader := .cleanup }
      else none
  | .readErr => if c.reader = .reading then some { c with reader := .cleanup } else none
  | .recv =>
      match c.writer, c.chan.pop with
      | .receiving, some (data, chan) =>
          some { c with chan, held := c.held ++ data, writer := .writing data }
      | _, _ => none
  | .recvNone =>
      if c.writer = .receiving ∧ c.chan.queue = [] ∧ senders = false then
        some { c with writer := .closing }
      else none
  -- `write_all` and `flush` hand the buffered bytes to the socket, oldest first, as it takes them
  | .push k =>
      match c.writer with
      | .writing _ | .flushing | .closing =>
          if 0 < k ∧ k ≤ c.held.length ∧ c.outbound.queue.length + k ≤ c.sndBuf then
            some { c with outbound := c.outbound.pushAll (c.held.take k), held := c.held.drop k }
          else none
      | _ => none
  -- `write_all` returns once what is left fits the buffer
  | .writeDone =>
      match c.writer with
      | .writing data =>
          if c.held.length ≤ bufWriterCapacity then
            some { c with written := c.written ++ [data], writer := .testing }
          else none
      | _ => none
  -- what the buffer had taken stays in it for the last flush, the rest of the chunk is lost
  | .writeErr k =>
      match c.writer with
      | .writing _ => some { c with held := c.held.take k, writer := .closing }
      | _ => none
  | .test =>
      if c.writer = .testing then
        some { c with writer := if c.chan.queue = [] then .flushing else .receiving }
      else none
  | .flushDone =>
      if c.writer = .flushing ∧ c.held = [] then some { c with writer := .receiving } else none
  -- `let _ = flush().await`: the error is dropped and the loop goes on
  | .flushErr => if c.writer = .flushing then some { c with writer := .receiving } else none
  | .closeDone =>
      if c.writer = .closing ∧ c.held = [] then some { c with writer := .done } else none
  | .closeErr => if c.writer = .closing then some { c with writer := .done } else none

def inHand (c : Conn) : List Bytes :=
  match c.reader with
  | .sending data => [data]
  | _ => []

/-- The chunk that was received and whose `write_all` is under way. -/
def inWrite (c : Conn) : List Bytes :=
  match c.writer with
  | .writing data => [data]
  | _ => []

def readerLeft (c : Conn) : Bool :=
  c.reader matches .cleanup | .ending | .done

/-- Some half of the socket is still held. -/
def isOpen (c : Conn) : Bool := c.reader ≠ .done ∨ c.writer ≠ .done

end Conn

end Rfrp
