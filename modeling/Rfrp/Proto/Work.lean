import Rfrp.Lib.Potential
import Rfrp.Proto.EndpointLaws

/-!
# How much work is left on one side

Every step that is not another party's takes some of the work that is waiting: bytes to read, frames
and chunks to pass on, tasks to end. `frame` says how much work a frame is for the other side and
`byte` how much one byte from a socket is for this one.
-/

namespace Rfrp

structure Rates where
  frame : RfrpFrame → Nat
  byte : Nat
  -- a frame is no more work than the bytes it was read from
  chunk : ∀ data p c, 0 < data.length →
    frame (.newDataFrame data p c) + 4 ≤ byte * data.length

def chunkWork (data : Bytes) : Nat := 2 * data.length + 4

/-- A frame for the server's main loop: the answer it asks for, or the chunk it carries. -/
def RfrpFrame.forServer : RfrpFrame → Nat
  | .register _ => 7
  | .control _ => 5
  | .data d => 2 * d.data.length + 6
  | .registerAck _ => 1

/-- A frame for the client's main loop, which may have to connect for it. -/
def RfrpFrame.forClient : RfrpFrame → Nat
  | .data d => 2 * d.data.length + 12
  | _ => 1

def Rates.server : Rates where
  frame := RfrpFrame.forClient
  byte := 18
  chunk := fun data p c some => by
    simp only [RfrpFrame.newDataFrame, RfrpFrame.forClient]
    omega

def Rates.client : Rates where
  frame := RfrpFrame.forServer
  byte := 12
  chunk := fun data p c some => by
    simp only [RfrpFrame.newDataFrame, RfrpFrame.forServer]
    omega

theorem RfrpFrame.forServer_skipAddr (f : RfrpFrame) : f.skipAddr.forServer = f.forServer := by
  cases f <;> rfl

theorem RfrpFrame.forClient_skipAddr (f : RfrpFrame) : f.skipAddr.forClient = f.forClient := by
  cases f <;> rfl

/-- `sending` is the work of a chunk that has been read. -/
def ReadTask.work (sending : Bytes → Nat) : ReadTask → Nat
  | .reading => 3
  | .sending data => sending data + 6
  | .cleanup => 2
  | .ending => 1
  | .unspawned | .done => 0

def WriteTask.work : WriteTask → Nat
  | .writing _ => 5
  | .testing => 4
  | .flushing => 3
  | .receiving => 2
  | .closing => 1
  | .unspawned | .done => 0

def ConnAct.costs : ConnAct → Nat
  | .peerSends _ | .peerShutdown | .peerReads _ => 0
  | _ => 1

def ConnAct.brings (byte : Nat) : ConnAct → Nat
  | .peerSends bytes => byte * bytes.length
  | _ => 0

namespace Conn

def work (byte : Nat) (sending : Bytes → Nat) (c : Conn) : Nat :=
  byte * c.inbound.queue.length + c.reader.work sending + (c.chan.queue.map chunkWork).sum +
    2 * c.held.length + c.outbound.queue.length + c.writer.work

variable {byte : Nat} {sending : Bytes → Nat} {senders : Bool} {c c' : Conn} {a : ConnAct}

theorem work_step (chunk : ∀ data, 0 < data.length → sending data + 4 ≤ byte * data.length)
    (h : c.step senders a = some c') :
    c'.work byte sending + a.costs ≤ c.work byte sending + a.brings byte := by
  unfold work
  cases moves_of_step h with
  | @peerSends bytes =>
      simp only [Fifo.queue_pushAll, List.length_append, Nat.mul_add, ConnAct.costs, ConnAct.brings]
      omega
  | peerShutdown => exact Nat.le_refl _
  | peerReads =>
      simp only [Fifo.queue_advance, List.length_drop, ConnAct.costs, ConnAct.brings]
      omega
  | @read k reading some _ there =>
      have paid := chunk (c.inbound.queue.take k) (by simp; omega)
      rw [List.length_take, Nat.min_eq_left there] at paid
      have split : byte * c.inbound.queue.length =
          byte * k + byte * (c.inbound.queue.length - k) := by
        rw [← Nat.mul_add, Nat.add_sub_cancel' there]
      simp only [Fifo.queue_advance, List.length_drop, reading, ReadTask.work, ConnAct.costs,
        ConnAct.brings]
      omega
  | readEof reading | readErr reading =>
      simp only [reading, ReadTask.work, ConnAct.costs, ConnAct.brings]
      omega
  | recv receiving popped =>
      obtain ⟨-, -, queue⟩ := Fifo.pop_eq_some popped
      simp only [queue, receiving, List.map_cons, List.sum_cons, chunkWork, List.length_append,
        WriteTask.work, ConnAct.costs, ConnAct.brings]
      omega
  | recvNone receiving =>
      simp only [receiving, WriteTask.work, ConnAct.costs, ConnAct.brings]
      omega
  | push _ some there =>
      simp only [Fifo.queue_pushAll, List.length_append, List.length_take, List.length_drop,
        ConnAct.costs, ConnAct.brings]
      omega
  | writeDone writing =>
      simp only [writing, WriteTask.work, ConnAct.costs, ConnAct.brings]
      omega
  | writeErr writing =>
      simp only [writing, List.length_take, WriteTask.work, ConnAct.costs, ConnAct.brings]
      omega
  | testEmpty testing | testMore testing =>
      simp only [testing, WriteTask.work, ConnAct.costs, ConnAct.brings]
      omega
  | flushDone flushing | flushErr flushing =>
      simp only [flushing, WriteTask.work, ConnAct.costs, ConnAct.brings]
      omega
  | closeDone closing | closeErr closing =>
      simp only [closing, WriteTask.work, ConnAct.costs, ConnAct.brings]
      omega

end Conn

namespace FrameWriter

def WriterTask.work (frame : RfrpFrame → Nat) : WriterTask → Nat
  | .receiving => 1
  | .sending f => frame f + 2
  | .done => 0

def work (frame : RfrpFrame → Nat) (w : FrameWriter) : Nat :=
  (w.chan.queue.map fun f => frame f + 2).sum + WriterTask.work frame w.task +
    (w.wire.queue.map frame).sum

variable {w w' : FrameWriter} {senders : Bool} {a : WriterAct} {f : RfrpFrame}

theorem work_step (frame : RfrpFrame → Nat) (h : w.step senders a = some w')
    (other : a ≠ .peerReads) :
    w'.work frame + 1 ≤ w.work frame := by
  unfold work
  cases moves_of_step h with
  | recv receiving popped =>
      obtain ⟨-, -, queue⟩ := Fifo.pop_eq_some popped
      simp only [queue, receiving, List.map_cons, List.sum_cons, WriterTask.work]
      omega
  | recvNone receiving =>
      simp only [receiving, WriterTask.work]
      omega
  | sent sending =>
      simp only [sending, Fifo.queue_push, List.map_append, List.sum_append, List.map_singleton,
        List.sum_singleton, WriterTask.work]
      omega
  | sendErr sending =>
      simp only [sending, WriterTask.work]
      omega
  | cancel _ live =>
      have some : 0 < WriterTask.work frame w.task := by
        cases task : w.task with
        | done => exact absurd task live
        | receiving | sending => exact Nat.succ_pos _
      have gone : WriterTask.work frame .done = 0 := rfl
      dsimp only
      rw [gone]
      omega
  | peerReads => exact absurd rfl other

theorem work_peerReads (frame : RfrpFrame → Nat) {wire : Fifo RfrpFrame}
    (popped : w.wire.pop = some (f, wire)) :
    ({ w with wire } : FrameWriter).work frame + frame f = w.work frame := by
  obtain ⟨-, -, queue⟩ := Fifo.pop_eq_some popped
  simp only [work, queue, List.map_cons, List.sum_cons]
  omega

theorem work_push (frame : RfrpFrame → Nat) (w : FrameWriter) (f : RfrpFrame) :
    ({ w with chan := w.chan.push f } : FrameWriter).work frame = w.work frame + frame f + 2 := by
  simp only [work, Fifo.queue_push, List.map_append, List.sum_append, List.map_singleton,
    List.sum_singleton]
  omega

end FrameWriter

def EndpointAct.costs : EndpointAct → Nat
  | .conn _ a => a.costs
  | .writer .peerReads => 0
  | _ => 1

def EndpointAct.brings (byte : Nat) : EndpointAct → Nat
  | .conn _ a => a.brings byte
  | _ => 0

namespace Endpoint

variable {τ : Type} (rates : Rates) {o : Owners} {e e' : Endpoint τ} {n : Nat} {a : EndpointAct}
  {f : RfrpFrame}

def linkWork (l : Link τ) : Nat :=
  l.conn.work rates.byte fun data => rates.frame (.newDataFrame data l.proxyId l.connId)

def work (e : Endpoint τ) : Nat :=
  e.tunnel.work rates.frame + (e.links.map (linkWork rates)).sum

theorem linkWork_spawn (l : Link τ) :
    linkWork rates (l.setConn l.conn.spawn) ≤ linkWork rates l + 5 := by
  simp only [linkWork, Link.setConn, Conn.spawn, Conn.work, ReadTask.work, WriteTask.work]
  omega

theorem linkWork_drop (l : Link τ) : linkWork rates (l.setConn l.conn.drop) ≤ linkWork rates l := by
  simp only [linkWork, Link.setConn, Conn.drop, Conn.work, ReadTask.work, WriteTask.work]
  omega

theorem work_setLink {l : Link τ} (here : e.links[n]? = some l) (l' : Link τ) :
    (e.setLink n l').work rates + linkWork rates l = e.work rates + linkWork rates l' := by
  have moved := Slots.sum_map_set (b := l') (linkWork rates) here
  simp only [work, setLink_tunnel, setLink_links]
  omega

theorem work_step (h : e.step o a = some e') (other : a ≠ .writer .peerReads) :
    e'.work rates + a.costs ≤ e.work rates + a.brings rates.byte := by
  cases moves_of_step h with
  | @conn n l a conn here move =>
      have paid := Conn.work_step (fun data some => rates.chunk data l.proxyId l.connId some) move
      have moved := work_setLink rates here (l.setConn conn)
      have same : linkWork rates (l.setConn conn) = conn.work rates.byte fun data =>
        rates.frame (.newDataFrame data l.proxyId l.connId) := rfl
      have before : linkWork rates l = l.conn.work rates.byte fun data =>
        rates.frame (.newDataFrame data l.proxyId l.connId) := rfl
      simp only [EndpointAct.costs, EndpointAct.brings]
      omega
  | @sendData n l data tunnel here hand sent =>
      obtain ⟨-, rfl⟩ := FrameWriter.send_eq_some sent
      have moved := Slots.sum_map_set (b := l.setReader .reading) (linkWork rates) here
      have queued := FrameWriter.work_push rates.frame e.tunnel
        (.newDataFrame data l.proxyId l.connId)
      have before : linkWork rates l = linkWork rates (l.setReader .reading) +
          rates.frame (.newDataFrame data l.proxyId l.connId) + 3 := by
        simp only [linkWork, Link.setReader, Conn.work, hand, ReadTask.work]
        omega
      simp only [work, setLink_tunnel, setLink_links, EndpointAct.costs, EndpointAct.brings]
      omega
  | @sendDataErr n l data here hand =>
      have moved := work_setLink rates here (l.setReader .cleanup)
      have before : linkWork rates (l.setReader .cleanup) + 1 ≤ linkWork rates l := by
        simp only [linkWork, Link.setReader, Conn.work, hand, ReadTask.work]
        omega
      simp only [EndpointAct.costs, EndpointAct.brings]
      omega
  | @remove n l here left =>
      have moved := Slots.sum_map_set (b := l.setReader .ending) (linkWork rates) here
      have before : linkWork rates (l.setReader .ending) + 1 = linkWork rates l := by
        simp only [linkWork, Link.setReader, Conn.work, left, ReadTask.work]
        omega
      simp only [work, setLink_tunnel, setLink_links, EndpointAct.costs, EndpointAct.brings]
      omega
  | @finish n l here left =>
      have moved := work_setLink rates here (l.setReader .done)
      have before : linkWork rates (l.setReader .done) + 1 = linkWork rates l := by
        simp only [linkWork, Link.setReader, Conn.work, left, ReadTask.work]
        omega
      simp only [EndpointAct.costs, EndpointAct.brings]
      omega
  | @writer a tunnel move =>
      have paid := FrameWriter.work_step rates.frame move fun same => other (same ▸ rfl)
      have one : (EndpointAct.writer a).costs ≤ 1 := by
        cases a <;> decide
      simp only [work, EndpointAct.brings]
      omega

theorem work_enqueue (h : e.enqueue f = some e') : e'.work rates = e.work rates + rates.frame f + 2 := by
  obtain ⟨-, rfl⟩ := enqueue_eq_some h
  simp only [work, FrameWriter.work_push]
  omega

theorem work_deliver {data : Bytes} (h : e.deliver n data = some e') :
    e'.work rates = e.work rates + chunkWork data := by
  obtain ⟨l, here, -, rfl⟩ := deliver_eq_some h
  have moved := work_setLink rates here
    (l.setConn { l.conn with chan := l.conn.chan.push data })
  have after : linkWork rates (l.setConn { l.conn with chan := l.conn.chan.push data }) =
      linkWork rates l + chunkWork data := by
    simp only [linkWork, Link.setConn, Conn.work, Fifo.queue_push, List.map_append, List.sum_append,
      List.map_singleton, List.sum_singleton]
    omega
  omega

theorem work_addLink (e : Endpoint τ) {most : Nat} (info : τ) (p : UInt32) (c : UInt64) (m : Nat)
    {conn : Conn}
    (new : conn.inbound = .empty ∧ conn.chan = .empty ∧ conn.held = [] ∧ conn.outbound = .empty)
    (tasks : ∀ sending, conn.reader.work sending + conn.writer.work = most) :
    (e.addLink info p c m conn).work rates = e.work rates + most := by
  obtain ⟨inbound, chan, held, outbound⟩ := new
  have total := tasks fun data => rates.frame (.newDataFrame data p c)
  simp only [work, addLink, List.map_append, List.sum_append, List.map_singleton, List.sum_singleton,
    linkWork, Conn.work, inbound, chan, held, outbound, Fifo.queue_empty, List.length_nil, List.map_nil,
    List.sum_nil]
  omega

end Endpoint

end Rfrp
