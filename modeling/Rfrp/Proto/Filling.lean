import Rfrp.Proto.Endpoint
import Rfrp.Lib.Transition

/-!
# Filling the tunnel

What one busy connection does to a side whose frames are not read: its bytes go on becoming frames
until the socket, the frame writer's hand and the frame channel are full.
-/

namespace Rfrp

open Transition

def datum : RfrpFrame := .newDataFrame [0] 0 0

structure FrameWriter.Holds (q : Nat) (task : WriterTask) (wire : List RfrpFrame)
    (w : FrameWriter) : Prop where
  queue : w.chan.queue = List.replicate q datum
  task : w.task = task
  wire : w.wire.queue = wire
  sndBuf : w.sndBuf = 1
  kept : w.aborted = false

namespace Conn

structure Listens (c : Conn) : Prop where
  reader : c.reader = .reading
  read : c.inbound.queue = []
  eof : c.eof = false

def Unread {β : Type} (W : Conn → β → Prop) : Prop :=
  ∀ (c : Conn) (b : β) (inbound : Fifo UInt8) (reads : List Bytes) (reader : ReadTask),
    W c b → W { c with inbound, reads, reader } b

end Conn

instance : DecidablePred Conn.Listens := fun c =>
  decidable_of_iff (c.reader = .reading ∧ c.inbound.queue = [] ∧ c.eof = false)
    ⟨fun ⟨reader, read, eof⟩ => ⟨reader, read, eof⟩,
      fun ⟨reader, read, eof⟩ => ⟨reader, read, eof⟩⟩

instance (q : Nat) (task : WriterTask) (wire : List RfrpFrame) :
    DecidablePred (FrameWriter.Holds q task wire) := fun w =>
  decidable_of_iff (w.chan.queue = List.replicate q datum ∧ w.task = task ∧ w.wire.queue = wire ∧
      w.sndBuf = 1 ∧ w.aborted = false)
    ⟨fun ⟨queue, task, wire, buf, kept⟩ => ⟨queue, task, wire, buf, kept⟩,
      fun ⟨queue, task, wire, buf, kept⟩ => ⟨queue, task, wire, buf, kept⟩⟩

namespace FrameWriter.Holds

variable {w : FrameWriter} {q : Nat} {task : WriterTask} {wire : List RfrpFrame}

theorem send (holds : w.Holds q task wire) (live : task ≠ .done) (room : q < channelCapacity) :
    ∃ w', w.send datum = some w' ∧ w'.Holds (q + 1) task wire := by
  obtain ⟨queue, rfl, sent, buf, kept⟩ := holds
  refine ⟨{ w with chan := w.chan.push datum }, ?_, ⟨?_, rfl, sent, buf, kept⟩⟩
  · simp [FrameWriter.send, FrameWriter.closed, live, queue, room]
  · simp [queue, List.replicate_succ']

theorem recv (senders : Bool) (holds : w.Holds (q + 1) .receiving wire) :
    ∃ w', w.step senders .recv = some w' ∧ w'.Holds q (.sending datum) wire := by
  obtain ⟨queue, task, sent, buf, kept⟩ := holds
  obtain ⟨f, chan, popped⟩ := Fifo.exists_pop (f := w.chan) (by simp [queue])
  have rest := (Fifo.pop_eq_some popped).2.2
  rw [queue, List.replicate_succ, List.cons.injEq] at rest
  obtain ⟨rfl, rest⟩ := rest
  refine ⟨{ w with chan, task := .sending datum }, ?_, ⟨rest.symm, rfl, sent, buf, kept⟩⟩
  simp [FrameWriter.step, task, popped]

theorem sent (senders : Bool) (holds : w.Holds q (.sending datum) []) :
    ∃ w', w.step senders .sent = some w' ∧ w'.Holds q .receiving [datum] := by
  obtain ⟨queue, task, wire, buf, kept⟩ := holds
  refine ⟨{ w with wire := w.wire.push datum, task := .receiving }, ?_,
    ⟨queue, rfl, by simp [wire], buf, kept⟩⟩
  simp [FrameWriter.step, task, wire, buf]

theorem read (senders : Bool) {f : RfrpFrame} (holds : w.Holds q task (f :: wire)) :
    ∃ tail w', w.wire.pop = some (f, tail) ∧ w.step senders .peerReads = some w' ∧
      w'.Holds q task wire := by
  obtain ⟨queue, task, sent, buf, kept⟩ := holds
  obtain ⟨g, tail, popped⟩ := Fifo.exists_pop (f := w.wire) (by simp [sent])
  have rest := (Fifo.pop_eq_some popped).2.2
  rw [sent, List.cons.injEq] at rest
  obtain ⟨rfl, rest⟩ := rest
  refine ⟨tail, { w with wire := tail }, popped, ?_, ⟨queue, task, rest.symm, buf, kept⟩⟩
  simp [FrameWriter.step, popped]

theorem carry (f : RfrpFrame) (holds : w.Holds 0 .receiving []) :
    ∃ w₁ w₂ w₃, w.send f = some w₁ ∧ (∀ senders, w₁.step senders .recv = some w₂) ∧
      (∀ senders, w₂.step senders .sent = some w₃) ∧ w₃.Holds 0 .receiving [f] := by
  obtain ⟨queue, task, wire, buf, kept⟩ := holds
  have queue : w.chan.queue = [] := queue
  have capacity : 0 < channelCapacity := by decide
  obtain ⟨g, chan, popped⟩ := Fifo.exists_pop (f := w.chan.push f) (by simp)
  have rest := (Fifo.pop_eq_some popped).2.2
  rw [Fifo.queue_push, queue, List.nil_append, List.cons.injEq] at rest
  obtain ⟨rfl, rest⟩ := rest
  refine ⟨{ w with chan := w.chan.push f }, { w with chan, task := .sending f },
    { w with chan, wire := w.wire.push f }, ?_, ?_, ?_, rest.symm, task, by simp [wire], buf, kept⟩
  · simp [FrameWriter.send, FrameWriter.closed, task, queue, capacity]
  · simp [FrameWriter.step, task, popped]
  · simp [FrameWriter.step, wire, buf, task]

end FrameWriter.Holds

namespace Endpoint

variable {τ : Type}

/-- The first connection is number `0` of proxy `0` and its read task waits; of its writing half and
of the other connections `W` holds. -/
def leading (W : Conn → List (Link τ) → Prop) (links : List (Link τ)) : Prop :=
  ∃ l rest, links = l :: rest ∧ l.proxyId = 0 ∧ l.connId = 0 ∧ l.map = 0 ∧ l.conn.Listens ∧
    W l.conn rest

instance {W : Conn → List (Link τ) → Prop} [∀ c rest, Decidable (W c rest)] :
    DecidablePred (leading W) := fun links =>
  match links with
  | [] => .isFalse (by simp [leading])
  | l :: rest => decidable_of_iff
      (l.proxyId = 0 ∧ l.connId = 0 ∧ l.map = 0 ∧ l.conn.Listens ∧ W l.conn rest)
      (by simp [leading])

structure Holds (W : Conn → List (Link τ) → Prop) (q : Nat) (task : WriterTask)
    (wire : List RfrpFrame) (e : Endpoint τ) : Prop where
  tunnel : e.tunnel.Holds q task wire
  link : leading W e.links
  entry : e.lookup 0 0 = some 0

instance {W : Conn → List (Link τ) → Prop} [∀ c rest, Decidable (W c rest)] (q : Nat)
    (task : WriterTask) (wire : List RfrpFrame) : DecidablePred (Holds W q task wire) := fun e =>
  decidable_of_iff (e.tunnel.Holds q task wire ∧ leading W e.links ∧ e.lookup 0 0 = some 0)
    ⟨fun ⟨tunnel, link, entry⟩ => ⟨tunnel, link, entry⟩,
      fun ⟨tunnel, link, entry⟩ => ⟨tunnel, link, entry⟩⟩

/-- Steps of this side alone that give its peers nothing. -/
def own (_ : Endpoint τ) (a : EndpointAct) : Prop := a ≠ .writer .peerReads ∧ a.pushes = false

instance (e : Endpoint τ) (a : EndpointAct) : Decidable (e.own a) :=
  inferInstanceAs (Decidable (_ ∧ _))

variable {W : Conn → List (Link τ) → Prop} {q : Nat} {task : WriterTask} {wire : List RfrpFrame} (o : Owners)

theorem holds_feed (steady : Conn.Unread W) (live : task ≠ .done) (room : q < channelCapacity) :
    Leads (step o) own (Holds W q task wire ) (Holds W (q + 1) task wire) := by
  intro e holds
  obtain ⟨l, rest, links, proxyId, connId, map, ⟨reader, read, eof⟩, write⟩ := holds.link
  obtain ⟨tunnel, sent, held⟩ := holds.tunnel.send live room
  have capacity : 1 ≤ readBufCapacity := by decide
  have fed : (l.conn.inbound.pushAll [0]).queue = [0] := by simp [read]
  let conn : Conn := { l.conn with
    inbound := (l.conn.inbound.pushAll [0]).advance 1, reads := l.conn.reads ++ [[0]]
    reader := .reading }
  refine ⟨{ e with tunnel, links := l.setConn conn :: rest }, run_of_exec
    [.conn 0 (.peerSends [0]), .conn 0 (.read 1), .sendData 0] ?_, ⟨held, ?_, holds.entry⟩⟩
  · have frame : RfrpFrame.newDataFrame [0] l.proxyId l.connId = datum := by
      rw [proxyId, connId]
      rfl
    simp [exec, guarded, own, EndpointAct.pushes, ConnAct.pushes, step, links, Conn.step, eof,
      reader, fed, capacity, setLink, Link.setConn, Link.setReader, frame, sent, conn]
  · refine ⟨l.setConn conn, rest, rfl, proxyId, connId, map, ⟨rfl, ?_, eof⟩, steady _ _ _ _ _ write⟩
    simp [conn, Link.setConn, Fifo.queue_advance, fed]

theorem holds_recv :
    Leads (step o) own (Holds W (q + 1) .receiving wire )
      (Holds W q (.sending datum) wire) := by
  apply Leads.of_step
  intro e holds
  obtain ⟨tunnel, taken, held⟩ := holds.tunnel.recv (e.tunnelSenders o)
  refine ⟨.writer .recv, { e with tunnel }, by simp [own, EndpointAct.pushes], ?_, held, holds.link, holds.entry⟩
  simp [step, taken]

theorem holds_sent :
    Leads (step o) own (Holds W q (.sending datum) [] )
      (Holds W q .receiving [datum]) := by
  apply Leads.of_step
  intro e holds
  obtain ⟨tunnel, taken, held⟩ := holds.tunnel.sent (e.tunnelSenders o)
  refine ⟨.writer .sent, { e with tunnel }, by simp [own, EndpointAct.pushes], ?_, held, holds.link, holds.entry⟩
  simp [step, taken]

theorem holds_carry (steady : Conn.Unread W) :
    Leads (step o) own (Holds W 0 .receiving [] )
      (Holds W 0 .receiving [datum]) :=
  ((holds_feed o steady (by simp) (by decide)).trans (holds_recv o)).trans (holds_sent o)

theorem holds_full (steady : Conn.Unread W) :
    Leads (step o) own (Holds W 0 .receiving [] )
      (Holds W channelCapacity (.sending datum) [datum]) := by
  have hand : Leads (step o) own (Holds W 0 .receiving [datum] )
      (Holds W 0 (.sending datum) [datum]) :=
    (holds_feed o steady (by simp) (by decide)).trans (holds_recv o)
  have fill : Leads (step o) own (Holds W 0 (.sending datum) [datum] )
      (Holds W channelCapacity (.sending datum) [datum]) :=
    Leads.iterate (P := fun k => Holds W k (.sending datum) [datum]) fun k less =>
      holds_feed o steady (by simp) less
  exact ((holds_carry o steady).trans hand).trans fill

end Endpoint

end Rfrp
