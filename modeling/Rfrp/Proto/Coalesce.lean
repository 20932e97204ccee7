import Rfrp.Lib.Fifo
import Rfrp.Proto.FrameTypes

/-!
# The frame writer

`spawn_write_task` of `rfrp_proto/src/coalesce.rs`: a channel of 256 frames and the task that
sends them on the tunnel socket, one at a time. `wire` is that socket's sending half: its log is
every frame sent so far, its queue what the other side has not read yet.
-/

namespace Rfrp

def channelCapacity : Nat := 256

inductive WriterTask
  | receiving
  | sending (f : RfrpFrame)
  | done
deriving DecidableEq, Repr

structure FrameWriter where
  chan : Fifo RfrpFrame
  task : WriterTask
  wire : Fifo RfrpFrame
  -- how many frames the socket takes before a send blocks
  sndBuf : Nat
  -- `abort` was called on the task's handle
  aborted : Bool
deriving DecidableEq, Repr

inductive WriterAct
  | recv
  | recvNone
  | sent
  | sendErr
  | cancel
  | peerReads
deriving DecidableEq, Repr

namespace FrameWriter

def spawn (sndBuf : Nat) : FrameWriter := ⟨.empty, .receiving, .empty, sndBuf, false⟩

def closed (w : FrameWriter) : Bool := w.task = .done

/-- `tx.send(frame).await` completing with success; while the channel is full it waits. -/
def send (w : FrameWriter) (f : RfrpFrame) : Option FrameWriter :=
  if w.closed = false ∧ w.chan.queue.length < channelCapacity then
    some { w with chan := w.chan.push f }
  else none

/-- `senders` says whether a clone of the sender is still alive. -/
def step (senders : Bool) (w : FrameWriter) : WriterAct → Option FrameWriter
  | .recv =>
      match w.task, w.chan.pop with
      | .receiving, some (f, chan) => some { w with chan, task := .sending f }
      | _, _ => none
  | .recvNone =>
      if w.task = .receiving ∧ w.chan.queue = [] ∧ senders = false then
        some { w with task := .done }
      else none
  | .sent =>
      match w.task with
      | .sending f =>
          if w.wire.queue.length < w.sndBuf then
            some { w with wire := w.wire.push f, task := .receiving }
          else none
      | _ => none
  | .sendErr =>
      match w.task with
      | .sending _ => some { w with task := .done }
      | _ => none
  -- an aborted task is dropped when it is next polled, at whichever await it stands
  | .cancel => if w.aborted ∧ w.task ≠ .done then some { w with task := .done } else none
  | .peerReads =>
      match w.wire.pop with
      | some (_, wire) => some { w with wire }
      | none => none

def inHand (w : FrameWriter) : List RfrpFrame :=
  match w.task with
  | .sending f => [f]
  | _ => []

structure Ok (w : FrameWriter) : Prop where
  sent_isPrefix : w.wire.log <+: w.chan.received
  sent_eq : w.task ≠ .done → w.wire.log ++ w.inHand = w.chan.received

variable {w w' : FrameWriter} {f : RfrpFrame} {senders : Bool} {a : WriterAct}

theorem send_eq_some (h : w.send f = some w') :
    w.task ≠ .done ∧ w' = { w with chan := w.chan.push f } := by
  unfold send closed at h
  split at h
  · rename_i free
    exact ⟨by simpa using free.1, (Option.some.inj h).symm⟩
  · cases h

theorem send_log (h : w.send f = some w') : w'.chan.log = w.chan.log ++ [f] := by
  obtain ⟨-, rfl⟩ := send_eq_some h
  rfl

/-- The steps of the write task and of the peer's socket, one constructor each. -/
inductive Moves (senders : Bool) (w : FrameWriter) : WriterAct → FrameWriter → Prop
  | recv {f : RfrpFrame} {chan : Fifo RfrpFrame} (receiving : w.task = .receiving)
      (popped : w.chan.pop = some (f, chan)) :
      Moves senders w .recv { w with chan, task := .sending f }
  | recvNone (receiving : w.task = .receiving) (empty : w.chan.queue = [])
      (gone : senders = false) : Moves senders w .recvNone { w with task := .done }
  | sent {f : RfrpFrame} (sending : w.task = .sending f)
      (room : w.wire.queue.length < w.sndBuf) :
      Moves senders w .sent { w with wire := w.wire.push f, task := .receiving }
  | sendErr {f : RfrpFrame} (sending : w.task = .sending f) :
      Moves senders w .sendErr { w with task := .done }
  | cancel (aborted : w.aborted = true) (live : w.task ≠ .done) :
      Moves senders w .cancel { w with task := .done }
  | peerReads {f : RfrpFrame} {wire : Fifo RfrpFrame} (popped : w.wire.pop = some (f, wire)) :
      Moves senders w .peerReads { w with wire }

theorem moves_of_step (h : w.step senders a = some w') : Moves senders w a w' := by
  cases a <;> simp only [step] at h
  case recv =>
    split at h
    · rename_i receiving popped
      cases h
      exact .recv receiving popped
    · cases h
  case recvNone =>
    obtain ⟨⟨receiving, empty, gone⟩, moved⟩ := Option.ite_none_right_eq_some.mp h
    cases moved
    exact .recvNone receiving empty gone
  case sent =>
    split at h
    · rename_i sending
      obtain ⟨room, moved⟩ := Option.ite_none_right_eq_some.mp h
      cases moved
      exact .sent sending room
    · cases h
  case sendErr =>
    split at h
    · rename_i sending
      cases h
      exact .sendErr sending
    · cases h
  case cancel =>
    obtain ⟨⟨aborted, live⟩, moved⟩ := Option.ite_none_right_eq_some.mp h
    cases moved
    exact .cancel aborted live
  case peerReads =>
    split at h
    · rename_i popped
      cases h
      exact .peerReads popped
    · cases h

theorem step_log (h : w.step senders a = some w') : w'.chan.log = w.chan.log := by
  cases moves_of_step h with
  | recv _ popped => exact (Fifo.pop_eq_some popped).1
  | _ => rfl

theorem step_wire (h : w.step senders a = some w') (other : a ≠ .peerReads) :
    w'.wire.received = w.wire.received := by
  cases moves_of_step h with
  | peerReads => exact absurd rfl other
  | sent => exact Fifo.received_push
  | _ => rfl

theorem step_done (h : w.step senders a = some w') (done : w.task = .done) : w'.task = .done := by
  cases moves_of_step h with
  | recv receiving =>
      rw [done] at receiving
      cases receiving
  | sent sending =>
      rw [done] at sending
      cases sending
  | peerReads => exact done
  | _ => rfl

theorem ok_spawn (sndBuf : Nat) : (spawn sndBuf).Ok :=
  ⟨List.nil_prefix, fun _ => rfl⟩

theorem Ok.send (ok : w.Ok) (h : w.send f = some w') : w'.Ok := by
  obtain ⟨-, rfl⟩ := send_eq_some h
  exact ⟨by simpa using ok.sent_isPrefix, by simpa [inHand] using ok.sent_eq⟩

theorem Ok.step (ok : w.Ok) (h : w.step senders a = some w') : w'.Ok := by
  obtain ⟨pre, eq⟩ := ok
  cases moves_of_step h with
  | recv receiving popped =>
      obtain ⟨-, received, -⟩ := Fifo.pop_eq_some popped
      have whole := eq (by simp [receiving])
      simp only [inHand, receiving, List.append_nil] at whole
      constructor
      · rw [received, ← whole]
        exact List.prefix_append _ _
      · intro live
        rw [received, ← whole]
        rfl
  | sent sending =>
      have whole := eq (by simp [sending])
      simp only [inHand, sending] at whole
      exact ⟨by simp [whole], fun _ => by simpa [inHand] using whole⟩
  | peerReads popped =>
      obtain ⟨log, -, -⟩ := Fifo.pop_eq_some popped
      constructor
      · rw [log]
        exact pre
      · intro live
        rw [log]
        exact eq live
  | recvNone | sendErr | cancel => exact ⟨pre, by simp⟩

theorem Ok.wire_isPrefix (ok : w.Ok) : w.wire.log <+: w.chan.log :=
  ok.sent_isPrefix.trans (Fifo.received_isPrefix _)

end FrameWriter

end Rfrp
