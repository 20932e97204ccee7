import Rfrp.Proto.ConnTasks

/-!
# What the tasks of a connection preserve

Order and integrity of both directions of one connection: the chunks read are the peer's bytes
cut into pieces, and what reaches the socket is a prefix of what the channel accepted.
-/

namespace Rfrp.Conn

variable {c c' : Conn} {senders : Bool} {a : ConnAct} {data : Bytes}

theorem send_eq_some (h : c.send data = some c') :
    c.writer ≠ .done ∧ c.chan.queue.length < channelCapacity ∧
      c' = { c with chan := c.chan.push data } := by
  unfold send closed at h
  split at h
  · rename_i free
    exact ⟨by simpa using free.1, free.2, (Option.some.inj h).symm⟩
  · cases h

/-- The steps of the two tasks, of the peer and of the socket, one constructor each. -/
inductive Moves (senders : Bool) (c : Conn) : ConnAct → Conn → Prop
  | peerSends {bytes : Bytes} (sending : c.eof = false) :
      Moves senders c (.peerSends bytes) { c with inbound := c.inbound.pushAll bytes }
  | peerShutdown : Moves senders c .peerShutdown { c with eof := true }
  | peerReads {k : Nat} :
      Moves senders c (.peerReads k) { c with outbound := c.outbound.advance k }
  | read {k : Nat} (reading : c.reader = .reading) (some : 0 < k) (fits : k ≤ readBufCapacity)
      (there : k ≤ c.inbound.queue.length) :
      Moves senders c (.read k)
        { c with
          inbound := c.inbound.advance k
          reads := c.reads ++ [c.inbound.queue.take k]
          reader := .sending (c.inbound.queue.take k) }
  | readEof (reading : c.reader = .reading) (empty : c.inbound.queue = []) (eof : c.eof = true) :
      Moves senders c .readEof { c with reader := .cleanup }
  | readErr (reading : c.reader = .reading) : Moves senders c .readErr { c with reader := .cleanup }
  | recv {data : Bytes} {chan : Fifo Bytes} (receiving : c.writer = .receiving)
      (popped : c.chan.pop = some (data, chan)) :
      Moves senders c .recv { c with chan, held := c.held ++ data, writer := .writing data }
  | recvNone (receiving : c.writer = .receiving) (empty : c.chan.queue = [])
      (gone : senders = false) : Moves senders c .recvNone { c with writer := .closing }
  | push {k : Nat}
      (handing : (∃ data, c.writer = .writing data) ∨ c.writer = .flushing ∨ c.writer = .closing)
      (some : 0 < k) (there : k ≤ c.held.length)
      (room : c.outbound.queue.length + k ≤ c.sndBuf) :
      Moves senders c (.push k)
        { c with outbound := c.outbound.pushAll (c.held.take k), held := c.held.drop k }
  | writeDone {data : Bytes} (writing : c.writer = .writing data)
      (fits : c.held.length ≤ bufWriterCapacity) :
      Moves senders c .writeDone { c with written := c.written ++ [data], writer := .testing }
  | writeErr {k : Nat} {data : Bytes} (writing : c.writer = .writing data) :
      Moves senders c (.writeErr k) { c with held := c.held.take k, writer := .closing }
  | testEmpty (testing : c.writer = .testing) (empty : c.chan.queue = []) :
      Moves senders c .test { c with writer := .flushing }
  | testMore (testing : c.writer = .testing) (more : c.chan.queue ≠ []) :
      Moves senders c .test { c with writer := .receiving }
  | flushDone (flushing : c.writer = .flushing) (empty : c.held = []) :
      Moves senders c .flushDone { c with writer := .receiving }
  | flushErr (flushing : c.writer = .flushing) :
      Moves senders c .flushErr { c with writer := .receiving }
  | closeDone (closing : c.writer = .closing) (empty : c.held = []) :
      Moves senders c .closeDone { c with writer := .done }
  | closeErr (closing : c.writer = .closing) : Moves senders c .closeErr { c with writer := .done }

theorem moves_of_step (h : c.step senders a = some c') : Moves senders c a c' := by
  cases a <;> simp only [step] at h
  case peerSends =>
    obtain ⟨sending, moved⟩ := Option.ite_none_right_eq_some.mp h
    cases moved
    exact .peerSends sending
  case peerShutdown =>
    cases h
    exact .peerShutdown
  case peerReads =>
    cases h
    exact .peerReads
  case read =>
    obtain ⟨⟨reading, some, fits, there⟩, moved⟩ := Option.ite_none_right_eq_some.mp h
    cases moved
    exact .read reading some fits there
  case readEof =>
    obtain ⟨⟨reading, empty, eof⟩, moved⟩ := Option.ite_none_right_eq_some.mp h
    cases moved
    exact .readEof reading empty eof
  case readErr =>
    obtain ⟨reading, moved⟩ := Option.ite_none_right_eq_some.mp h
    cases moved
    exact .readErr reading
  case recv =>
    split at h
    · rename_i receiving popped
      cases h
      exact .recv receiving popped
    · cases h
  case recvNone =>
    obtain ⟨⟨receiving, empty, gone⟩, moved⟩ := Option.ite_none_right_eq_some.mp h
    cases moved
    exact .recvNone receiving empty gone
  case push k =>
    have push : ((∃ data, c.writer = .writing data) ∨ c.writer = .flushing ∨
        c.writer = .closing) → (if 0 < k ∧ k ≤ c.held.length ∧
          c.outbound.queue.length + k ≤ c.sndBuf then some { c with
            outbound := c.outbound.pushAll (c.held.take k), held := c.held.drop k }
        else none) = some c' → Moves senders c (.push k) c' := by
      intro handing h
      obtain ⟨⟨some, there, room⟩, moved⟩ := Option.ite_none_right_eq_some.mp h
      cases moved
      exact .push handing some there room
    split at h
    · rename_i data writing
      exact push (Or.inl ⟨data, writing⟩) h
    · rename_i flushing
      exact push (Or.inr (Or.inl flushing)) h
    · rename_i closing
      exact push (Or.inr (Or.inr closing)) h
    · cases h
  case writeDone =>
    split at h
    · rename_i writing
      obtain ⟨fits, moved⟩ := Option.ite_none_right_eq_some.mp h
      cases moved
      exact .writeDone writing fits
    · cases h
  case writeErr =>
    split at h
    · rename_i writing
      cases h
      exact .writeErr writing
    · cases h
  case test =>
    obtain ⟨testing, moved⟩ := Option.ite_none_right_eq_some.mp h
    cases moved
    by_cases empty : c.chan.queue = []
    · rw [if_pos empty]
      exact .testEmpty testing empty
    · rw [if_neg empty]
      exact .testMore testing empty
  case flushDone =>
    obtain ⟨⟨flushing, empty⟩, moved⟩ := Option.ite_none_right_eq_some.mp h
    cases moved
    exact .flushDone flushing empty
  case flushErr =>
    obtain ⟨flushing, moved⟩ := Option.ite_none_right_eq_some.mp h
    cases moved
    exact .flushErr flushing
  case closeDone =>
    obtain ⟨⟨closing, empty⟩, moved⟩ := Option.ite_none_right_eq_some.mp h
    cases moved
    exact .closeDone closing empty
  case closeErr =>
    obtain ⟨closing, moved⟩ := Option.ite_none_right_eq_some.mp h
    cases moved
    exact .closeErr closing

theorem step_chan_log (h : c.step senders a = some c') : c'.chan.log = c.chan.log := by
  cases moves_of_step h with
  | recv _ popped => exact (Fifo.pop_eq_some popped).1
  | _ => rfl

theorem step_reader (h : c.step senders a = some c') :
    (c'.reader = c.reader ∧ c'.reads = c.reads) ∨
    (c.reader = .reading ∧ ∃ data, c'.reader = .sending data ∧ c'.reads = c.reads ++ [data]) ∨
    (c.reader = .reading ∧ c'.reader = .cleanup ∧ c'.reads = c.reads) := by
  cases moves_of_step h with
  | read reading => exact Or.inr (Or.inl ⟨reading, _, rfl, rfl⟩)
  | readEof reading | readErr reading => exact Or.inr (Or.inr ⟨reading, rfl, rfl⟩)
  | _ => exact Or.inl ⟨rfl, rfl⟩

theorem step_writer (h : c.step senders a = some c') :
    c'.writer = c.writer ∨ (c.writer ≠ .unspawned ∧ c.writer ≠ .done ∧ c'.writer ≠ .unspawned) := by
  have moved : ∀ {w w' : WriteTask}, c.writer = w → w ≠ .unspawned → w ≠ .done →
      w' ≠ .unspawned → c.writer ≠ .unspawned ∧ c.writer ≠ .done ∧ w' ≠ .unspawned := by
    rintro w w' rfl new ended after
    exact ⟨new, ended, after⟩
  cases moves_of_step h with
  | recv before | recvNone before | writeDone before | writeErr before | testEmpty before
  | testMore before | flushDone before | flushErr before | closeDone before | closeErr before =>
      exact Or.inr (moved before (by simp) (by simp) (by simp))
  | _ => exact Or.inl rfl

def Serving (c : Conn) : Prop := c.writer ≠ .closing ∧ c.writer ≠ .done

structure Ok (c : Conn) : Prop where
  reads_eq : c.reads.flatten = c.inbound.received
  handed : c.outbound.log ++ c.held <+: c.chan.received.flatten
  written : c.written ++ c.inWrite <+: c.chan.received
  handed_eq : c.Serving → c.outbound.log ++ c.held = c.chan.received.flatten
  written_eq : c.Serving → c.written ++ c.inWrite = c.chan.received
  spawned : c.reader = .unspawned ↔ c.writer = .unspawned
  unread : c.reader = .unspawned → c.reads = []

theorem ok_fresh (sndBuf : Nat) : (fresh sndBuf).Ok :=
  ⟨rfl, List.nil_prefix, List.nil_prefix, fun _ => rfl, fun _ => rfl, by simp [fresh], fun _ => rfl⟩

theorem Ok.send (ok : c.Ok) (h : c.send data = some c') : c'.Ok := by
  obtain ⟨-, -, rfl⟩ := send_eq_some h
  exact ⟨ok.reads_eq, by simpa using ok.handed, by simpa [inWrite] using ok.written,
    by simpa [Serving] using ok.handed_eq, by simpa [inWrite, Serving] using ok.written_eq,
    ok.spawned, ok.unread⟩

theorem Ok.reader (ok : c.Ok) {r : ReadTask} (old : c.reader ≠ .unspawned) (new : r ≠ .unspawned) :
    Ok { c with reader := r } :=
  { ok with
    spawned := ⟨fun h => absurd h new, fun h => absurd (ok.spawned.mpr h) old⟩
    unread := fun h => absurd h new }

theorem Ok.writer (ok : c.Ok) {w : WriteTask} (serving : c.Serving) (idle : c.inWrite = [])
    (stays : ∀ d, w ≠ .writing d) (spawned : c.reader = .unspawned ↔ w = .unspawned) :
    Ok { c with writer := w } := by
  have hand : inWrite { c with writer := w } = [] := by
    cases w <;> simp_all [inWrite]
  have whole := ok.written_eq serving
  rw [idle] at whole
  exact { ok with
    written := by rw [hand, whole]
    handed_eq := fun _ => ok.handed_eq serving
    written_eq := fun _ => by rw [hand]; exact whole
    spawned }

theorem Ok.close (ok : c.Ok) {w : WriteTask} (finished : w = .closing ∨ w = .done) {held : Bytes}
    (fewer : held <+: c.held) (spawned : c.reader ≠ .unspawned) : Ok { c with writer := w, held } := by
  have hand : inWrite { c with writer := w, held } = [] := by
    rcases finished with rfl | rfl <;> rfl
  have stopped : ¬ Serving { c with writer := w, held } := by
    rcases finished with rfl | rfl <;> simp [Serving]
  exact { reads_eq := ok.reads_eq
          handed := ((List.prefix_append_right_inj _).mpr fewer).trans ok.handed
          written := by
            rw [hand, List.append_nil]
            exact (List.prefix_append _ _).trans ok.written
          handed_eq := fun serving => absurd serving stopped
          written_eq := fun serving => absurd serving stopped
          spawned := by rcases finished with rfl | rfl <;> simpa using spawned
          unread := ok.unread }

theorem Ok.spawn (ok : c.Ok) (waiting : c.writer = .unspawned) : c.spawn.Ok := by
  have serving : c.Serving := by simp [Serving, waiting]
  have whole := ok.written_eq serving
  simp only [inWrite, waiting, List.append_nil] at whole
  exact { ok with
    written := by simp [Conn.spawn, inWrite, whole]
    handed_eq := fun _ => ok.handed_eq serving
    written_eq := fun _ => by simp [Conn.spawn, inWrite, whole]
    spawned := by simp [Conn.spawn]
    unread := by simp [Conn.spawn] }

theorem Ok.drop (ok : c.Ok) : c.drop.Ok :=
  { ok with
    written := by
      simpa [Conn.drop, inWrite] using (List.prefix_append _ _).trans ok.written
    handed_eq := fun serving => by simp [Serving, Conn.drop] at serving
    written_eq := fun serving => by simp [Serving, Conn.drop] at serving
    spawned := by simp [Conn.drop]
    unread := by simp [Conn.drop] }

theorem Ok.push (ok : c.Ok) (k : Nat) :
    Ok { c with outbound := c.outbound.pushAll (c.held.take k), held := c.held.drop k } := by
  have moved : (c.outbound.pushAll (c.held.take k)).log ++ c.held.drop k =
      c.outbound.log ++ c.held := by
    simp [List.append_assoc]
  exact { ok with
    handed := by
      rw [moved]
      exact ok.handed
    handed_eq := fun serving => by
      rw [moved]
      exact ok.handed_eq serving }

theorem Ok.recv (ok : c.Ok) {chan : Fifo Bytes} (receiving : c.writer = .receiving)
    (popped : c.chan.pop = some (data, chan)) :
    Ok { c with chan, held := c.held ++ data, writer := .writing data } := by
  obtain ⟨-, received, -⟩ := Fifo.pop_eq_some popped
  have serving : c.Serving := by simp [Serving, receiving]
  have chunks := ok.written_eq serving
  have bytes := ok.handed_eq serving
  simp only [inWrite, receiving, List.append_nil] at chunks
  have chunks' : c.written ++ [data] = chan.received := by rw [received, chunks]
  have bytes' : c.outbound.log ++ (c.held ++ data) = chan.received.flatten := by
    rw [received, ← List.append_assoc, bytes, List.flatten_append, List.flatten_singleton]
  exact { reads_eq := ok.reads_eq
          handed := by rw [bytes']
          written := by
            rw [← chunks']
            exact List.prefix_rfl
          handed_eq := fun _ => bytes'
          written_eq := fun _ => chunks'
          spawned := by simpa [receiving] using ok.spawned
          unread := ok.unread }

theorem Ok.writeDone (ok : c.Ok) (writing : c.writer = .writing data) :
    Ok { c with written := c.written ++ [data], writer := .testing } := by
  have serving : c.Serving := by simp [Serving, writing]
  have whole := ok.written_eq serving
  simp only [inWrite, writing] at whole
  exact { ok with
    written := by simp [inWrite, whole]
    handed_eq := fun _ => ok.handed_eq serving
    written_eq := fun _ => by simp [inWrite, whole]
    spawned := by simpa [writing] using ok.spawned }

theorem Ok.step (ok : c.Ok) (h : c.step senders a = some c') : c'.Ok := by
  have running : ∀ {w : WriteTask}, c.writer = w → w ≠ .unspawned → c.reader ≠ .unspawned := by
    rintro w rfl spawned new
    exact spawned (ok.spawned.mp new)
  have turns : ∀ {w w' : WriteTask}, c.writer = w → w ≠ .unspawned → w' ≠ .unspawned →
      (c.reader = .unspawned ↔ w' = .unspawned) := by
    intro w w' before spawned after
    exact iff_of_false (running before spawned) after
  cases moves_of_step h with
  | peerSends => exact { ok with reads_eq := by simpa using ok.reads_eq }
  | peerShutdown | peerReads => exact { ok with }
  | read reading =>
      have started : c.reader ≠ .unspawned := by simp [reading]
      exact { ok with
        reads_eq := by simp [Fifo.received_advance, ok.reads_eq]
        spawned := iff_of_false (by simp) fun new => started (ok.spawned.mpr new)
        unread := by simp }
  | readEof reading | readErr reading => exact ok.reader (by simp [reading]) (by simp)
  | recv receiving popped => exact ok.recv receiving popped
  | push => exact ok.push _
  | writeDone writing => exact ok.writeDone writing
  | writeErr before =>
      exact ok.close (Or.inl rfl) (List.take_prefix _ _) (running before (by simp))
  | recvNone before => exact ok.close (Or.inl rfl) (List.prefix_refl _) (running before (by simp))
  | testEmpty before | testMore before | flushDone before | flushErr before =>
      exact ok.writer (by simp [Serving, before]) (by simp [inWrite, before]) (by simp)
        (turns before (by simp) (by simp))
  | closeDone before | closeErr before =>
      exact ok.close (Or.inr rfl) (List.prefix_refl _) (running before (by simp))

end Rfrp.Conn
