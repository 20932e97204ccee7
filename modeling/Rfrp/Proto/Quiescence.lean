import Rfrp.Proto.EndpointLaws

/-!
# Quiescence

An endpoint is parked when none of its tasks can move, and drained when nothing is in flight in
its channels and sockets. In such a state each task stands at one of few awaits.
-/

namespace Rfrp

variable {τ : Type}

namespace Conn

/-- Nothing is in flight: what the peer has sent is read as long as the read task lives, what was
queued is written as long as the write task lives, and the peer has read what was written. -/
def Drained (c : Conn) : Prop :=
  (c.reader ≠ .done → c.inbound.queue = []) ∧
    (c.writer ≠ .done → c.chan.queue = [] ∧ c.held = []) ∧ c.outbound.queue = []

def quiet (senders : Bool) (c : Conn) : Bool :=
  c.outbound.queue = [] ∧
    (c.reader = .done ∨
      c.inbound.queue = [] ∧ (c.reader = .unspawned ∨ c.reader = .reading ∧ c.eof = false)) ∧
    (c.writer = .done ∨
      c.chan.queue = [] ∧ c.held = [] ∧
        (c.writer = .unspawned ∨ c.writer = .receiving ∧ senders = true))

theorem step_of_quiet {c : Conn} {senders : Bool} {a : ConnAct} (quiet : c.quiet senders = true)
    (task : a.isTask = true) : c.step senders a = none := by
  simp only [Conn.quiet, decide_eq_true_eq] at quiet
  obtain ⟨-, reader, writer⟩ := quiet
  cases a <;> simp only [ConnAct.isTask, ConnAct.fails, Bool.not_true, Bool.false_eq_true] at task
  case read k =>
    rcases reader with finished | ⟨empty, waits | ⟨waits, -⟩⟩
    · simp [step, finished]
    · simp [step, waits]
    · simp [step, empty]
      omega
  case readEof => rcases reader with finished | ⟨empty, waits | ⟨waits, open'⟩⟩ <;> simp [step, *]
  case recv =>
    rcases writer with finished | ⟨empty, -, waits | ⟨waits, -⟩⟩
    · simp [step, finished]
    · simp [step, waits]
    · simp [step, Fifo.pop_eq_none.mpr empty]
  all_goals rcases writer with finished | ⟨empty, held, waits | ⟨waits, alive⟩⟩ <;> simp [step, *]

theorem reader_of_quiet {c : Conn} {senders : Bool} (quiet : c.quiet senders = true) :
    c.reader = .unspawned ∨ c.reader = .reading ∨ c.reader = .done := by
  simp only [Conn.quiet, decide_eq_true_eq] at quiet
  obtain ⟨-, finished | ⟨-, waits | ⟨waits, -⟩⟩, -⟩ := quiet
  · exact Or.inr (Or.inr finished)
  · exact Or.inl waits
  · exact Or.inr (Or.inl waits)

end Conn

namespace Endpoint

structure Drained (e : Endpoint τ) : Prop where
  chan : e.tunnel.task ≠ .done → e.tunnel.chan.queue = []
  hand : e.tunnel.inHand = []
  wire : e.tunnel.wire.queue = []
  conns : ∀ (n : Nat) (l : Link τ), e.links[n]? = some l → l.conn.Drained

/-- No task of the endpoint can move. -/
def Parked (o : Owners) (e : Endpoint τ) : Prop := ∀ a, a.isTask = true → e.step o a = none

def quiet (o : Owners) (e : Endpoint τ) : Bool :=
  e.tunnel.wire.queue = [] ∧
    (e.tunnel.task = .done ∨
      e.tunnel.task = .receiving ∧ e.tunnel.chan.queue = [] ∧ e.tunnelSenders o = true ∧
        e.tunnel.aborted = false) ∧
    ∀ n < e.links.length, (e.links[n]?.all fun l => l.conn.quiet (e.senders o n)) = true

variable {o : Owners} {e : Endpoint τ} {n : Nat} {l : Link τ}

theorem Parked.conn (parked : e.Parked o) (here : e.links[n]? = some l) {a : ConnAct}
    (task : a.isTask = true) : l.conn.step (e.senders o n) a = none := by
  have stuck := parked (.conn n a) task
  simpa [step, here] using stuck

theorem Parked.reader (parked : e.Parked o) (drained : e.Drained) (here : e.links[n]? = some l) :
    l.conn.reader = .unspawned ∨ (l.conn.reader = .reading ∧ l.conn.eof = false) ∨
      l.conn.reader = .done := by
  cases reader : l.conn.reader with
  | unspawned => exact Or.inl rfl
  | done => exact Or.inr (Or.inr rfl)
  | reading =>
      have stuck := parked.conn here (a := .readEof) rfl
      have empty := (drained.conns n l here).1 (by simp [reader])
      simp only [Conn.step, reader, empty, true_and] at stuck
      exact Or.inr (Or.inl ⟨rfl, by simpa using stuck⟩)
  | sending data =>
      by_cases closed : e.tunnel.task = .done
      · have stuck := parked (.sendDataErr n) rfl
        simp [step, here, reader, FrameWriter.closed, closed] at stuck
      · have stuck := parked (.sendData n) rfl
        have capacity : 0 < channelCapacity := by decide
        simp [step, here, reader, FrameWriter.send, FrameWriter.closed, drained.chan closed, closed,
          capacity] at stuck
  | cleanup =>
      have stuck := parked (.remove n) rfl
      simp [step, here, reader] at stuck
  | ending =>
      have stuck := parked (.finish n) rfl
      simp [step, here, reader] at stuck

theorem Parked.writer (parked : e.Parked o) (drained : e.Drained) (here : e.links[n]? = some l) :
    l.conn.writer = .unspawned ∨ (l.conn.writer = .receiving ∧ e.senders o n = true) ∨
      l.conn.writer = .done := by
  have idle := (drained.conns n l here).2.1
  have stuck : ∀ {a : ConnAct}, a.isTask = true → l.conn.step (e.senders o n) a = none :=
    parked.conn here
  cases writer : l.conn.writer with
  | unspawned => exact Or.inl rfl
  | done => exact Or.inr (Or.inr rfl)
  | receiving =>
      have waits := stuck (a := .recvNone) rfl
      simp only [Conn.step, writer, (idle (by simp [writer])).1, true_and] at waits
      exact Or.inr (Or.inl ⟨rfl, by simpa using waits⟩)
  | writing data =>
      have done := stuck (a := .writeDone) rfl
      simp [Conn.step, writer, (idle (by simp [writer])).2] at done
  | testing =>
      have done := stuck (a := .test) rfl
      simp [Conn.step, writer] at done
  | flushing =>
      have done := stuck (a := .flushDone) rfl
      simp [Conn.step, writer, (idle (by simp [writer])).2] at done
  | closing =>
      have done := stuck (a := .closeDone) rfl
      simp [Conn.step, writer, (idle (by simp [writer])).2] at done

theorem Parked.tunnel (parked : e.Parked o) (drained : e.Drained) :
    (e.tunnel.task = .receiving ∧ e.tunnelSenders o = true) ∨ e.tunnel.task = .done := by
  cases task : e.tunnel.task with
  | done => exact Or.inr rfl
  | receiving =>
      have waits := parked (.writer .recvNone) rfl
      have empty := drained.chan (by simp [task])
      simp only [step, FrameWriter.step, task, empty, true_and, Option.map_eq_none_iff] at waits
      exact Or.inl ⟨rfl, by simpa using waits⟩
  | sending f =>
      have hand := drained.hand
      simp [FrameWriter.inHand, task] at hand

theorem Drained.enqueue (drained : e.Drained) (live : e.tunnel.closed = false) (f : RfrpFrame) :
    (e.enqueue f).isSome := by
  have capacity : 0 < channelCapacity := by decide
  have open' : e.tunnel.task ≠ .done := by simpa [FrameWriter.closed] using live
  simp [Endpoint.enqueue, FrameWriter.send, live, drained.chan open', capacity]

theorem Drained.deliver (drained : e.Drained) (here : e.links[n]? = some l)
    (live : l.conn.closed = false) (data : Bytes) : (e.deliver n data).isSome := by
  have capacity : 0 < channelCapacity := by decide
  have open' : l.conn.writer ≠ .done := by simpa [Conn.closed] using live
  simp [Endpoint.deliver, here, Conn.send, live, ((drained.conns n l here).2.1 open').1, capacity]

theorem quiet_iff : e.quiet o = true ↔ e.Parked o ∧ e.Drained := by
  simp only [quiet, decide_eq_true_eq]
  constructor
  · rintro ⟨wire, tunnel, conns⟩
    have conn : ∀ {n : Nat} {l : Link τ}, e.links[n]? = some l →
        l.conn.quiet (e.senders o n) = true := by
      intro n l here
      simpa [here] using conns n (Slots.get_lt here)
    refine ⟨fun a task => ?_, ?_, ?_, wire, fun n l here => ?_⟩
    · cases a with
      | writer a =>
          cases a <;> simp only [EndpointAct.isTask, Bool.false_eq_true] at task <;>
            rcases tunnel with finished | ⟨waits, empty, alive, going⟩ <;>
            simp [step, FrameWriter.step, Fifo.pop_eq_none.mpr, *]
      | conn n a =>
          cases here : e.links[n]? with
          | none => simp [step, here]
          | some l => simp [step, here, Conn.step_of_quiet (conn here) task]
      | sendData n | sendDataErr n | remove n | finish n =>
          cases here : e.links[n]? with
          | none => simp [step, here]
          | some l =>
              rcases Conn.reader_of_quiet (conn here) with reader | reader | reader <;>
                simp [step, here, reader]
    · exact fun live => (tunnel.resolve_left live).2.1
    · rcases tunnel with finished | ⟨waits, -⟩ <;> simp [FrameWriter.inHand, *]
    · have quiet := conn here
      simp only [Conn.quiet, decide_eq_true_eq] at quiet
      obtain ⟨outbound, reader, writer⟩ := quiet
      exact ⟨fun live => (reader.resolve_left live).1,
        fun live => ⟨(writer.resolve_left live).1, (writer.resolve_left live).2.1⟩, outbound⟩
  · rintro ⟨parked, drained⟩
    refine ⟨drained.wire, ?_, fun n bound => ?_⟩
    · rcases parked.tunnel drained with ⟨waits, alive⟩ | finished
      · have going := parked (.writer .cancel) rfl
        simp only [step, FrameWriter.step, waits, Option.map_eq_none_iff] at going
        exact Or.inr ⟨waits, drained.chan (by simp [waits]), alive, by simpa using going⟩
      · exact Or.inl finished
    · have here : e.links[n]? = some e.links[n] := List.getElem?_eq_getElem bound
      obtain ⟨inbound, chan, outbound⟩ := drained.conns n _ here
      simp only [here, Option.all_some, Conn.quiet, decide_eq_true_eq]
      refine ⟨outbound, ?_, ?_⟩
      · rcases parked.reader drained here with new | ⟨waits, open'⟩ | finished
        · exact Or.inr ⟨inbound (by simp [new]), Or.inl new⟩
        · exact Or.inr ⟨inbound (by simp [waits]), Or.inr ⟨waits, open'⟩⟩
        · exact Or.inl finished
      · rcases parked.writer drained here with new | waits | finished
        · obtain ⟨empty, held⟩ := chan (by simp [new])
          exact Or.inr ⟨empty, held, Or.inl new⟩
        · obtain ⟨empty, held⟩ := chan (by simp [waits.1])
          exact Or.inr ⟨empty, held, Or.inr waits⟩
        · exact Or.inl finished

end Endpoint

end Rfrp
