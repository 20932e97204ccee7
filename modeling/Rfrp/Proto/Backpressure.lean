import Rfrp.Proto.Quiescence

/-!
# Backpressure

Who waits for whom at a full channel or a full socket. A task that cannot move while the one behind
it takes what it is given has nothing left to pass on.
-/

namespace Rfrp

variable {τ : Type}

/-- Steps of the read tasks. -/
def EndpointAct.reads : EndpointAct → Bool
  | .conn _ (.read _) | .conn _ .readEof | .conn _ .readErr => true
  | .sendData _ | .sendDataErr _ | .remove _ | .finish _ => true
  | _ => false

namespace Conn

variable {c c' : Conn} {senders : Bool} {a : ConnAct}

/-- The socket keeps its size, only `send` fills the channel, and only a push fills the socket. -/
theorem step_room (h : c.step senders a = some c') : c'.sndBuf = c.sndBuf ∧
    c'.chan.queue.length ≤ c.chan.queue.length ∧
    (a.pushes = false → c.outbound.queue = [] → c'.outbound.queue = []) := by
  cases moves_of_step h with
  | recv _ popped => exact ⟨rfl, by simp [(Fifo.pop_eq_some popped).2.2], fun _ read => read⟩
  | peerReads => exact ⟨rfl, Nat.le_refl _, fun _ read => by simp [Fifo.queue_advance, read]⟩
  | push => exact ⟨rfl, Nat.le_refl _, fun push => by cases push⟩
  | _ => exact ⟨rfl, Nat.le_refl _, fun _ read => read⟩

/-- A property of a connection that the main loop keeps, and its tasks and its peer by the steps
`act` admits. -/
structure Steady (act : ConnAct → Prop) (P : Conn → Prop) : Prop where
  step : ∀ {senders : Bool} {c c' : Conn} {a : ConnAct}, act a → P c →
    c.step senders a = some c' → P c'
  send : ∀ {c c' : Conn} {data : Bytes}, P c → c.send data = some c' → P c'
  tasks : ∀ (c : Conn) (reader : ReadTask) (writer : WriteTask), P c → P { c with reader, writer }

theorem steady_sndBuf (act : ConnAct → Prop) : Steady act fun c => 0 < c.sndBuf where
  step := fun _ some move => (step_room move).1.symm ▸ some
  send := fun some sent => by
    obtain ⟨-, -, rfl⟩ := send_eq_some sent
    exact some
  tasks := fun _ _ _ some => some

theorem steady_capacity (act : ConnAct → Prop) :
    Steady act fun c => c.chan.queue.length ≤ channelCapacity where
  step := fun _ within move => (step_room move).2.1.trans within
  send := fun _ sent => by
    obtain ⟨-, free, rfl⟩ := send_eq_some sent
    simpa using Nat.succ_le_of_lt free
  tasks := fun _ _ _ within => within

theorem steady_unsent : Steady (fun a => a.pushes = false) fun c => c.outbound.queue = [] where
  step := fun push read move => (step_room move).2.2 push read
  send := fun read sent => by
    obtain ⟨-, -, rfl⟩ := send_eq_some sent
    exact read
  tasks := fun _ _ _ read => read

end Conn

theorem FrameWriter.step_sndBuf {w w' : FrameWriter} {senders : Bool} {a : WriterAct}
    (h : w.step senders a = some w') : w'.sndBuf = w.sndBuf := by
  cases moves_of_step h <;> rfl

namespace Endpoint

variable {o : Owners} {e e' : Endpoint τ} {n : Nat} {l : Link τ}

def Each (P : Conn → Prop) (e : Endpoint τ) : Prop :=
  ∀ (n : Nat) (l : Link τ), e.links[n]? = some l → P l.conn

theorem Each.setLink {P : Conn → Prop} (each : e.Each P) {l' : Link τ} (new : P l'.conn) :
    (e.setLink n l').Each P := by
  intro m k found
  rcases Slots.get_set found with ⟨-, rfl⟩ | ⟨-, found⟩
  · exact new
  · exact each m k found

theorem Each.step {act : ConnAct → Prop} {P : Conn → Prop} (each : e.Each P)
    (steady : Conn.Steady act P) {a : EndpointAct} (admitted : ∀ n b, a = .conn n b → act b)
    (h : e.step o a = some e') : e'.Each P := by
  have tasks : ∀ {n : Nat} {l : Link τ} (reader : ReadTask), e.links[n]? = some l →
      P (l.setReader reader).conn :=
    fun reader here => steady.tasks _ reader _ (each _ _ here)
  cases moves_of_step h with
  | conn here move => exact each.setLink (steady.step (admitted _ _ rfl) (each _ _ here) move)
  | @sendData n l data tunnel here =>
      have queued : Each P { e with tunnel } := each
      exact queued.setLink (tasks _ here)
  | sendDataErr here | finish here => exact each.setLink (tasks _ here)
  | @remove n l here =>
      have removed : Each P { e with maps := e.maps.modify l.map fun map => map.remove l.connId } :=
        each
      exact removed.setLink (tasks _ here)
  | writer => exact each

theorem Each.evolves {act : ConnAct → Prop} {P : Conn → Prop} (each : e.Each P)
    (steady : Conn.Steady act P) {may : Allowed}
    (admitted : ∀ o n b, may.act o (.conn n b) → act b) (h : Evolves may e e')
    (new : ∀ l, e'.links[e.links.length]? = some l → P l.conn) : e'.Each P := by
  cases h with
  | step allowed h => exact each.step steady (fun n b same => admitted _ n b (same ▸ allowed)) h
  | enqueue _ h =>
      obtain ⟨-, rfl⟩ := enqueue_eq_some h
      exact each
  | deliver h =>
      obtain ⟨l, here, h⟩ := Option.bind_eq_some_iff.mp h
      obtain ⟨conn, sent, rfl⟩ := Option.map_eq_some_iff.mp h
      exact each.setLink (steady.send (each _ _ here) sent)
  | addLink =>
      intro m l found
      rcases Slots.get_append found with old | ⟨rfl, rfl⟩
      · exact each m l old
      · exact new _ found
  | spawn here | drop _ here => exact each.setLink (steady.tasks _ _ _ (each _ _ here))
  | _ => exact each

theorem tunnel_sndBuf_evolves {may : Allowed} (h : Evolves may e e') :
    e'.tunnel.sndBuf = e.tunnel.sndBuf := by
  cases h with
  | step _ h =>
      cases moves_of_step h with
      | writer move => exact FrameWriter.step_sndBuf move
      | sendData _ _ sent =>
          obtain ⟨-, rfl⟩ := FrameWriter.send_eq_some sent
          rfl
      | _ => rfl
  | enqueue _ h =>
      obtain ⟨-, rfl⟩ := enqueue_eq_some h
      rfl
  | deliver h =>
      obtain ⟨l, -, -, rfl⟩ := deliver_eq_some h
      rfl
  | _ => rfl

structure Roomy (e : Endpoint τ) : Prop where
  tunnel : 0 < e.tunnel.sndBuf
  conns : e.Each fun c => 0 < c.sndBuf

theorem roomy_spawn {sndBuf : Nat} (some : 0 < sndBuf) : (spawn sndBuf : Endpoint τ).Roomy :=
  ⟨some, fun _ _ h => by simp [spawn] at h⟩

theorem Roomy.evolves (roomy : e.Roomy) {may : Allowed} (h : Evolves may e e')
    (new : ∀ l, e'.links[e.links.length]? = some l → 0 < l.conn.sndBuf) : e'.Roomy :=
  ⟨tunnel_sndBuf_evolves h ▸ roomy.tunnel,
    roomy.conns.evolves (Conn.steady_sndBuf fun _ => True) (fun _ _ _ _ => trivial) h new⟩

/-! ## Tasks that cannot move -/

/-- No write task and no frame writer can move. -/
def Jammed (o : Owners) (e : Endpoint τ) : Prop :=
  ∀ a, a.isTask = true → a.reads = false → e.step o a = none

theorem Parked.jammed (parked : e.Parked o) : e.Jammed o := fun a task _ => parked a task

theorem Jammed.writer_waits (jammed : e.Jammed o) (roomy : e.Roomy) (here : e.links[n]? = some l)
    (read : l.conn.outbound.queue = []) : l.conn.writer = .unspawned ∨
      (l.conn.writer = .receiving ∧ l.conn.chan.queue = []) ∨ l.conn.writer = .done := by
  have stuck : ∀ {a : ConnAct}, a.isTask = true → EndpointAct.reads (.conn n a) = false →
      l.conn.step (e.senders o n) a = none := by
    intro a task writes
    have none := jammed (.conn n a) task writes
    simpa [step, here] using none
  have room := roomy.conns n l here
  -- what is held can be pushed, one byte at least
  have pushed : l.conn.step (e.senders o n) (.push 1) = none → l.conn.held ≠ [] →
      l.conn.writer ≠ .flushing ∧ l.conn.writer ≠ .closing ∧ ∀ data, l.conn.writer ≠ .writing data := by
    intro stuck held
    have some : 1 ≤ l.conn.held.length := List.length_pos_iff.mpr held
    refine ⟨?_, ?_, ?_⟩ <;>
      · intros
        intro writer
        simp [Conn.step, writer, read] at stuck
        omega
  cases writer : l.conn.writer with
  | unspawned => exact Or.inl rfl
  | done => exact Or.inr (Or.inr rfl)
  | receiving =>
      refine Or.inr (Or.inl ⟨rfl, ?_⟩)
      have recv := stuck (a := .recv) rfl rfl
      cases popped : l.conn.chan.pop with
      | none => exact Fifo.pop_eq_none.mp popped
      | some p => simp [Conn.step, writer, popped] at recv
  | writing data =>
      have finishes := stuck (a := .writeDone) rfl rfl
      by_cases held : l.conn.held = []
      · simp [Conn.step, writer, held] at finishes
      · exact absurd writer ((pushed (stuck rfl rfl) held).2.2 data)
  | testing =>
      have tests := stuck (a := .test) rfl rfl
      simp [Conn.step, writer] at tests
  | flushing =>
      have finishes := stuck (a := .flushDone) rfl rfl
      by_cases held : l.conn.held = []
      · simp [Conn.step, writer, held] at finishes
      · exact absurd writer (pushed (stuck rfl rfl) held).1
  | closing =>
      have finishes := stuck (a := .closeDone) rfl rfl
      by_cases held : l.conn.held = []
      · simp [Conn.step, writer, held] at finishes
      · exact absurd writer (pushed (stuck rfl rfl) held).2.1

theorem Parked.reader_waits (parked : e.Parked o) (here : e.links[n]? = some l)
    (live : e.tunnel.task ≠ .done) (room : e.tunnel.chan.queue.length < channelCapacity) :
    l.conn.reader = .unspawned ∨ (l.conn.reader = .reading ∧ l.conn.inbound.queue = []) ∨
      l.conn.reader = .done := by
  cases reader : l.conn.reader with
  | unspawned => exact Or.inl rfl
  | done => exact Or.inr (Or.inr rfl)
  | reading =>
      refine Or.inr (Or.inl ⟨rfl, ?_⟩)
      have reads := parked.conn here (a := .read 1) rfl
      have capacity : 1 ≤ readBufCapacity := by decide
      simpa [Conn.step, reader, capacity] using reads
  | sending data =>
      have sends := parked (.sendData n) rfl
      simp [step, here, reader, FrameWriter.send, FrameWriter.closed, live, room] at sends
  | cleanup =>
      have removes := parked (.remove n) rfl
      simp [step, here, reader] at removes
  | ending =>
      have finishes := parked (.finish n) rfl
      simp [step, here, reader] at finishes

theorem Jammed.tunnel_waits (jammed : e.Jammed o) (roomy : e.Roomy) (live : e.tunnel.task ≠ .done)
    (read : e.tunnel.wire.queue = []) :
    e.tunnel.task = .receiving ∧ e.tunnel.chan.queue = [] := by
  have room := roomy.tunnel
  cases task : e.tunnel.task with
  | done => exact absurd task live
  | receiving =>
      refine ⟨rfl, ?_⟩
      have recv := jammed (.writer .recv) rfl rfl
      cases popped : e.tunnel.chan.pop with
      | none => exact Fifo.pop_eq_none.mp popped
      | some p => simp [step, FrameWriter.step, task, popped] at recv
  | sending f =>
      have sent := jammed (.writer .sent) rfl rfl
      simp [step, FrameWriter.step, task, read] at sent
      omega

end Endpoint

end Rfrp
