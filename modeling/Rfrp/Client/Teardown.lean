import Rfrp.Client.Cleanup

/-!
# After the client's session

The exit of `run_proxy` aborts the frame writer and the heartbeat. Nothing tells the tasks of an
internal connection: the read task goes on until its service shuts down, or sends something that
can no more be forwarded, and until then the map entry that it keeps alive keeps the write task.
-/

namespace Rfrp

variable {τ : Type}

theorem Conn.reading_of_step {c c' : Conn} {senders : Bool} {a : ConnAct}
    (h : c.step senders a = some c') (reading : c'.reader = .reading) :
    c.reader = .reading ∧ c'.inbound.received = c.inbound.received := by
  cases moves_of_step h with
  | peerSends => exact ⟨reading, Fifo.received_pushAll _⟩
  | read | readEof | readErr => cases reading
  | _ => exact ⟨reading, rfl⟩

namespace Endpoint

variable {o : Owners} {e e' : Endpoint τ} {a : EndpointAct} {n : Nat} {l' : Link τ}

theorem reading_of_step (finished : e.tunnel.task = .done) (h : e.step o a = some e')
    (here : e'.links[n]? = some l') (reading : l'.conn.reader = .reading) :
    ∃ l, e.links[n]? = some l ∧ l.conn.reader = .reading ∧
      l'.conn.inbound.received = l.conn.inbound.received := by
  cases moves_of_step h with
  | writer => exact ⟨l', here, reading, rfl⟩
  | conn there move =>
      rcases Slots.get_set here with ⟨rfl, rfl⟩ | ⟨-, here⟩
      · exact ⟨_, there, Conn.reading_of_step move reading⟩
      · exact ⟨l', here, reading, rfl⟩
  | sendData _ _ sent => exact absurd finished (FrameWriter.send_eq_some sent).1
  | sendDataErr | remove | finish =>
      rcases Slots.get_set here with ⟨-, rfl⟩ | ⟨-, here⟩
      · cases reading
      · exact ⟨l', here, reading, rfl⟩

end Endpoint

namespace Client

open Transition Endpoint

variable {c c' : Client} {a : ClientAct} {config : List ClientInfo} {n : Nat} {l : Link String}

def Silenced (c : Client) : Prop := c.endpoint.links = [] ∨ c.endpoint.tunnel.aborted = true

theorem Silenced.step (silenced : c.Silenced) {o : Owners} {b : EndpointAct} {e : Endpoint String}
    (move : c.endpoint.step o b = some e) : e.links = [] ∨ e.tunnel.aborted = true := by
  apply silenced.imp
  · intro none
    have same := step_ident move
    rw [none] at same
    exact List.map_eq_nil_iff.mp same
  · intro aborted
    cases Endpoint.moves_of_step move with
    | writer moved =>
        cases FrameWriter.moves_of_step moved <;> exact aborted
    | sendData _ _ sent =>
        obtain ⟨-, rfl⟩ := FrameWriter.send_eq_some sent
        exact aborted
    | _ => exact aborted

theorem Reachable.silenced (reach : c.Reachable config) (ended : c.running = false) :
    c.Silenced := by
  refine reach.induct (P := fun c => c.running = false → c.Silenced) (fun sndBuf ended => ?_)
    (fun c a c' before ih move ended => ?_) ended
  · rcases main_start config sndBuf with ⟨-, main⟩ | ⟨-, main⟩ <;> simp [running, main] at ended
  · have holds := before.kept.2
    cases move with
    | recvReject main | recvUnexpected main | giveUp main | registerErr main =>
        simp only [Holds, main] at holds
        exact Or.inl holds
    | exit => exact Or.inr rfl
    | tick | pingErr | pingCancel => exact ih ended
    | ping _ sent =>
        obtain ⟨-, rfl⟩ := enqueue_eq_some sent
        exact ih ended
    | endpoint move => exact (ih ended).step move
    | recvStray main | recvOther main | recvUnknown main => simp [running, main] at ended
    | _ => simp [running] at ended

theorem main_of_ended (ended : c.running = false) : ∃ r, c.main = .ended r := by
  cases main : c.main with
  | ended r => exact ⟨r, rfl⟩
  | _ => simp [running, main] at ended

theorem Quiescent.silent (quiescent : c.Quiescent) (reach : c.Reachable config)
    (ended : c.running = false) (here : c.endpoint.links[n]? = some l) :
    c.endpoint.tunnel.task = .done := by
  rcases reach.silenced ended with none | aborted
  · rw [none] at here
    cases here
  · have stuck := quiescent.endpoint (.writer .cancel) rfl
    simpa [Endpoint.step, FrameWriter.step, aborted] using stuck

theorem Quiescent.connection (quiescent : c.Quiescent) (reach : c.Reachable config)
    (ended : c.running = false) (here : c.endpoint.links[n]? = some l) :
    l.conn.isOpen = false ∨
      (l.conn.reader = .reading ∧ l.conn.eof = false ∧ l.conn.inbound.queue = []) := by
  obtain ⟨r, main⟩ := main_of_ended ended
  have free : c.owners.link n = false := by simp [owners, main]
  rcases quiescent.endpoint.reader quiescent.drained here with new | ⟨reading, eof⟩ | finished
  · have spawned := reach.spawned n l here
    simp [Link.waiting, new] at spawned
  · have empty := (quiescent.drained.conns n l here).1 (by simp [reading])
    exact Or.inr ⟨reading, eof, empty⟩
  · exact Or.inl (quiescent.endpoint.finished quiescent.drained reach.detached reach.endpoint_ok free
      here finished).1

theorem reading_of_move (ended : c.running = false)
    (finished : c.endpoint.tunnel.task = .done) (h : Moves c a c') {l' : Link String}
    (here : c'.endpoint.links[n]? = some l') (reading : l'.conn.reader = .reading) :
    ∃ l, c.endpoint.links[n]? = some l ∧ l.conn.reader = .reading ∧
      l'.conn.inbound.received = l.conn.inbound.received := by
  obtain ⟨r, main⟩ := main_of_ended ended
  cases h with
  | endpoint move => exact Endpoint.reading_of_step finished move here reading
  | ping _ sent => exact absurd finished (enqueue_eq_some sent).1
  | tick | pingErr | pingCancel => exact ⟨l', here, reading, rfl⟩
  | _ => simp_all

theorem reading_of_run {s t : Client} (ended : s.running = false)
    (finished : s.endpoint.tunnel.task = .done) (run : Reach step s t) :
    t.running = false ∧ t.endpoint.tunnel.task = .done ∧
      ∀ (n : Nat) (l' : Link String), t.endpoint.links[n]? = some l' → l'.conn.reader = .reading →
        ∃ l, s.endpoint.links[n]? = some l ∧ l.conn.reader = .reading ∧
          l'.conn.inbound.received = l.conn.inbound.received := by
  apply run.induct
  · exact ⟨ended, finished, fun n l' here reading => ⟨l', here, reading, rfl⟩⟩
  · intro t a u _ ⟨ended, finished, ih⟩ _ step
    have move := moves_of_step step
    refine ⟨?_, (step_endpoint move).tunnel_done finished, ?_⟩
    · by_contra live
      rw [running_of_step move (by simpa using live)] at ended
      cases ended
    · intro n l'' here reading
      obtain ⟨l', here', reading', same'⟩ := reading_of_move ended finished move here reading
      obtain ⟨l, before, reading, same⟩ := ih n l' here' reading'
      exact ⟨l, before, reading, same'.trans same⟩

/-- What is left of the connections of a session that has ended: those whose services have not shut
down, for as long as these stay silent. -/
theorem teardown_quiescent (config : List ClientInfo) (sndBuf : Nat) (s : Client)
    (run : Reach step (start config sndBuf) s) (ended : s.running = false)
    (quiescent : s.Quiescent) (n : Nat) (l : Link String)
    (here : s.endpoint.links[n]? = some l) :
    s.endpoint.tunnel.task = .done ∧
    (l.conn.isOpen = false ∨
      (l.conn.reader = .reading ∧ l.conn.eof = false ∧ l.conn.inbound.queue = [])) ∧
    ∀ (t : Client) (l' : Link String), Reach step s t → t.Quiescent →
      t.endpoint.links[n]? = some l' → l'.conn.isOpen = true →
        l.conn.isOpen = true ∧ l'.conn.eof = false ∧ l'.conn.inbound.log = l.conn.inbound.log := by
  have reach : s.Reachable config := ⟨sndBuf, run⟩
  have silent := quiescent.silent reach ended here
  refine ⟨silent, quiescent.connection reach ended here, ?_⟩
  intro t l' more quiescent' here' isOpen
  have reach' : t.Reachable config := ⟨sndBuf, run.trans more⟩
  obtain ⟨ended', -, before⟩ := reading_of_run ended silent more
  rcases quiescent'.connection reach' ended' here' with closed | ⟨reading, eof, read⟩
  · rw [closed] at isOpen
    cases isOpen
  · obtain ⟨u, found, waits, same⟩ := before n l' here' reading
    cases here.symm.trans found
    have stays : l.conn.isOpen = true := by simp [Conn.isOpen, waits]
    refine ⟨stays, eof, ?_⟩
    rcases quiescent.connection reach ended here with closed | ⟨-, -, read'⟩
    · rw [closed] at stays
      cases stays
    · rw [← Fifo.received_eq_log read, same, Fifo.received_eq_log read']

/-- A connection is opened and its service gets a byte. -/
def opened : List ClientAct :=
  [.register, .endpoint (.writer .recv), .endpoint (.writer .sent), .endpoint (.writer .peerReads),
    .recv (.newRegAckFrame sshEntry true 0), .recv (.data ⟨1, 0, [1]⟩), .connected 8, .forward,
    .endpoint (.conn 0 .recv), .endpoint (.conn 0 .writeDone), .endpoint (.conn 0 .test),
    .endpoint (.conn 0 (.push 1)), .endpoint (.conn 0 .flushDone),
    .endpoint (.conn 0 (.peerReads 1))]

def serviceLeaves : List ClientAct :=
  [.endpoint (.conn 0 .peerShutdown), .endpoint (.conn 0 .readEof), .endpoint (.remove 0),
    .endpoint (.finish 0), .endpoint (.conn 0 .recvNone), .endpoint (.conn 0 .closeDone)]

def serverLeaves : List ClientAct := [.exit .eof, .endpoint (.writer .cancel), .pingCancel]

def endView (c : Client) : Bool × Bool × List Bool :=
  (c.running, c.quiet, c.endpoint.links.map fun l => l.conn.isOpen)

theorem teardown_quiescent_left : ∃ (s : Client) (l : Link String),
    Reach step (start [sshEntry] 8) s ∧ s.running = false ∧ s.Quiescent ∧
      s.endpoint.links = [l] ∧ l.conn.isOpen = false ∧ s.endpoint.tunnel.task = .done := by
  have view : (exec step (start [sshEntry] 8) (opened ++ serviceLeaves ++ serverLeaves)).map
      endView = some (false, true, [false]) := by decide
  obtain ⟨s, moved, seen⟩ := Option.map_eq_some_iff.mp view
  simp only [endView, Prod.mk.injEq] at seen
  obtain ⟨ended, quiet, links⟩ := seen
  obtain ⟨l, only, closed⟩ := List.map_eq_singleton_iff.mp links
  have run := reach_of_exec _ moved
  have quiescent := quiescent_of_quiet quiet
  have here : s.endpoint.links[0]? = some l := by rw [only]; rfl
  exact ⟨s, l, run, ended, quiescent, only, closed,
    (teardown_quiescent [sshEntry] 8 s run ended quiescent 0 l here).1⟩

theorem silent_left_open : ¬ ∀ (config : List ClientInfo) (sndBuf : Nat) (s : Client),
    Reach step (start config sndBuf) s → s.running = false → s.Quiescent →
    ∀ (n : Nat) (l : Link String), s.endpoint.links[n]? = some l → l.conn.isOpen = false := by
  intro claim
  have view : (exec step (start [sshEntry] 8) (opened ++ serverLeaves)).map
      endView = some (false, true, [true]) := by decide
  obtain ⟨s, moved, seen⟩ := Option.map_eq_some_iff.mp view
  simp only [endView, Prod.mk.injEq] at seen
  obtain ⟨ended, quiet, links⟩ := seen
  obtain ⟨l, only, stays⟩ := List.map_eq_singleton_iff.mp links
  have here : s.endpoint.links[0]? = some l := by rw [only]; rfl
  have closed := claim [sshEntry] 8 s (reach_of_exec _ moved) ended (quiescent_of_quiet quiet) 0 l here
  rw [closed] at stays
  cases stays

end Client

end Rfrp
