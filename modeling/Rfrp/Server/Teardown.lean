import Rfrp.Server.Quiescence

/-!
# The end of a session

The server aborts its listener tasks and clears the routing map, but it aborts neither the frame
writer nor the read tasks of external connections, as the client does with its own frame writer.
Where none of them has anything left to do when the main loop ends, nothing is sent afterwards and
everything gets closed.
-/

namespace Rfrp

open Transition

variable {τ : Type}

def FrameWriter.silent (w : FrameWriter) : Bool :=
  w.task = .done ∨ w.task = .receiving ∧ w.chan.queue = []

def Conn.leaving (closed : Bool) (c : Conn) : Bool :=
  match c.reader with
  | .reading => c.eof ∧ c.inbound.queue = []
  | .sending _ => closed
  | _ => true

def Endpoint.settled (e : Endpoint τ) : Bool :=
  e.tunnel.silent && e.links.all fun l => l.conn.leaving e.tunnel.closed

section
variable {w w' : FrameWriter} {c c' : Conn} {senders closed : Bool} {o : Owners}
  {e e' : Endpoint τ} {n : Nat} {l : Link τ}

theorem FrameWriter.silent_step {a : WriterAct} (silent : w.silent = true)
    (h : w.step senders a = some w') : w'.silent = true ∧ w'.wire.log = w.wire.log := by
  simp only [FrameWriter.silent, decide_eq_true_eq] at silent ⊢
  cases moves_of_step h with
  | recv receiving popped =>
      obtain ⟨-, empty⟩ := silent.resolve_left (by simp [receiving])
      rw [(Fifo.pop_eq_some popped).2.2] at empty
      cases empty
  | peerReads popped => exact ⟨silent, (Fifo.pop_eq_some popped).1⟩
  | sent sending | sendErr sending => rcases silent with finished | ⟨waits, -⟩ <;> simp_all
  | recvNone | cancel => exact ⟨Or.inl rfl, rfl⟩

theorem Conn.leaving_step {a : ConnAct} (leaving : c.leaving closed = true)
    (h : c.step senders a = some c') : c'.leaving closed = true := by
  have reading : c.reader = .reading → c.eof = true ∧ c.inbound.queue = [] := by
    intro reader
    simpa [Conn.leaving, reader] using leaving
  cases moves_of_step h with
  | peerSends sending =>
      cases reader : c.reader with
      | reading => exact absurd (reading reader).1 (by simp [sending])
      | sending => simpa [Conn.leaving, reader] using leaving
      | _ => simp [Conn.leaving]
  | peerShutdown =>
      cases reader : c.reader with
      | reading => simp [Conn.leaving, (reading reader).2]
      | sending => simpa [Conn.leaving, reader] using leaving
      | _ => simp [Conn.leaving]
  | read before some _ there =>
      rw [(reading before).2, List.length_nil] at there
      omega
  | readEof | readErr => rfl
  | _ => exact leaving

namespace Endpoint

theorem settled_iff : e.settled = true ↔ e.tunnel.silent = true ∧
    ∀ (n : Nat) (l : Link τ), e.links[n]? = some l → l.conn.leaving e.tunnel.closed = true := by
  simp only [settled, Bool.and_eq_true, List.all_eq_true, List.mem_iff_getElem?]
  exact and_congr_right fun _ => ⟨fun all n l here => all l ⟨n, here⟩,
    fun all l ⟨n, here⟩ => all n l here⟩

theorem settled_setLink {conn : Conn} {maps : List (DashMap UInt64 Nat)}
    (settled : e.settled = true) (leaving : conn.leaving e.tunnel.closed = true) :
    ({ e with maps }.setLink n (l.setConn conn)).settled = true := by
  obtain ⟨silent, conns⟩ := settled_iff.mp settled
  refine settled_iff.mpr ⟨silent, fun m k here => ?_⟩
  rcases Slots.get_set here with ⟨-, rfl⟩ | ⟨-, here⟩
  · exact leaving
  · exact conns m k here

theorem settled_step {a : EndpointAct} (settled : e.settled = true) (h : e.step o a = some e') :
    e'.settled = true ∧ e'.tunnel.wire.log = e.tunnel.wire.log := by
  obtain ⟨silent, conns⟩ := settled_iff.mp settled
  cases moves_of_step h with
  | writer move =>
      obtain ⟨silent', log⟩ := FrameWriter.silent_step silent move
      refine ⟨settled_iff.mpr ⟨silent', fun n l here => ?_⟩, log⟩
      have leaving := conns n l here
      unfold Conn.leaving at leaving ⊢
      split at leaving
      · exact leaving
      · exact decide_eq_true (FrameWriter.step_done move (of_decide_eq_true leaving))
      · rfl
  | conn here move => exact ⟨settled_setLink settled (Conn.leaving_step (conns _ _ here) move), rfl⟩
  | sendData here hand sent =>
      have closed := conns _ _ here
      simp only [Conn.leaving, hand, FrameWriter.closed, decide_eq_true_eq] at closed
      exact absurd closed (FrameWriter.send_eq_some sent).1
  | sendDataErr here => exact ⟨settled_setLink settled rfl, rfl⟩
  | remove here => exact ⟨settled_setLink settled rfl, rfl⟩
  | finish here => exact ⟨settled_setLink settled rfl, rfl⟩

end Endpoint

end

namespace Server

variable {s s' t : Server} {a : ServerAct}

/-- The main loop ends only when nothing is left to do for the client, and a listener task that was
aborted in the middle of a poll neither answers nor takes up a connection before it is dropped. -/
def cleanExit (s : Server) (a : ServerAct) : Bool :=
  match a with
  | .exit _ => s.endpoint.settled
  | .replyErr => !(s.main matches .ponging) || s.endpoint.settled
  | .answer _ | .acquire _ => s.running
  | _ => true

structure Over (s : Server) : Prop where
  ended : s.running = false
  settled : s.endpoint.settled = true
  aborted : ∀ t ∈ s.tasks, t.aborted = true

theorem Over.setTask (finished : s.Over) {r : Nat} {t t' : RegTask} {endpoint : Endpoint UInt16}
    (here : s.tasks[r]? = some t) (same : t'.aborted = t.aborted)
    (settled : endpoint.settled = true) : ({ s with endpoint }.setTask r t').Over := by
  refine ⟨finished.ended, settled, fun u mem => ?_⟩
  rcases List.mem_or_eq_of_mem_set mem with mem | rfl
  · exact finished.aborted u mem
  · exact same.trans (finished.aborted t (List.mem_of_getElem? here))

theorem Over.step (finished : s.Over) (clean : s.cleanExit a = true) (h : Moves s a s') :
    s'.Over ∧ s'.endpoint.tunnel.wire.log = s.endpoint.tunnel.wire.log := by
  have ended := finished.ended
  cases h with
  | recvLimit main | recvRegister main | recvPing main | recvOther main | recvRouted main
  | recvUnrouted main | exit main | replyErr main | pongErr main | route main | routeErr main =>
      simp [running, main] at ended
  | reply frame =>
      rcases replyFrame_eq_some frame with ⟨client, main, -⟩ | ⟨main, -⟩ <;>
        simp [running, main] at ended
  | connect here => exact ⟨finished.setTask here rfl finished.settled, rfl⟩
  | bind here move =>
      rw [(RegTask.bind_eq_some move).2.2]
      exact ⟨finished.setTask here rfl finished.settled, rfl⟩
  | answer => simp [cleanExit, ended] at clean
  | answerErr here move =>
      rcases RegTask.answer_eq_some move with ⟨-, -, rfl⟩ | ⟨-, -, rfl⟩ <;>
        exact ⟨finished.setTask here rfl finished.settled, rfl⟩
  | @accept r sndBuf t here =>
      have settled : (s.acceptConn r t sndBuf).endpoint.settled = true := by
        obtain ⟨silent, conns⟩ := Endpoint.settled_iff.mp finished.settled
        refine Endpoint.settled_iff.mpr ⟨silent, fun n l found => ?_⟩
        rcases Slots.get_append found with found | ⟨-, rfl⟩
        · exact conns n l found
        · rfl
      refine ⟨⟨ended, settled, fun u mem => ?_⟩, rfl⟩
      rcases List.mem_or_eq_of_mem_set mem with mem | rfl
      · exact finished.aborted u mem
      · exact finished.aborted t (List.mem_of_getElem? here)
  | acquire => simp [cleanExit, ended] at clean
  | cancelWaiting here =>
      exact ⟨finished.setTask here rfl (Endpoint.settled_setLink finished.settled rfl), rfl⟩
  | cancel here => exact ⟨finished.setTask here rfl finished.settled, rfl⟩
  | endpoint move =>
      obtain ⟨settled, log⟩ := Endpoint.settled_step finished.settled move
      exact ⟨⟨ended, settled, finished.aborted⟩, log⟩

theorem ended_of_step (h : Moves s a s') (before : s.running = true) (after : s'.running = false) :
    ∃ r, s' = s.teardown r ∧ (a = .exit r ∨ a = .replyErr ∧ s.main = .ponging) := by
  cases h with
  | exit main => exact ⟨_, rfl, Or.inl rfl⟩
  | pongErr main => exact ⟨_, rfl, Or.inr ⟨rfl, main⟩⟩
  | _ => simp_all [running, setTask, acceptConn]

theorem over_teardown (settled : s.endpoint.settled = true) (r : ExitReason) :
    (s.teardown r).Over :=
  ⟨rfl, settled, by simp [teardown]⟩

theorem over_of_run {sndBuf : Nat} (run : Run step (fun s a => s.cleanExit a) (start sndBuf) s)
    (ended : s.running = false) : s.Over := by
  refine run.induct (P := fun s => s.running = false → s.Over) (fun ended => by cases ended)
    (fun t a u _ ih clean step ended => ?_) ended
  have move := moves_of_step step
  cases before : t.running with
  | false => exact ((ih before).step clean move).1
  | true =>
      obtain ⟨r, rfl, rfl | ⟨rfl, main⟩⟩ := ended_of_step move before ended
      · exact over_teardown clean r
      · exact over_teardown (by simpa [cleanExit, main] using clean) r

theorem Over.closed (finished : s.Over) (reach : s.Reachable) (quiescent : s.Quiescent) :
    s.endpoint.tunnel.task = .done ∧ ∀ (n : Nat) (l : Link UInt16),
      s.endpoint.links[n]? = some l → l.conn.isOpen = false := by
  have parked := quiescent.endpoint
  have drained := quiescent.drained
  have ended := finished.ended
  have cancelled : ∀ u ∈ s.tasks, u.pc = .done := by
    intro u mem
    obtain ⟨r, here⟩ := List.mem_iff_getElem?.mp mem
    exact quiescent.cancelled reach here (finished.aborted u mem)
  have readers : ∀ (n : Nat) (l : Link UInt16), s.endpoint.links[n]? = some l →
      l.conn.reader = .done := by
    intro n l here
    rcases parked.reader drained here with new | ⟨reading, open'⟩ | finished'
    · obtain ⟨u, found, pc⟩ := reach.accepted.waiting n l here (decide_eq_true new)
      rw [cancelled u (List.mem_of_getElem? found)] at pc
      cases pc
    · have leaving := (Endpoint.settled_iff.mp finished.settled).2 n l here
      simp [Conn.leaving, reading, open'] at leaving
    · exact finished'
  -- nobody is left to hold a sender
  have gone : ∀ p : Link UInt16 → Bool,
      (s.endpoint.links.any fun l => p l && l.conn.reader ≠ .done) = false := by
    intro p
    simp only [List.any_eq_false, List.mem_iff_getElem?]
    rintro l ⟨n, here⟩
    simp [readers n l here]
  have noTask : ∀ p : RegTask → Bool, (s.tasks.any fun u => p u && u.pc ≠ .done) = false := by
    intro p
    simp only [List.any_eq_false]
    intro u mem
    simp [cancelled u mem]
  have noMap : ∀ m, s.endpoint.mapAlive s.owners m = false := by
    intro m
    simpa [Endpoint.mapAlive, owners, ended] using
      And.intro (noTask fun u => u.routing = m) (gone fun l => l.map = m)
  have noLink : ∀ n, s.owners.link n = false := by
    intro n
    simp only [owners]
    split
    · rename_i main
      simp [running, main] at ended
    · rfl
  constructor
  · apply (parked.tunnel drained).resolve_left
    rintro ⟨-, alive⟩
    have noSender : s.endpoint.tunnelSenders s.owners = false := by
      simpa [Endpoint.tunnelSenders, owners, ended] using
        And.intro (noTask fun _ => true) (gone fun _ => true)
    rw [noSender] at alive
    cases alive
  · intro n l here
    have reader := readers n l here
    have writer : l.conn.writer = .done := by
      rcases parked.writer drained here with new | ⟨-, alive⟩ | finished'
      · have spawned := (reach.endpoint_ok.conns n l here).spawned.mpr new
        rw [reader] at spawned
        cases spawned
      · simp [Endpoint.senders, noLink, here, noMap] at alive
      · exact finished'
    simp [Conn.isOpen, reader, writer]

theorem teardown_complete (sndBuf : Nat) (s t : Server)
    (before : Run step (fun s a => s.cleanExit a) (start sndBuf) s) (ended : s.running = false)
    (after : Run step (fun s a => s.cleanExit a) s t) :
    t.endpoint.tunnel.wire.log = s.endpoint.tunnel.wire.log ∧
      (t.Quiescent → t.endpoint.tunnel.task = .done ∧
        ∀ (n : Nat) (l : Link UInt16), t.endpoint.links[n]? = some l → l.conn.isOpen = false) := by
  have finished : t.Over ∧ t.endpoint.tunnel.wire.log = s.endpoint.tunnel.wire.log := by
    refine after.induct (P := fun t => t.Over ∧
      t.endpoint.tunnel.wire.log = s.endpoint.tunnel.wire.log)
      ⟨over_of_run before ended, rfl⟩ fun u a v _ ih clean step => ?_
    obtain ⟨finished, log⟩ := ih.1.step clean (moves_of_step step)
    exact ⟨finished, log.trans ih.2⟩
  exact ⟨finished.2, fun quiescent => finished.1.closed ⟨sndBuf, (before.trans after).reach⟩ quiescent⟩

def oneUser : List ServerAct :=
  [.recv (.register ⟨"ssh", 22001, "127.0.0.1", 22, "tcp", ""⟩), .bind 0 true, .answer 0,
    .endpoint (.writer .recv), .endpoint (.writer .sent), .endpoint (.writer .peerReads),
    .connect 0, .accept 0 8, .acquire 0]

def userByte : List ServerAct :=
  [.endpoint (.conn 0 (.peerSends [1])), .endpoint (.conn 0 (.read 1)), .endpoint (.sendData 0),
    .endpoint (.writer .recv), .endpoint (.writer .sent)]

def userLeaves : List ServerAct :=
  [.endpoint (.writer .peerReads), .endpoint (.conn 0 .peerShutdown), .endpoint (.conn 0 .readEof),
    .endpoint (.remove 0), .endpoint (.finish 0), .endpoint (.conn 0 .recvNone),
    .endpoint (.conn 0 .closeDone), .exit .eof]

def framesSent (s : Server) : Nat := s.endpoint.tunnel.wire.log.length

theorem userLeaves_view :
    ((exec (guarded step fun s a => s.cleanExit a) (start 8)
      (oneUser ++ userByte ++ userLeaves)).bind fun s =>
        (exec (guarded step fun s a => s.cleanExit a) s
          [.cancel 0, .endpoint (.writer .recvNone)]).map fun t =>
            (s.running, t.quiet, t.framesSent)) = some (false, true, 2) := by
  decide

theorem teardown_complete_user : ∃ s t : Server,
    Run step (fun s a => s.cleanExit a) (start 8) s ∧ s.running = false ∧
      Run step (fun s a => s.cleanExit a) s t ∧ t.framesSent = 2 ∧ s.framesSent = 2 ∧
      t.endpoint.tunnel.task = .done := by
  obtain ⟨s, before, view⟩ := Option.bind_eq_some_iff.mp userLeaves_view
  obtain ⟨t, after, view⟩ := Option.map_eq_some_iff.mp view
  simp only [Prod.mk.injEq] at view
  obtain ⟨ended, quiet, sent⟩ := view
  obtain ⟨log, closed⟩ :=
    teardown_complete 8 s t (run_of_exec _ before) ended (run_of_exec _ after)
  refine ⟨s, t, run_of_exec _ before, ended, run_of_exec _ after, sent, ?_,
    (closed (quiescent_of_quiet quiet)).1⟩
  rw [framesSent, ← log]
  exact sent

theorem userStays_view :
    ((exec step (start 8) (oneUser ++ [.exit .eof])).bind fun s =>
      (exec step s userByte).map fun t => (s.running, s.framesSent, t.framesSent)) =
        some (false, 1, 2) := by
  decide

theorem frame_after_exit : ¬ ∀ (sndBuf : Nat) (s t : Server), Reach step (start sndBuf) s →
    s.running = false → Reach step s t →
    t.endpoint.tunnel.wire.log = s.endpoint.tunnel.wire.log ∧
      (t.Quiescent → t.endpoint.tunnel.task = .done ∧
        ∀ (n : Nat) (l : Link UInt16), t.endpoint.links[n]? = some l → l.conn.isOpen = false) := by
  intro claim
  obtain ⟨s, before, view⟩ := Option.bind_eq_some_iff.mp userStays_view
  obtain ⟨t, after, view⟩ := Option.map_eq_some_iff.mp view
  simp only [Prod.mk.injEq, framesSent] at view
  obtain ⟨ended, sent, more⟩ := view
  have same := (claim 8 s t (reach_of_exec _ before) ended (reach_of_exec _ after)).1
  rw [same, sent] at more
  cases more

end Server

end Rfrp
