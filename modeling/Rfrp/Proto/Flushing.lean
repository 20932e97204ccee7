import Rfrp.Lib.Transition
import Rfrp.Proto.Downstream
import Rfrp.Proto.Lifetimes

/-!
# What a write task hands over

A write task flushes only when it finds its channel empty. As long as no write and no flush fails,
nothing stays in its buffer while it waits, and what the channel accepted is at the socket when it
ends: once it has seen the channel closed, no sender is left.
-/

namespace Rfrp

variable {τ : Type}

def ConnAct.writeFails : ConnAct → Bool
  | .writeErr _ | .flushErr | .closeErr => true
  | _ => false

def EndpointAct.writeFails : EndpointAct → Bool
  | .conn _ a => a.writeFails
  | _ => false

namespace Conn

variable {c c' : Conn} {alive alive' : Bool} {a : ConnAct} {data : Bytes}
  {act : ConnAct → Prop}

structure Flushed (c : Conn) : Prop where
  waiting : c.writer = .receiving → c.chan.queue = [] →
    c.held = [] ∧ c.outbound.log = c.chan.log.flatten
  ended : c.writer = .done → c.outbound.log = c.chan.log.flatten

/-- What one step of a side does to a connection; `alive` says whether a sender is left. -/
inductive Lives (act : ConnAct → Prop) (alive : Bool) (c : Conn) : Conn → Prop
  | same : Lives act alive c c
  | task {a : ConnAct} {c' : Conn} (admitted : act a) (move : c.step alive a = some c') :
      Lives act alive c c'
  | send {data : Bytes} {c' : Conn} (sent : c.send data = some c') : Lives act alive c c'
  | reader {r : ReadTask} (going : c.reader ≠ .done) (old : c.reader ≠ .unspawned)
      (new : r ≠ .unspawned) : Lives act alive c { c with reader := r }
  | spawn (waiting : c.reader = .unspawned) : Lives act alive c c.spawn
  | drop (waiting : c.reader = .unspawned) : Lives act alive c c.drop

theorem Lives.ended (lives : Lives act alive c c') (ended : c.reader = .done) :
    c'.reader = .done := by
  cases lives with
  | same => exact ended
  | task _ move =>
      rcases step_reader move with ⟨same, -⟩ | ⟨old, -⟩ | ⟨old, -⟩
      · exact same.trans ended
      · rw [ended] at old
        cases old
      · rw [ended] at old
        cases old
  | send sent =>
      obtain ⟨-, -, rfl⟩ := send_eq_some sent
      exact ended
  | reader going => exact absurd ended going
  | spawn waiting | drop waiting =>
      rw [ended] at waiting
      cases waiting

structure Writes (alive : Bool) (c : Conn) : Prop where
  spawned : c.writer ≠ .unspawned
  idle : c.writer = .receiving → c.chan.queue = [] → c.held = []
  last : c.writer = .closing → alive = false
  handed : ¬ c.Serving → c.chan.queue = [] ∧ c.outbound.log ++ c.held = c.chan.log.flatten
  empty : c.writer = .done → c.held = []

theorem writes_spawn (held : c.held = []) : Writes alive c.spawn where
  spawned := by simp [spawn]
  idle := fun _ _ => held
  last := by simp [spawn]
  handed := by simp [spawn, Serving]
  empty := by simp [spawn]

theorem Writes.keep (writes : Writes alive c) (writer : c'.writer = c.writer)
    (chan : c'.chan = c.chan) (held : c'.held = c.held)
    (outbound : c'.outbound.log = c.outbound.log) : Writes alive c' := by
  constructor
  · rw [writer]
    exact writes.spawned
  · rw [writer, chan, held]
    exact writes.idle
  · rw [writer]
    exact writes.last
  · unfold Serving
    rw [writer, chan, held, outbound]
    exact writes.handed
  · rw [writer, held]
    exact writes.empty

theorem writes_busy (spawned : c.writer ≠ .unspawned) (serving : c.Serving)
    (busy : c.writer = .receiving → c.chan.queue ≠ []) : Writes alive c where
  spawned := spawned
  idle := fun waiting drained => absurd drained (busy waiting)
  last := fun closing => absurd closing serving.1
  handed := fun stopped => absurd serving stopped
  empty := fun ended => absurd ended serving.2

theorem Writes.push (writes : Writes alive c) (k : Nat) (working : c.writer ≠ .receiving)
    (going : c.writer ≠ .done) : Writes alive { c with
      outbound := c.outbound.pushAll (c.held.take k), held := c.held.drop k } := by
  have moved : (c.outbound.pushAll (c.held.take k)).log ++ c.held.drop k =
      c.outbound.log ++ c.held := by
    simp [List.append_assoc]
  refine ⟨writes.spawned, fun waiting => absurd waiting working, writes.last, fun stopped => ?_,
    fun ended => absurd ended going⟩
  rw [moved]
  exact writes.handed stopped

theorem Writes.step (ok : c.Ok) (writes : Writes alive c) (calm : a.writeFails = false)
    (h : c.step alive a = some c') : Writes alive c' := by
  cases moves_of_step h with
  | writeErr | flushErr | closeErr => cases calm
  | peerShutdown | peerReads | peerSends | read | readEof | readErr =>
      exact writes.keep rfl rfl rfl rfl
  | recv | writeDone | testEmpty => apply writes_busy <;> simp [Serving]
  | testMore _ more => exact writes_busy (by simp) (by simp [Serving]) fun _ => more
  | recvNone waiting drained gone =>
      have whole := ok.handed_eq (by simp [Serving, waiting])
      rw [Fifo.received_eq_log drained] at whole
      exact ⟨by simp, by simp, fun _ => gone, fun _ => ⟨drained, whole⟩, by simp⟩
  | push handing =>
      apply writes.push
      · rcases handing with ⟨data, before⟩ | before | before <;> simp [before]
      · rcases handing with ⟨data, before⟩ | before | before <;> simp [before]
  | flushDone _ empty => exact ⟨by simp, fun _ _ => empty, by simp, by simp [Serving], by simp⟩
  | closeDone closing empty =>
      have handed := writes.handed (by simp [Serving, closing])
      exact ⟨by simp, by simp, by simp, fun _ => handed, fun _ => empty⟩

theorem Writes.send (writes : Writes true c) (h : c.send data = some c') : Writes true c' := by
  obtain ⟨live, -, rfl⟩ := send_eq_some h
  have serving : c.Serving := ⟨fun closing => Bool.noConfusion (writes.last closing), live⟩
  exact writes_busy writes.spawned serving fun _ => by simp

theorem Writes.fade (writes : Writes alive c) (fade : alive' = true → alive = true) :
    Writes alive' c :=
  { writes with
    last := fun closing => by
      have gone := writes.last closing
      cases alive'
      · rfl
      · rw [fade rfl] at gone
        cases gone }

theorem Writes.lives (ok : c.Ok) (writes : Writes alive c)
    (lives : Lives (fun a => a.writeFails = false) alive c c')
    (fed : c'.chan.log ≠ c.chan.log → alive = true) : Writes alive c' := by
  cases lives with
  | same => exact writes
  | task calm move => exact writes.step ok calm move
  | send sent =>
      obtain rfl : alive = true := by
        apply fed
        obtain ⟨-, -, rfl⟩ := send_eq_some sent
        simp
      exact writes.send sent
  | reader => exact writes.keep rfl rfl rfl rfl
  | spawn waiting | drop waiting => exact absurd (ok.spawned.mp waiting) writes.spawned

structure Prompt (alive : Bool) (c : Conn) : Prop where
  unspawned : c.writer = .unspawned → c.held = []
  spawned : c.writer ≠ .unspawned → c.writer ≠ .done → Writes alive c

theorem prompt_fresh (sndBuf : Nat) : Prompt alive (fresh sndBuf) :=
  ⟨fun _ => rfl, fun new => absurd rfl new⟩

theorem prompt_spawn (held : c.held = []) : Prompt alive c.spawn :=
  ⟨fun _ => held, fun _ _ => writes_spawn held⟩

theorem step_held (h : c.step alive a = some c') (unspawned : c.writer = .unspawned) :
    c'.held = c.held := by
  cases moves_of_step h with
  | recv before | writeErr before =>
      rw [unspawned] at before
      cases before
  | push handing => rcases handing with ⟨data, before⟩ | before | before <;> simp_all
  | _ => rfl

theorem Prompt.lives (ok : c.Ok) (prompt : Prompt alive c)
    (lives : Lives (fun a => a.writeFails = false) alive c c')
    (fed : c'.chan.log ≠ c.chan.log → alive = true) : Prompt alive c' := by
  have old : c'.writer = c.writer → c'.held = c.held ∨ c.writer ≠ .unspawned →
      Prompt alive c' := by
    intro writer held
    constructor
    · intro new
      rw [writer] at new
      rw [held.resolve_right (not_not.mpr new)]
      exact prompt.unspawned new
    · intro spawned live
      rw [writer] at spawned live
      exact (prompt.spawned spawned live).lives ok lives fed
  cases lives with
  | same => exact prompt
  | task calm move =>
      rcases step_writer move with same | ⟨spawned, live, after⟩
      · by_cases new : c.writer = .unspawned
        · exact old same (Or.inl (step_held move new))
        · exact old same (Or.inr new)
      · exact ⟨fun new => absurd new after,
          fun _ _ => (prompt.spawned spawned live).lives ok (.task calm move) fed⟩
  | send sent =>
      have sent' := sent
      obtain ⟨-, -, rfl⟩ := send_eq_some sent'
      exact old rfl (Or.inl rfl)
  | reader => exact old rfl (Or.inl rfl)
  | spawn waiting => exact prompt_spawn (prompt.unspawned (ok.spawned.mp waiting))
  | drop => exact ⟨by simp [Conn.drop], by simp [Conn.drop]⟩

theorem Writes.flushed (ok : c.Ok) (writes : Writes alive c) : c.Flushed where
  waiting := fun waiting drained => by
    have held := writes.idle waiting drained
    have whole := ok.handed_eq (by simp [Serving, waiting])
    rw [Fifo.received_eq_log drained, held, List.append_nil] at whole
    exact ⟨held, whole⟩
  ended := fun ended => by
    obtain ⟨-, whole⟩ := writes.handed (by simp [Serving, ended])
    rwa [writes.empty ended, List.append_nil] at whole

end Conn

namespace Endpoint

open Conn Transition

variable {may : Allowed} {act : ConnAct → Prop} {o o' : Owners} {e e' : Endpoint τ} {n k : Nat}
  {l l' : Link τ} {hand hand' : Option (Nat × Bytes)} {frames frames' : List DataInfo}

theorem lives_setLink (there : e.links[k]? = some l') {u : Link τ} (ident : u.ident = l'.ident)
    (move : k = n → Lives act (e.senders o n) l'.conn u.conn) (here : e.links[n]? = some l) :
    ∃ u', (e.links.set k u)[n]? = some u' ∧ u'.ident = l.ident ∧
      Lives act (e.senders o n) l.conn u'.conn := by
  by_cases same : n = k
  · subst same
    cases there.symm.trans here
    exact ⟨u, Slots.get_set_self here, ident, move rfl⟩
  · exact ⟨l, (Slots.get_set_ne same).trans here, rfl, .same⟩

theorem lives_of_step {a : EndpointAct} (admitted : ∀ n b, a = .conn n b → act b)
    (h : e.step o a = some e') (here : e.links[n]? = some l) :
    ∃ l', e'.links[n]? = some l' ∧ l'.ident = l.ident ∧
      Lives act (e.senders o n) l.conn l'.conn := by
  cases moves_of_step h with
  | writer => exact ⟨l, here, rfl, .same⟩
  | conn there move =>
      refine lives_setLink there rfl (fun same => ?_) here
      subst same
      exact .task (admitted _ _ rfl) move
  | sendData there hand | sendDataErr there hand | remove there hand | finish there hand =>
      refine lives_setLink there rfl (fun _ => .reader ?_ ?_ ?_) here
      all_goals simp [hand]

theorem Evolves.lives (h : Evolves may e e')
    (own : ∀ o' a, may.act o' a → o' = o ∧ ∀ n b, a = .conn n b → act b)
    (here : e.links[n]? = some l) :
    ∃ l', e'.links[n]? = some l' ∧ l'.ident = l.ident ∧
      Lives act (e.senders o n) l.conn l'.conn := by
  cases h with
  | step allowed h =>
      obtain ⟨rfl, admitted⟩ := own _ _ allowed
      exact lives_of_step admitted h here
  | enqueue _ h =>
      obtain ⟨-, rfl⟩ := enqueue_eq_some h
      exact ⟨l, here, rfl, .same⟩
  | deliver h =>
      obtain ⟨u, there, h⟩ := Option.bind_eq_some_iff.mp h
      obtain ⟨conn, sent, rfl⟩ := Option.map_eq_some_iff.mp h
      exact lives_setLink there rfl (fun _ => .send sent) here
  | addLink => exact ⟨l, Slots.get_append_left here, rfl, .same⟩
  | spawn there waiting =>
      exact lives_setLink there rfl (fun _ => .spawn (of_decide_eq_true waiting)) here
  | drop _ there waiting =>
      exact lives_setLink there rfl (fun _ => .drop (of_decide_eq_true waiting)) here
  | _ => exact ⟨l, here, rfl, .same⟩

/-- The main loop holds a sender of exactly the connection it is sending to, and then a clone of
every map. -/
structure Drives (o : Owners) (hand : Option (Nat × Bytes)) : Prop where
  link : ∀ n, o.link n = true ↔ ∃ data, hand = some (n, data)
  map : ∀ entry m, hand = some entry → o.map m = true

theorem Feeds.fewer (h : Feeds e hand frames e' hand' frames') {m : Nat} {c : UInt64}
    (found : e'.lookup m c = some n) (old : n < e.links.length) : e.lookup m c = some n := by
  cases h with
  | idle quiet | route quiet | miss quiet | lose quiet => exact quiet.fewer _ _ _ found
  | deliver sent =>
      obtain ⟨l, -, -, rfl⟩ := deliver_eq_some sent
      exact found
  | add | «open» =>
      rcases lookup_addLink found with ⟨-, -, last⟩ | ⟨-, found⟩
      · exact absurd last (Nat.ne_of_lt old)
      · exact found

theorem Feeds.fed (h : Feeds e hand frames e' hand' frames') (here : e.links[n]? = some l)
    (here' : e'.links[n]? = some l') (more : l'.conn.chan.log ≠ l.conn.chan.log) :
    ∃ data, hand = some (n, data) := by
  have quietly : Undisturbed e e' → False := fun quiet => by
    obtain ⟨u, found, -, same⟩ := undisturbed_link quiet here'
    cases here.symm.trans found
    exact more same.symm
  have grown : ∀ {u : Link τ}, (e.links ++ [u])[n]? = some l' → False := fun found => by
    rw [Slots.get_append_left here] at found
    cases found
    exact more rfl
  cases h with
  | idle quiet | route quiet | miss quiet | lose quiet => exact (quietly quiet).elim
  | @deliver _ _ k data sent =>
      obtain ⟨u, -, -, rfl⟩ := deliver_eq_some sent
      rcases Slots.get_set here' with ⟨rfl, -⟩ | ⟨-, found⟩
      · exact ⟨data, rfl⟩
      · cases here.symm.trans found
        exact absurd rfl more
  | add | «open» => exact (grown here').elim

/-- One step of a side as its connections see it: no sender comes back. -/
structure Carries (act : ConnAct → Prop) (o : Owners) (e : Endpoint τ) (o' : Owners)
    (e' : Endpoint τ) : Prop where
  lives : ∀ (n : Nat) (l : Link τ), e.links[n]? = some l →
    ∃ l', e'.links[n]? = some l' ∧ Lives act (e.senders o n) l.conn l'.conn ∧
      (l'.conn.chan.log ≠ l.conn.chan.log → e.senders o n = true) ∧
      (e'.senders o' n = true → e.senders o n = true)
  new : ∀ (l : Link τ) (alive : Bool), e'.links[e.links.length]? = some l → l.conn.Prompt alive
  grows : e'.links.length ≤ e.links.length + 1

section
variable (evolves : Evolves may e e') (feeds : Feeds e hand frames e' hand' frames')
  (own : ∀ o' a, may.act o' a → o' = o ∧ ∀ n b, a = .conn n b → act b)
  (drives : Drives o hand) (drives' : Drives o' hand')
  (maps : e.links ≠ [] → ∀ m, o'.map m = true → o.map m = true)
  (added : ∀ l, e'.links[e.links.length]? = some l → o.map l.map = true)
include evolves own maps added

theorem mapAlive_of_evolves (linked : e.links ≠ []) {m : Nat} (alive : e'.mapAlive o' m = true) :
    e.mapAlive o m = true := by
  unfold mapAlive at alive ⊢
  rw [Bool.or_eq_true] at alive ⊢
  rcases alive with alive | alive
  · exact Or.inl (maps linked m alive)
  · obtain ⟨u, mem, alive⟩ := List.any_eq_true.mp alive
    obtain ⟨k, here'⟩ := List.mem_iff_getElem?.mp mem
    obtain ⟨map, live⟩ := of_decide_eq_true alive
    rcases evolves.link here' with ⟨v, here, -⟩ | rfl
    · obtain ⟨u', found, ident, lives⟩ := evolves.lives own here
      cases here'.symm.trans found
      simp only [Link.ident, Prod.mk.injEq] at ident
      refine Or.inr (List.any_eq_true.mpr ⟨v, List.mem_of_getElem? here, decide_eq_true ⟨?_, ?_⟩⟩)
      · exact ident.2.2.2.symm.trans map
      · exact fun ended => live (lives.ended ended)
    · exact Or.inl (map ▸ added u here')

include feeds drives drives' in
theorem senders_of_evolves (here : e.links[n]? = some l) (alive : e'.senders o' n = true) :
    e.senders o n = true := by
  have linked : e.links ≠ [] := fun none => by simp [none] at here
  obtain ⟨l', here', ident, -⟩ := evolves.lives own here
  simp only [Link.ident, Prod.mk.injEq] at ident
  have entered : e.lookup l.map l.connId = some n → e.mapAlive o l.map = true →
      e.senders o n = true := fun found map => by simp [senders, here, found, map]
  unfold senders at alive
  rw [here'] at alive
  dsimp only at alive
  rw [ident.2.2.1, ident.2.2.2] at alive
  rcases Bool.or_eq_true_iff.mp alive with held | alive
  · obtain ⟨data, rfl⟩ := (drives'.link n).mp held
    have shared : ∀ m, o.map m = true := fun m => maps linked m (drives'.map _ m rfl)
    cases feeds with
    | idle => simp [senders, (drives.link n).mpr ⟨data, rfl⟩]
    | route _ there _ _ found =>
        cases here.symm.trans there
        exact entered found (by simp [mapAlive, shared])
    | add => simp [senders, (drives.link n).mpr ⟨data, rfl⟩]
    | «open» => exact absurd (Slots.get_lt here) (Nat.lt_irrefl _)
  · obtain ⟨map, found⟩ := Bool.and_eq_true_iff.mp alive
    refine entered (feeds.fewer (eq_of_beq found) (Slots.get_lt here)) ?_
    exact mapAlive_of_evolves evolves own maps added linked map

include feeds drives drives' in
theorem carries_of_evolves
    (new : ∀ (l : Link τ) (alive : Bool), e'.links[e.links.length]? = some l →
      l.conn.Prompt alive) : Carries act o e o' e' where
  lives := fun n l here => by
    obtain ⟨l', here', -, lives⟩ := evolves.lives own here
    refine ⟨l', here', lives, fun more => ?_, ?_⟩
    · simp [senders, (drives.link n).mpr (feeds.fed here here' more)]
    · exact senders_of_evolves evolves feeds own drives drives' maps added here
  new := new
  grows := by
    by_contra more
    have bound : e.links.length + 1 < e'.links.length := Nat.lt_of_not_le more
    rcases evolves.link (List.getElem?_eq_getElem bound) with ⟨l, here, -⟩ | last
    · exact absurd (Slots.get_lt here) (by omega)
    · omega

end

def Prompt (o : Owners) (e : Endpoint τ) : Prop :=
  ∀ (n : Nat) (l : Link τ), e.links[n]? = some l → l.conn.Prompt (e.senders o n)

abbrev Calm : ConnAct → Prop := fun a => a.writeFails = false

theorem Carries.writes (carries : Carries Calm o e o' e') (ok : e.Ok)
    (here : e.links[n]? = some l) (writes : l.conn.Writes (e.senders o n)) :
    ∃ l', e'.links[n]? = some l' ∧ l'.conn.Writes (e'.senders o' n) := by
  obtain ⟨l', here', lives, fed, fade⟩ := carries.lives n l here
  exact ⟨l', here', (writes.lives (ok.conns n l here) lives fed).fade fade⟩

theorem Prompt.carries (prompt : e.Prompt o) (ok : e.Ok) (carries : Carries Calm o e o' e') :
    e'.Prompt o' := by
  intro n l' here'
  by_cases old : n < e.links.length
  · have here := List.getElem?_eq_getElem old
    obtain ⟨u, found, lives, fed, fade⟩ := carries.lives n _ here
    cases here'.symm.trans found
    have after := (prompt n _ here).lives (ok.conns n _ here) lives fed
    exact ⟨after.unspawned, fun spawned live => (after.spawned spawned live).fade fade⟩
  · have bound := Slots.get_lt here'
    have grows := carries.grows
    obtain rfl : n = e.links.length := by omega
    exact carries.new l' _ here'

/-! ## Runs -/

section
variable {σ α : Type*} {step : σ → α → Option σ} {ok : σ → α → Prop} {s₀ s s' : σ}
  (owners : σ → Owners) (endpoint : σ → Endpoint τ)
  (first : (endpoint s₀).Prompt (owners s₀))
  (good : ∀ s, Run step ok s₀ s → (endpoint s).Ok)
  (carries : ∀ s a s', Run step ok s₀ s → ok s a → step s a = some s' →
    Carries Calm (owners s) (endpoint s) (owners s') (endpoint s'))
include first good carries

theorem prompt_of_run (run : Run step ok s₀ s) : (endpoint s).Prompt (owners s) :=
  run.induct (P := fun s => (endpoint s).Prompt (owners s)) first
    fun _ _ _ before ih admitted move => ih.carries (good _ before) (carries _ _ _ before admitted move)

theorem flushed_of_run (before : Run step ok s₀ s) (run : Run step ok s s')
    (here : (endpoint s).links[n]? = some l) (spawned : l.conn.writer ≠ .unspawned)
    (live : l.conn.writer ≠ .done) :
    ∃ l', (endpoint s').links[n]? = some l' ∧ l'.conn.Flushed := by
  have writes := (prompt_of_run owners endpoint first good carries before n l here).spawned spawned live
  have after : ∃ l', (endpoint s').links[n]? = some l' ∧
      l'.conn.Writes ((endpoint s').senders (owners s') n) := by
    refine run.induct (P := fun t => ∃ l', (endpoint t).links[n]? = some l' ∧
      l'.conn.Writes ((endpoint t).senders (owners t) n)) ⟨l, here, writes⟩ ?_
    rintro t a u more ⟨k, found, ih⟩ admitted move
    have reached := before.trans more
    exact (carries t a u reached admitted move).writes (good t reached) found ih
  obtain ⟨l', found, writes⟩ := after
  exact ⟨l', found, writes.flushed ((good s' (before.trans run)).conns n l' found)⟩

end

end Endpoint

end Rfrp
