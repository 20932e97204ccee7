import Rfrp.Proto.Quiescence

/-!
# How connections end

A connection whose read task has cleaned up is not found under its ids any more. While no socket
operation fails, a read task cleans up only after its peer has shut down.
-/

namespace Rfrp

variable {τ : Type}

theorem Link.attached_of_live {l : Link τ} (live : l.conn.readerLeft = false) :
    l.attached = true := by
  unfold Conn.readerLeft at live
  unfold Link.attached
  cases reader : l.conn.reader <;> simp_all

theorem FrameWriter.step_serving {w w' : FrameWriter} {a : WriterAct} (serving : w.task ≠ .done)
    (going : w.aborted = false) (calm : a ≠ .sendErr) (h : w.step true a = some w') :
    w'.task ≠ .done ∧ w'.aborted = false := by
  cases moves_of_step h with
  | recvNone _ _ gone => cases gone
  | sendErr => exact absurd rfl calm
  | cancel aborted =>
      rw [going] at aborted
      cases aborted
  | peerReads => exact ⟨serving, going⟩
  | recv | sent => exact ⟨by simp, going⟩

theorem Conn.step_left {c c' : Conn} {senders : Bool} {a : ConnAct} (calm : a.fails = false)
    (h : c.step senders a = some c') (before : c.readerLeft = true → c.eof = true) :
    c'.readerLeft = true → c'.eof = true := by
  cases moves_of_step h with
  | readErr => cases calm
  | peerShutdown => exact fun _ => rfl
  | read => simp [Conn.readerLeft]
  | readEof _ _ eof => exact fun _ => eof
  | _ => exact before

theorem Conn.step_serving {c c' : Conn} {a : ConnAct} (calm : a.fails = false)
    (h : c.step true a = some c') (serving : c.Serving) : c'.Serving := by
  cases moves_of_step h with
  | writeErr | closeErr => cases calm
  | recvNone _ _ gone => cases gone
  | closeDone closing => exact absurd closing serving.1
  | recv | writeDone | testEmpty | testMore | flushDone | flushErr => simp [Serving]
  | _ => exact serving

namespace Endpoint

variable {may : Allowed} {o : Owners} {e e' : Endpoint τ} {a : EndpointAct} {n : Nat}
  {l l' : Link τ}

def Detached (e : Endpoint τ) : Prop :=
  ∀ (n : Nat) (l : Link τ), e.links[n]? = some l → l.attached = false →
    e.lookup l.map l.connId ≠ some n

theorem detached_spawn (sndBuf : Nat) : (spawn sndBuf : Endpoint τ).Detached :=
  fun _ _ here => by simp [spawn] at here

theorem Detached.setLink (detached : e.Detached) (tunnel : FrameWriter)
    (here : e.links[n]? = some l) (ident : l'.ident = l.ident)
    (gone : l'.attached = false → l.attached = false) :
    ({ e with tunnel }.setLink n l').Detached := by
  intro m k found gone'
  rcases Slots.get_set found with ⟨rfl, rfl⟩ | ⟨-, found⟩
  · simp only [Link.ident, Prod.mk.injEq] at ident
    rw [ident.2.2.1, ident.2.2.2]
    exact detached _ l here (gone gone')
  · exact detached m k found gone'

theorem Detached.fewer (detached : e.Detached) (links : e'.links = e.links)
    (fewer : ∀ m c n, e'.lookup m c = some n → e.lookup m c = some n) : e'.Detached :=
  fun n l here gone found => detached n l (links ▸ here) gone (fewer _ _ _ found)

theorem Detached.step (detached : e.Detached) (h : e.step o a = some e') : e'.Detached := by
  cases moves_of_step h with
  | writer => exact detached
  | @conn n l _ conn here move =>
      refine detached.setLink e.tunnel here rfl fun gone => ?_
      unfold Link.attached Link.setConn at *
      rcases Conn.step_reader move with ⟨same, -⟩ | ⟨-, d, new, -⟩ | ⟨-, new, -⟩ <;> simp_all
  | sendData here hand =>
      exact detached.setLink _ here rfl fun gone => by simp [Link.attached, Link.setReader] at gone
  | sendDataErr here hand =>
      exact detached.setLink e.tunnel here rfl fun gone => by
        simp [Link.attached, Link.setReader] at gone
  | remove here left =>
      intro m k found gone entry
      obtain ⟨entry, other⟩ := lookup_modify_remove entry
      rcases Slots.get_set found with ⟨rfl, rfl⟩ | ⟨-, found⟩
      · exact other ⟨rfl, rfl⟩
      · exact detached m k found gone entry
  | finish here left =>
      exact detached.setLink e.tunnel here rfl fun _ => by simp [Link.attached, left]

theorem Detached.evolves (detached : e.Detached) (kept : ¬ may.drop) (h : Evolves may e e') :
    e'.Detached := by
  cases h with
  | same => exact detached
  | step _ h => exact detached.step h
  | enqueue _ h =>
      obtain ⟨-, rfl⟩ := enqueue_eq_some h
      exact detached
  | deliver h =>
      obtain ⟨l, here, -, rfl⟩ := deliver_eq_some h
      exact detached.setLink e.tunnel here rfl id
  | addMap => exact detached.fewer rfl fun _ _ _ => lookup_addMap
  | removeEntry => exact detached.fewer rfl fun _ _ _ found => (lookup_modify_remove found).1
  | addLink _ _ _ live =>
      intro m k found gone entry
      rcases Slots.get_append found with found | ⟨-, rfl⟩
      · exact detached m k found gone (lookup_addLink_lt entry (Slots.get_lt found))
      · rw [Link.attached_of_live live] at gone
        cases gone
  | spawn here =>
      exact detached.setLink e.tunnel here rfl fun gone => by
        simp [Link.attached, Link.setConn, Conn.spawn] at gone
  | drop dropped => exact absurd dropped kept
  | abort => exact detached

theorem Parked.finished (parked : e.Parked o) (drained : e.Drained) (detached : e.Detached)
    (ok : e.Ok) (free : o.link n = false) (here : e.links[n]? = some l)
    (reader : l.conn.reader = .done) :
    l.conn.isOpen = false ∧ e.lookup l.map l.connId ≠ some n := by
  have dropped := detached n l here (by simp [Link.attached, reader])
  have writer : l.conn.writer = .done := by
    rcases parked.writer drained here with new | ⟨-, alive⟩ | finished
    · have unspawned := (ok.conns n l here).spawned.mpr new
      rw [reader] at unspawned
      cases unspawned
    · simp [senders, free, here, dropped] at alive
    · exact finished
  exact ⟨by simp [Conn.isOpen, reader, writer], dropped⟩

theorem Parked.closed (parked : e.Parked o) (drained : e.Drained) (detached : e.Detached)
    (ok : e.Ok) (free : o.link n = false) (here : e.links[n]? = some l)
    (spawned : l.conn.reader ≠ .unspawned) (eof : l.conn.eof = true) :
    l.conn.isOpen = false ∧ e.lookup l.map l.connId ≠ some n := by
  apply parked.finished drained detached ok free here
  rcases parked.reader drained here with new | ⟨-, open'⟩ | finished
  · exact absurd new spawned
  · rw [eof] at open'
    cases open'
  · exact finished

/-! ## Without failures -/

structure Going (e : Endpoint τ) : Prop where
  serving : e.tunnel.task ≠ .done
  going : e.tunnel.aborted = false

structure Sound (e : Endpoint τ) : Prop extends e.Going where
  left : ∀ (n : Nat) (l : Link τ), e.links[n]? = some l → l.conn.readerLeft = true →
    l.conn.eof = true

theorem going_spawn (sndBuf : Nat) : (spawn sndBuf : Endpoint τ).Going :=
  ⟨by simp [spawn, FrameWriter.spawn], rfl⟩

theorem sound_spawn (sndBuf : Nat) : (spawn sndBuf : Endpoint τ).Sound :=
  ⟨going_spawn sndBuf, fun _ _ here => by simp [spawn] at here⟩

theorem Going.step (going : e.Going) (senders : o.tunnel = true) (calm : a ≠ .writer .sendErr)
    (h : e.step o a = some e') : e'.Going := by
  obtain ⟨serving, going⟩ := going
  cases moves_of_step h with
  | writer move =>
      have alive : e.tunnelSenders o = true := by simp [tunnelSenders, senders]
      rw [alive] at move
      obtain ⟨serving, going⟩ :=
        FrameWriter.step_serving serving going (fun same => calm (same ▸ rfl)) move
      exact ⟨serving, going⟩
  | sendData _ _ sent =>
      obtain ⟨-, rfl⟩ := FrameWriter.send_eq_some sent
      exact ⟨serving, going⟩
  | _ => exact ⟨serving, going⟩

theorem Going.evolves (going : e.Going) (stays : ¬ may.abort)
    (calm : ∀ o a, may.act o a → o.tunnel = true ∧ a ≠ .writer .sendErr)
    (h : Evolves may e e') : e'.Going := by
  cases h with
  | step admitted h =>
      obtain ⟨senders, calm⟩ := calm _ _ admitted
      exact going.step senders calm h
  | enqueue _ h =>
      obtain ⟨-, rfl⟩ := enqueue_eq_some h
      exact ⟨going.serving, going.going⟩
  | deliver h =>
      obtain ⟨l, -, -, rfl⟩ := deliver_eq_some h
      exact ⟨going.serving, going.going⟩
  | abort aborted => exact absurd aborted stays
  | _ => exact ⟨going.serving, going.going⟩

theorem Sound.setLeft (sound : e.Sound) {e₀ : Endpoint τ} (links : e₀.links = e.links)
    (left : l'.conn.readerLeft = true → l'.conn.eof = true) :
    ∀ (m : Nat) (k : Link τ), (e₀.setLink n l').links[m]? = some k → k.conn.readerLeft = true →
      k.conn.eof = true := by
  intro m k found gone
  rw [setLink_links, links] at found
  rcases Slots.get_set found with ⟨-, rfl⟩ | ⟨-, found⟩
  · exact left gone
  · exact sound.left m k found gone

theorem Sound.step (sound : e.Sound) (senders : o.tunnel = true) (calm : a.fails = false)
    (h : e.step o a = some e') : e'.Sound := by
  refine ⟨sound.toGoing.step senders (by rintro rfl; cases calm) h, ?_⟩
  have left := sound.left
  cases moves_of_step h with
  | writer => exact left
  | conn here move => exact sound.setLeft rfl (Conn.step_left calm move (left _ _ here))
  | sendData =>
      refine sound.setLeft rfl fun gone => ?_
      simp [Link.setReader, Conn.readerLeft] at gone
  | sendDataErr _ _ closed =>
      exact absurd (by simpa [FrameWriter.closed] using closed) sound.serving
  | @remove n l here gone | @finish n l here gone =>
      have eof := left n l here (by simp [Conn.readerLeft, gone])
      exact sound.setLeft rfl fun _ => eof

theorem Sound.evolves (sound : e.Sound) (kept : ¬ may.drop) (stays : ¬ may.abort)
    (calm : ∀ o a, may.act o a → o.tunnel = true ∧ a.fails = false) (h : Evolves may e e') :
    e'.Sound := by
  have going : e'.Going := by
    refine sound.toGoing.evolves stays (fun o a admitted => ?_) h
    obtain ⟨senders, calm⟩ := calm o a admitted
    exact ⟨senders, by rintro rfl; cases calm⟩
  refine ⟨going, ?_⟩
  cases h with
  | step admitted h =>
      obtain ⟨senders, calm⟩ := calm _ _ admitted
      exact (sound.step senders calm h).left
  | enqueue _ h =>
      obtain ⟨-, rfl⟩ := enqueue_eq_some h
      exact sound.left
  | deliver h =>
      obtain ⟨l, here, -, rfl⟩ := deliver_eq_some h
      exact sound.setLeft rfl fun gone => sound.left _ l here gone
  | addLink _ _ _ live =>
      intro m k found gone
      rcases Slots.get_append found with found | ⟨-, rfl⟩
      · exact sound.left m k found gone
      · rw [live] at gone
        cases gone
  | spawn =>
      refine sound.setLeft rfl fun gone => ?_
      simp [Link.setConn, Conn.spawn, Conn.readerLeft] at gone
  | drop dropped => exact absurd dropped kept
  | _ => exact sound.left

theorem Sound.open (sound : e.Sound) (here : e.links[n]? = some l) (eof : l.conn.eof = false) :
    l.conn.isOpen = true := by
  have live : l.conn.readerLeft ≠ true := fun left => by
    rw [sound.left n l here left] at eof
    cases eof
  have reader : l.conn.reader ≠ .done := fun finished => live (by simp [Conn.readerLeft, finished])
  simp [Conn.isOpen, reader]

theorem gone_setLink {k : Nat} {u u' : Link τ} (there : e.links[k]? = some u)
    (ident : u'.ident = u.ident) (kept : u.attached = false → u'.attached = false)
    (here : e.links[n]? = some l) (gone : l.attached = false) :
    ∃ l', (e.setLink k u').links[n]? = some l' ∧ l'.ident = l.ident ∧ l'.attached = false := by
  by_cases same : n = k
  · subst same
    cases there.symm.trans here
    exact ⟨u', Slots.get_set_self here, ident, kept gone⟩
  · exact ⟨l, (Slots.get_set_ne same).trans here, rfl, gone⟩

theorem Evolves.gone (h : Evolves may e e') (here : e.links[n]? = some l)
    (gone : l.attached = false) :
    ∃ l', e'.links[n]? = some l' ∧ l'.ident = l.ident ∧ l'.attached = false := by
  cases h with
  | step _ h =>
      cases moves_of_step h with
      | writer => exact ⟨l, here, rfl, gone⟩
      | conn there move =>
          refine gone_setLink there rfl (fun finished => ?_) here gone
          unfold Link.attached Link.setConn at *
          rcases Conn.step_reader move with ⟨same, -⟩ | ⟨old, -⟩ | ⟨old, -⟩ <;> simp_all
      | sendData there hand =>
          exact gone_setLink (e := { e with tunnel := _ }) there rfl
            (fun finished => by simp [Link.attached, hand] at finished) here gone
      | sendDataErr there hand =>
          exact gone_setLink there rfl (fun finished => by simp [Link.attached, hand] at finished) here gone
      | remove there =>
          exact gone_setLink (e := { e with maps := _ }) there rfl (fun _ => rfl) here gone
      | finish there => exact gone_setLink there rfl (fun _ => rfl) here gone
  | enqueue _ h =>
      obtain ⟨-, rfl⟩ := enqueue_eq_some h
      exact ⟨l, here, rfl, gone⟩
  | deliver h =>
      obtain ⟨u, there, -, rfl⟩ := deliver_eq_some h
      exact gone_setLink there rfl id here gone
  | addLink => exact ⟨l, Slots.get_append_left here, rfl, gone⟩
  | spawn there waiting =>
      refine gone_setLink there rfl (fun finished => ?_) here gone
      have unspawned := of_decide_eq_true waiting
      simp [Link.attached, unspawned] at finished
  | drop _ there => exact gone_setLink there rfl (fun _ => rfl) here gone
  | _ => exact ⟨l, here, rfl, gone⟩

def Findable (e : Endpoint τ) : Prop :=
  ∀ (n : Nat) (l : Link τ), e.links[n]? = some l → l.attached = true →
    e.lookup l.map l.connId = some n

def Distinct (e : Endpoint τ) : Prop :=
  ∀ (n k : Nat) (l l' : Link τ), e.links[n]? = some l → e.links[k]? = some l' →
    l.map = l'.map → l.connId = l'.connId → n = k

theorem Distinct.before (distinct : e'.Distinct) (h : Evolves may e e') : e.Distinct := by
  intro n k l l' here here' map connId
  obtain ⟨u, there, ident⟩ := h.persists here
  obtain ⟨u', there', ident'⟩ := h.persists here'
  simp only [Link.ident, Prod.mk.injEq] at ident ident'
  apply distinct n k u u' there there'
  · rw [ident.2.2.2, ident'.2.2.2, map]
  · rw [ident.2.2.1, ident'.2.2.1, connId]

theorem Findable.setLink (findable : e.Findable) (tunnel : FrameWriter)
    (here : e.links[n]? = some l) (ident : l'.ident = l.ident)
    (attached : l'.attached = true → l.attached = true) :
    ({ e with tunnel }.setLink n l').Findable := by
  intro m k found there
  rcases Slots.get_set found with ⟨rfl, rfl⟩ | ⟨-, found⟩
  · simp only [Link.ident, Prod.mk.injEq] at ident
    rw [ident.2.2.1, ident.2.2.2]
    exact findable _ l here (attached there)
  · exact findable m k found there

theorem attached_of_step {o : Owners} {conn : Conn} {a : ConnAct}
    (move : l.conn.step (e.senders o n) a = some conn) (there : (l.setConn conn).attached = true) :
    l.attached = true := by
  unfold Link.attached Link.setConn at *
  rcases Conn.step_reader move with ⟨same, -⟩ | ⟨old, -⟩ | ⟨old, -⟩ <;> simp_all

theorem Findable.step (findable : e.Findable) (distinct : e.Distinct) (h : e.step o a = some e') :
    e'.Findable := by
  cases moves_of_step h with
  | writer => exact findable
  | conn here move => exact findable.setLink e.tunnel here rfl (attached_of_step move)
  | sendData here hand =>
      exact findable.setLink _ here rfl fun _ => by simp [Link.attached, hand]
  | sendDataErr here hand =>
      exact findable.setLink e.tunnel here rfl fun _ => by simp [Link.attached, hand]
  | @remove n l here =>
      intro m k found there
      rcases Slots.get_set found with ⟨rfl, rfl⟩ | ⟨other, found⟩
      · simp [Link.attached, Link.setReader] at there
      · refine (lookup_modify fun map _ => DashMap.remove_ne fun connId => ?_).trans
          (findable m k found there)
        exact other (distinct m n k l found here map connId)
  | finish here =>
      exact findable.setLink e.tunnel here rfl fun there => by
        simp [Link.attached, Link.setReader] at there

theorem Findable.evolves (findable : e.Findable) (stays : ¬ may.remove) (distinct : e'.Distinct)
    (new : ∀ l, e'.links[e.links.length]? = some l →
      e'.lookup l.map l.connId = some e.links.length)
    (h : Evolves may e e') : e'.Findable := by
  have before := distinct.before h
  cases h with
  | same => exact findable
  | step _ h => exact findable.step before h
  | enqueue _ h =>
      obtain ⟨-, rfl⟩ := enqueue_eq_some h
      exact findable
  | deliver h =>
      obtain ⟨l, here, -, rfl⟩ := deliver_eq_some h
      exact findable.setLink e.tunnel here rfl id
  | addMap =>
      intro n l here there
      obtain ⟨map, stored, entry⟩ := Option.bind_eq_some_iff.mp (findable n l here there)
      exact Option.bind_eq_some_iff.mpr ⟨map, Slots.get_append_left stored, entry⟩
  | removeEntry removed => exact absurd removed stays
  | @addLink info p c m conn =>
      have last := new ⟨info, p, c, m, conn⟩ (by simp [Endpoint.addLink])
      intro n l here there
      rcases Slots.get_append here with old | ⟨rfl, rfl⟩
      · refine (lookup_modify fun map _ => DashMap.insert_ne fun connId => ?_).trans
          (findable n l old there)
        have same := distinct n e.links.length l _ here (by simp [Endpoint.addLink]; rfl) map connId
        exact absurd same (Nat.ne_of_lt (Slots.get_lt old))
      · exact last
  | @spawn n l here waiting =>
      have unspawned : l.conn.reader = .unspawned := by simpa [Link.waiting] using waiting
      exact findable.setLink e.tunnel here rfl fun _ => by simp [Link.attached, unspawned]
  | drop _ here =>
      exact findable.setLink e.tunnel here rfl fun there => by
        simp [Link.attached, Link.setConn, Conn.drop] at there
  | abort => exact findable

structure Entered (e : Endpoint τ) : Prop where
  found : ∀ (n : Nat) (l : Link τ), e.links[n]? = some l → l.attached = true →
    e.lookup l.map l.connId = some n
  served : ∀ (n : Nat) (l : Link τ), e.links[n]? = some l → l.attached = true → l.conn.Serving

theorem entered_spawn (sndBuf : Nat) : (spawn sndBuf : Endpoint τ).Entered :=
  ⟨fun _ _ here => by simp [spawn] at here, fun _ _ here => by simp [spawn] at here⟩

theorem Entered.setLink (entered : e.Entered) (tunnel : FrameWriter) (here : e.links[n]? = some l)
    (ident : l'.ident = l.ident) (attached : l'.attached = true → l.attached = true)
    (served : l'.attached = true → l'.conn.Serving) :
    ({ e with tunnel }.setLink n l').Entered := by
  refine ⟨Findable.setLink entered.found tunnel here ident attached, ?_⟩
  intro m k found there
  rcases Slots.get_set found with ⟨rfl, rfl⟩ | ⟨-, found⟩
  · exact served there
  · exact entered.served m k found there

theorem Entered.step (entered : e.Entered) (alive : ∀ m, o.map m = true) (calm : a.fails = false)
    (distinct : e.Distinct) (h : e.step o a = some e') : e'.Entered := by
  have found : e'.Findable := Findable.step entered.found distinct h
  have served := entered.served
  cases moves_of_step h with
  | writer => exact ⟨found, served⟩
  | @conn n l a conn here move =>
      refine entered.setLink e.tunnel here rfl (attached_of_step move) fun there => ?_
      have before := attached_of_step move there
      have senders : e.senders o n = true := by
        simp [senders, here, mapAlive, alive, entered.found n l here before]
      rw [senders] at move
      exact Conn.step_serving calm move (served n l here before)
  | @sendData n l _ _ here hand =>
      have there : l.attached = true := by simp [Link.attached, hand]
      exact entered.setLink _ here rfl (fun _ => there) fun _ => served n l here there
  | @sendDataErr n l _ here hand =>
      have there : l.attached = true := by simp [Link.attached, hand]
      exact entered.setLink e.tunnel here rfl (fun _ => there) fun _ => served n l here there
  | remove here =>
      refine ⟨found, fun m k found' there => ?_⟩
      rcases Slots.get_set found' with ⟨rfl, rfl⟩ | ⟨-, found'⟩
      · simp [Link.attached, Link.setReader] at there
      · exact served m k found' there
  | finish here =>
      have gone : ∀ {l : Link τ}, (l.setReader .done).attached = true → False := by
        simp [Link.attached, Link.setReader]
      exact entered.setLink e.tunnel here rfl (fun there => (gone there).elim)
        fun there => (gone there).elim

theorem Entered.evolves (entered : e.Entered) (kept : ¬ may.drop) (stays : ¬ may.remove)
    (calm : ∀ o a, may.act o a → (∀ m, o.map m = true) ∧ a.fails = false)
    (distinct : e'.Distinct)
    (new : ∀ l, e'.links[e.links.length]? = some l →
      e'.lookup l.map l.connId = some e.links.length ∧ l.conn.Serving)
    (h : Evolves may e e') : e'.Entered := by
  have found : e'.Findable := Findable.evolves entered.found stays distinct (fun l at' => (new l at').1) h
  have served := entered.served
  have before := distinct.before h
  cases h with
  | same => exact entered
  | step admitted h =>
      obtain ⟨alive, calm⟩ := calm _ _ admitted
      exact entered.step alive calm before h
  | enqueue _ h =>
      obtain ⟨-, rfl⟩ := enqueue_eq_some h
      exact ⟨found, served⟩
  | deliver h =>
      obtain ⟨l, here, -, rfl⟩ := deliver_eq_some h
      exact entered.setLink e.tunnel here rfl id fun there => served _ l here there
  | addMap => exact ⟨found, served⟩
  | removeEntry removed => exact absurd removed stays
  | @addLink info p c m conn =>
      have last := new ⟨info, p, c, m, conn⟩ (by simp [Endpoint.addLink])
      refine ⟨found, fun n l here there => ?_⟩
      rcases Slots.get_append here with old | ⟨rfl, rfl⟩
      · exact served n l old there
      · exact last.2
  | @spawn n l here waiting =>
      have there : l.attached = true := by
        have unspawned : l.conn.reader = .unspawned := by simpa [Link.waiting] using waiting
        simp [Link.attached, unspawned]
      exact entered.setLink e.tunnel here rfl (fun _ => there)
        fun _ => by simp [Link.setConn, Conn.spawn, Conn.Serving]
  | drop dropped => exact absurd dropped kept
  | abort => exact ⟨found, served⟩

end Endpoint

end Rfrp
