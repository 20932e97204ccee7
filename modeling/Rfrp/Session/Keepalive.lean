import Rfrp.Session.Heartbeats

/-!
# Keepalive

A session with its clock. `Timed` adds the deadlines under which the two main loops wait for a frame
and the timer of the heartbeat task; times are in milliseconds. Without its clock a timed session is
a session, and every session is one (`erased`). As long as the heartbeat comes to rest in every
`PING_INTERVAL`, no deadline is met, whatever else the session does (`kept_alive`).
-/

namespace Rfrp

open Transition

def Server.keepaliveTimeout : Nat := 90000

def Client.keepaliveTimeout : Nat := 90000

def Client.pingInterval : Nat := 30000

/-- The main loop waits for a frame, under a deadline. -/
def Server.waits (s : Server) : Bool := s.main matches .reading

def Client.waits (c : Client) : Bool := c.main matches .reading | .awaiting _

/-- `quiet` remembers when the heartbeat was last seen at rest; no step of the code reads it. -/
structure Timed where
  session : Session
  now : Nat
  serverDeadline : Nat
  -- in the registration phase the end of the `timeout` on the answer
  clientDeadline : Nat
  -- the next tick of the heartbeat's interval, once its task has run
  nextTick : Option Nat
  quiet : Nat

inductive TimedAct
  | session (a : SessionAct)
  | pass (d : Nat)
  -- the heartbeat task makes its interval and skips the immediate tick
  | interval
  -- the next tick; which late ticks count as missed is up to the timer
  | tick (missed : Bool)
  -- an observer finds the heartbeat at rest
  | observe
deriving DecidableEq, Repr

theorem Server.timedOut_of_step {s s' : Server} {a : ServerAct} (h : Server.Moves s a s')
    (main : s'.main = .ended .keepaliveTimeout) :
    s.main = .ended .keepaliveTimeout ∨ (s.main = .reading ∧ a = .exit .keepaliveTimeout) := by
  cases h with
  | exit reads =>
      cases main
      exact Or.inr ⟨reads, rfl⟩
  | recvRegister reads | recvOther reads | recvUnrouted reads =>
      exact absurd (reads.symm.trans main) (by simp)
  | connect | bind | answer | answerErr | accept | acquire | cancelWaiting | cancel | endpoint =>
      exact Or.inl main
  | _ => cases main

theorem Client.timedOut_of_step {c c' : Client} {a : ClientAct} (h : Client.Moves c a c')
    (main : c'.main = .ended .keepaliveTimeout) :
    c.main = .ended .keepaliveTimeout ∨ (c.waits = true ∧ a = .exit .keepaliveTimeout) := by
  cases h with
  | giveUp waits | exit waits =>
      cases main
      exact Or.inr ⟨by simp [Client.waits, waits], rfl⟩
  | recvStray waits | recvOther waits | recvUnknown waits =>
      exact absurd (waits.symm.trans main) (by simp)
  | tick | ping | pingErr | pingCancel | endpoint => exact Or.inl main
  | _ => cases main

namespace Session

variable {s s' : Session} {a : SessionAct}

theorem server_timedOut (h : Moves s a s') (main : s'.server.main = .ended .keepaliveTimeout) :
    s.server.main = .ended .keepaliveTimeout ∨
      (s.server.main = .reading ∧ a = .server (.exit .keepaliveTimeout)) := by
  cases h with
  | server _ taken =>
      rcases Server.timedOut_of_step (Server.moves_of_step taken) main with old | ⟨reads, rfl⟩
      · exact Or.inl old
      · exact Or.inr ⟨reads, rfl⟩
  | client => exact Or.inl main
  | toServer _ _ taken | toClient _ taken =>
      rcases Server.timedOut_of_step (Server.moves_of_step taken) main with old | ⟨-, other⟩
      · exact Or.inl old
      · cases other

theorem client_timedOut (h : Moves s a s') (main : s'.client.main = .ended .keepaliveTimeout) :
    s.client.main = .ended .keepaliveTimeout ∨
      (s.client.waits = true ∧ a = .client (.exit .keepaliveTimeout)) := by
  cases h with
  | server => exact Or.inl main
  | client _ taken =>
      rcases Client.timedOut_of_step (Client.moves_of_step taken) main with old | ⟨waits, rfl⟩
      · exact Or.inl old
      · exact Or.inr ⟨waits, rfl⟩
  | toServer _ taken | toClient _ _ taken =>
      rcases Client.timedOut_of_step (Client.moves_of_step taken) main with old | ⟨-, other⟩
      · exact Or.inl old
      · cases other

theorem running_of_moves (h : Moves s a s') (running : s'.server.running = true) :
    s.server.running = true := by
  rcases h.sides.1 with same | ⟨a, move⟩
  · exact same ▸ running
  · exact Server.running_of_step (Server.moves_of_step move) running

end Session

namespace Timed

def start (config : ConfigInfo) (serverBuf clientBuf : Nat) : Timed :=
  { session := .start config serverBuf clientBuf
    now := 0
    serverDeadline := Server.keepaliveTimeout
    clientDeadline := Client.keepaliveTimeout
    nextTick := none
    quiet := 0 }

/-- A timeout needs its deadline to have passed; ticks are the timer's. -/
def ripe (t : Timed) : SessionAct → Bool
  | .server (.exit .keepaliveTimeout) => t.serverDeadline ≤ t.now
  | .client (.exit .keepaliveTimeout) => t.clientDeadline ≤ t.now
  | .client .tick => false
  | _ => true

/-- The server's main loop comes back to its top with this step, where it sets a new deadline. -/
def serverLoops (s : Session) (a : SessionAct) (s' : Session) : Prop :=
  s'.server.waits = true ∧ (a = .toServer ∨ s.server.waits = false)

def clientLoops (s : Session) (a : SessionAct) (s' : Session) : Prop :=
  s'.client.waits = true ∧ (a = .toClient ∨ s.client.waits = false)

instance (s : Session) (a : SessionAct) (s' : Session) : Decidable (serverLoops s a s') :=
  inferInstanceAs (Decidable (_ ∧ _))

instance (s : Session) (a : SessionAct) (s' : Session) : Decidable (clientLoops s a s') :=
  inferInstanceAs (Decidable (_ ∧ _))

/-- No heartbeat is due, under way or unanswered. -/
def Quiet (t : Timed) : Prop :=
  t.session.client.ping = .waiting ∧ t.nextTick.any (fun due => t.now < due) = true ∧
    pongs t.session.client.received = pings t.session.client.endpoint.tunnel.chan.log

instance (t : Timed) : Decidable t.Quiet := inferInstanceAs (Decidable (_ ∧ _ ∧ _))

def step (t : Timed) : TimedAct → Option Timed
  | .session a =>
      if t.ripe a then
        (t.session.step a).map fun session =>
          { t with
            session
            serverDeadline :=
              if serverLoops t.session a session then t.now + Server.keepaliveTimeout
              else t.serverDeadline
            clientDeadline :=
              if clientLoops t.session a session then t.now + Client.keepaliveTimeout
              else t.clientDeadline }
      else none
  | .pass d => some { t with now := t.now + d }
  | .interval =>
      if t.session.client.ping = .waiting ∧ t.nextTick = none then
        some { t with nextTick := some (t.now + Client.pingInterval) }
      else none
  -- `MissedTickBehavior::Delay`: after a missed tick the next is a full interval away
  | .tick missed =>
      t.nextTick.bind fun due =>
        if due ≤ t.now then
          (t.session.step (.client .tick)).map fun session =>
            { t with
              session
              nextTick := some ((if missed then t.now else due) + Client.pingInterval) }
        else none
  | .observe => if t.Quiet then some { t with quiet := t.now } else none

/-! ## The steps, one constructor each -/

variable {t t' : Timed} {a : TimedAct} {config : ConfigInfo}

inductive Moves (t : Timed) : TimedAct → Timed → Prop
  | session {a : SessionAct} {session : Session} (ripe : t.ripe a = true)
      (move : t.session.step a = some session) :
      Moves t (.session a)
        { t with
          session
          serverDeadline :=
            if serverLoops t.session a session then t.now + Server.keepaliveTimeout
            else t.serverDeadline
          clientDeadline :=
            if clientLoops t.session a session then t.now + Client.keepaliveTimeout
            else t.clientDeadline }
  | pass (d : Nat) : Moves t (.pass d) { t with now := t.now + d }
  | interval (ping : t.session.client.ping = .waiting) (fresh : t.nextTick = none) :
      Moves t .interval { t with nextTick := some (t.now + Client.pingInterval) }
  | tick {missed : Bool} {due : Nat} {session : Session} (timer : t.nextTick = some due)
      (ripe : due ≤ t.now) (move : t.session.step (.client .tick) = some session) :
      Moves t (.tick missed)
        { t with
          session
          nextTick := some ((if missed then t.now else due) + Client.pingInterval) }
  | observe (quiet : t.Quiet) : Moves t .observe { t with quiet := t.now }

theorem moves_of_step (h : t.step a = some t') : Moves t a t' := by
  cases a <;> simp only [step] at h
  case session a =>
    obtain ⟨ripe, h⟩ := Option.ite_none_right_eq_some.mp h
    obtain ⟨session, move, rfl⟩ := Option.map_eq_some_iff.mp h
    exact .session ripe move
  case pass d =>
    cases h
    exact .pass d
  case interval =>
    obtain ⟨⟨ping, fresh⟩, h⟩ := Option.ite_none_right_eq_some.mp h
    cases h
    exact .interval ping fresh
  case tick missed =>
    obtain ⟨due, timer, h⟩ := Option.bind_eq_some_iff.mp h
    obtain ⟨ripe, h⟩ := Option.ite_none_right_eq_some.mp h
    obtain ⟨session, move, rfl⟩ := Option.map_eq_some_iff.mp h
    exact .tick timer ripe move
  case observe =>
    obtain ⟨quiet, h⟩ := Option.ite_none_right_eq_some.mp h
    cases h
    exact .observe quiet

/-! ## The clock adds nothing and takes nothing away -/

theorem session_of_step (h : Moves t a t') :
    t'.session = t.session ∨ ∃ b, t.session.step b = some t'.session := by
  cases h with
  | session _ move => exact Or.inr ⟨_, move⟩
  | tick _ _ move => exact Or.inr ⟨_, move⟩
  | _ => exact Or.inl rfl

/-- Once enough time has passed, any step of the session can be taken. -/
theorem session_step (t : Timed) {b : SessionAct} {s' : Session}
    (move : t.session.step b = some s') : ∃ t', Reach step t t' ∧ t'.session = s' := by
  by_cases tick : b = .client .tick
  · subst tick
    have armed : ∃ u due, Reach step t u ∧ u.session = t.session ∧ u.nextTick = some due := by
      cases timer : t.nextTick with
      | some due => exact ⟨t, due, Run.refl t, rfl, timer⟩
      | none =>
          have ping : t.session.client.ping = .waiting := by
            simp only [Session.step, ClientAct.isLocal, true_or, if_true, Client.step,
              Option.map_eq_some_iff, Option.ite_none_right_eq_some] at move
            obtain ⟨client, ⟨ping, -⟩, -⟩ := move
            exact ping
          have set : t.step .interval =
              some { t with nextTick := some (t.now + Client.pingInterval) } := by
            simp [step, ping, timer]
          exact ⟨_, _, (Run.refl t).tail trivial set, rfl, rfl⟩
    obtain ⟨u, due, run, same, timer⟩ := armed
    have wait : u.step (.pass due) = some { u with now := u.now + due } := rfl
    have late : due ≤ u.now + due := Nat.le_add_left _ _
    rw [← same] at move
    have taken : ({ u with now := u.now + due } : Timed).step (.tick false) =
        some { u with
          now := u.now + due
          session := s'
          nextTick := some (due + Client.pingInterval) } := by
      simp [step, timer, late, move]
    exact ⟨_, (run.tail trivial wait).tail trivial taken, rfl⟩
  · let u : Timed := { t with now := t.now + (t.serverDeadline + t.clientDeadline) }
    have wait : t.step (.pass (t.serverDeadline + t.clientDeadline)) = some u := rfl
    have ripe : u.ripe b = true := by
      unfold Timed.ripe
      split
      · exact decide_eq_true (by show t.serverDeadline ≤ t.now + _; omega)
      · exact decide_eq_true (by show t.clientDeadline ≤ t.now + _; omega)
      · exact absurd rfl tick
      · rfl
    obtain ⟨v, taken, same⟩ : ∃ v, u.step (.session b) = some v ∧ v.session = s' := by
      have here : u.session.step b = some s' := move
      simp [step, ripe, here]
    exact ⟨v, ((Run.refl t).tail trivial wait).tail trivial taken, same⟩

/-- What the sessions do is what the timed sessions do, with the clock left out. -/
theorem erased (config : ConfigInfo) (serverBuf clientBuf : Nat) (s : Session) :
    Reach Session.step (Session.start config serverBuf clientBuf) s ↔
      ∃ t, Reach step (start config serverBuf clientBuf) t ∧ t.session = s := by
  constructor
  · intro run
    refine run.induct
      (P := fun s => ∃ t, Reach step (start config serverBuf clientBuf) t ∧ t.session = s)
      ⟨_, Run.refl _, rfl⟩ ?_
    rintro _ a s' - ⟨t, reach, rfl⟩ - move
    obtain ⟨t', more, same⟩ := session_step t move
    exact ⟨t', reach.trans more, same⟩
  · rintro ⟨t, run, rfl⟩
    refine run.simulate Timed.session fun t a t' _ move => ?_
    rcases session_of_step (moves_of_step move) with same | ⟨b, taken⟩
    · rw [same]
      exact Run.refl _
    · exact (Run.refl _).tail trivial taken

/-! ## Every heartbeat in time -/

/-- Time passes only while the heartbeat has been at rest within the last interval. -/
def Timely (t : Timed) : TimedAct → Prop
  | .pass d => t.now + d ≤ t.quiet + Client.pingInterval
  | _ => True

instance : ∀ (t : Timed) (a : TimedAct), Decidable (t.Timely a)
  | t, .pass d => inferInstanceAs (Decidable (t.now + d ≤ t.quiet + Client.pingInterval))
  | _, .session _ | _, .interval | _, .tick _ | _, .observe => inferInstanceAs (Decidable True)

/-- Where all pings sent have been received and answered, the last frame of the server's loop is no
older than the last tick, and so is that of the client's loop once the pongs have arrived. -/
structure Kept (config : ConfigInfo) (t : Timed) : Prop where
  reach : t.session.Reachable config
  soon : t.now ≤ t.quiet + Client.pingInterval
  past : t.quiet ≤ t.now
  serverDeadline : Server.keepaliveTimeout ≤ t.serverDeadline
  clientDeadline : Client.keepaliveTimeout ≤ t.clientDeadline
  serverAlive : t.session.server.running = true →
    t.quiet + Client.pingInterval < t.serverDeadline
  clientAlive : t.quiet + Client.pingInterval < t.clientDeadline
  unticked : t.nextTick = none → t.quiet = 0 ∧ t.session.client.ping ≠ .sending ∧
    pings t.session.client.endpoint.tunnel.chan.log = 0
  ticked : ∀ due, t.nextTick = some due →
    t.session.client.ping ≠ .unspawned ∧ due ≤ t.now + Client.pingInterval
  first : ∀ due, t.nextTick = some due → t.session.client.ping = .waiting →
    pings t.session.client.endpoint.tunnel.chan.log = 0 → due ≤ 2 * Client.pingInterval
  heard : ∀ due, t.nextTick = some due → t.session.client.ping = .waiting →
    t.session.server.running = true → t.session.server.main ≠ .ponging →
    pings t.session.server.received = pings t.session.client.endpoint.tunnel.chan.log →
    0 < pings t.session.client.endpoint.tunnel.chan.log →
    due + 2 * Client.pingInterval ≤ t.serverDeadline
  answered : ∀ due, t.nextTick = some due → t.session.client.ping = .waiting →
    pongs t.session.client.received = pings t.session.client.endpoint.tunnel.chan.log →
    0 < pings t.session.client.endpoint.tunnel.chan.log →
    due + 2 * Client.pingInterval ≤ t.clientDeadline

section step
variable {s' : Session} {b : SessionAct} (kept : t.Kept config) (h : Session.Moves t.session b s')
include kept h

/-- Once the interval is set, the heartbeat task waits again only after it has sent its ping. -/
theorem Kept.waiting (other : b ≠ .client .tick) {due : Nat} (timer : t.nextTick = some due)
    (waiting : s'.client.ping = .waiting) :
    (t.session.client.ping = .waiting ∧ pings s'.client.endpoint.tunnel.chan.log =
      pings t.session.client.endpoint.tunnel.chan.log) ∨
    (t.session.client.registering = false ∧ pings s'.client.endpoint.tunnel.chan.log =
      pings t.session.client.endpoint.tunnel.chan.log + 1) := by
  obtain ⟨spawned, -⟩ := kept.ticked due timer
  obtain ⟨k, beats, sent⟩ := Session.beats_of_step h other
  rcases beats.waiting waiting with ⟨same, rfl⟩ | ⟨⟨i, main⟩, rfl⟩ | ⟨sending, rfl⟩
  · exact Or.inl ⟨same, sent⟩
  · have fresh := (kept.reach.client.unpinged (by simp [Client.registering, main])).ping
    exact absurd fresh spawned
  · refine Or.inr ⟨?_, sent⟩
    cases phase : t.session.client.registering with
    | false => rfl
    | true =>
        have fresh := (kept.reach.client.unpinged phase).ping
        rw [sending] at fresh
        cases fresh

omit kept in
/-- What the server has heard while its main loop has not come back to its top. -/
theorem heard_of_step (stays : ¬ serverLoops t.session b s') (running : s'.server.running = true)
    (silent : s'.server.main ≠ .ponging) : t.session.server.main ≠ .ponging ∧
      pings s'.server.received = pings t.session.server.received := by
  constructor
  · intro ponging
    rcases h.sides.1 with same | ⟨a, move⟩
    · exact silent (same ▸ ponging)
    · rcases Server.main_of_ponging (Server.moves_of_step move) ponging with main | main | ended
      · exact silent main
      · exact stays ⟨by simp [Server.waits, main], Or.inr (by simp [Server.waits, ponging])⟩
      · rw [running] at ended
        cases ended
  · rcases Session.heard_of_step h with same | ⟨rfl, f, recv⟩
    · rw [same]
    · have move := Server.moves_of_step recv
      have quiet : f.isPing = false := by
        by_contra ping
        exact silent (Server.ponging_of_ping move (by simpa using ping))
      rw [(Server.step_recv move).1, pings_append]
      simp [pings, quiet]

omit kept in
theorem answered_of_step (stays : ¬ clientLoops t.session b s')
    (phase : t.session.client.registering = false) :
    pongs s'.client.received = pongs t.session.client.received := by
  rcases Session.answered_of_step h with same | ⟨rfl, f, recv⟩
  · rw [same]
  · have move := Client.moves_of_step recv
    have other : f.isPong = false := by
      by_contra pong
      rcases Client.main_of_pong move (by simpa using pong) with early | ⟨-, main⟩
      · rw [phase] at early
        cases early
      · exact stays ⟨by simp [Client.waits, main], Or.inl rfl⟩
    rw [(Client.step_recv move).1, pongs_append]
    simp [pongs, other]

theorem Kept.unticked_next (other : b ≠ .client .tick) (timer : t.nextTick = none) :
    s'.client.ping ≠ .sending ∧ pings s'.client.endpoint.tunnel.chan.log = 0 := by
  obtain ⟨-, idle, none⟩ := kept.unticked timer
  obtain ⟨k, beats, sent⟩ := Session.beats_of_step h other
  rw [none] at sent
  generalize s'.client.ping = ping at beats ⊢
  cases beats with
  | idle => exact ⟨idle, sent⟩
  | spawned | stopped => exact ⟨by simp, sent⟩
  | sent sending => exact absurd sending idle

theorem Kept.spawned (other : b ≠ .client .tick) {due : Nat} (timer : t.nextTick = some due) :
    s'.client.ping ≠ .unspawned := by
  obtain ⟨spawned, -⟩ := kept.ticked due timer
  obtain ⟨k, beats, -⟩ := Session.beats_of_step h other
  generalize s'.client.ping = ping at beats ⊢
  cases beats with
  | idle => exact spawned
  | _ => simp

end step

theorem Kept.session {b : SessionAct} {s' : Session} (kept : t.Kept config)
    (ripe : t.ripe b = true) (move : t.session.step b = some s') :
    Kept config { t with
      session := s'
      serverDeadline :=
        if serverLoops t.session b s' then t.now + Server.keepaliveTimeout else t.serverDeadline
      clientDeadline :=
        if clientLoops t.session b s' then t.now + Client.keepaliveTimeout
        else t.clientDeadline } := by
  have h := Session.moves_of_step move
  have other : b ≠ .client .tick := by
    rintro rfl
    cases ripe
  have server : Server.keepaliveTimeout = 3 * Client.pingInterval := rfl
  have client : Client.keepaliveTimeout = 3 * Client.pingInterval := rfl
  have positive : 0 < Client.pingInterval := by decide
  obtain ⟨reach, soon, past, serverDeadline, clientDeadline, serverAlive, clientAlive, unticked,
    ticked, first, heard, answered⟩ := id kept
  have fewer := reach.pings_toServer
  refine ⟨reach.next move, soon, past, ?_, ?_, ?_, ?_, ?_, ?_, ?_, ?_, ?_⟩
  · dsimp only
    split <;> omega
  · dsimp only
    split <;> omega
  · intro running
    have alive := serverAlive (Session.running_of_moves h running)
    dsimp only
    split <;> omega
  · dsimp only
    split <;> omega
  · intro timer
    exact ⟨(unticked timer).1, kept.unticked_next h other timer⟩
  · intro due timer
    exact ⟨kept.spawned h other timer, (ticked due timer).2⟩
  · intro due timer waiting none
    rcases kept.waiting h other timer waiting with ⟨before, same⟩ | ⟨-, more⟩
    · exact first due timer before (same ▸ none)
    · dsimp only at none
      omega
  · intro due timer waiting running silent all positive
    have soonest := (ticked due timer).2
    dsimp only at all positive ⊢
    by_cases loops : serverLoops t.session b s'
    · rw [if_pos loops]
      omega
    · rw [if_neg loops]
      obtain ⟨silent', same⟩ := heard_of_step h loops running silent
      have before := Session.running_of_moves h running
      rcases kept.waiting h other timer waiting with ⟨ping, sent⟩ | ⟨-, sent⟩
      · exact heard due timer ping before silent' (by omega) (by omega)
      · omega
  · intro due timer waiting all positive
    have soonest := (ticked due timer).2
    dsimp only at all positive ⊢
    by_cases loops : clientLoops t.session b s'
    · rw [if_pos loops]
      omega
    · rw [if_neg loops]
      have heard := reach.answered
      rcases kept.waiting h other timer waiting with ⟨ping, sent⟩ | ⟨phase, sent⟩
      · have phase : t.session.client.registering = false := by
          by_contra early
          have none := reach.client.pings_eq_zero (by simpa using early)
          omega
        have same := answered_of_step h loops phase
        exact answered due timer ping (by omega) (by omega)
      · have same := answered_of_step h loops phase
        omega

theorem Kept.step (kept : t.Kept config) (h : Moves t a t') (timely : t.Timely a) :
    t'.Kept config := by
  have server : Server.keepaliveTimeout = 3 * Client.pingInterval := rfl
  have client : Client.keepaliveTimeout = 3 * Client.pingInterval := rfl
  cases h with
  | session ripe move => exact kept.session ripe move
  | pass d =>
      obtain ⟨reach, soon, past, serverDeadline, clientDeadline, serverAlive, clientAlive, unticked,
        ticked, first, heard, answered⟩ := kept
      refine ⟨reach, timely, Nat.le_trans past (Nat.le_add_right _ _), serverDeadline,
        clientDeadline, serverAlive, clientAlive, unticked, ?_, first, heard, answered⟩
      intro due timer
      obtain ⟨spawned, soonest⟩ := ticked due timer
      exact ⟨spawned, by dsimp only; omega⟩
  | interval ping fresh =>
      obtain ⟨early, -, none⟩ := kept.unticked fresh
      have soon := kept.soon
      refine { kept with
        unticked := by simp
        ticked := ?_
        first := ?_
        heard := ?_
        answered := ?_ }
      · intro due timer
        cases timer
        exact ⟨by simp [ping], Nat.le_refl _⟩
      · intro due timer _ _
        cases timer
        omega
      · intro due _ _ _ _ _ positive
        exact absurd none (by dsimp only at positive; omega)
      · intro due _ _ _ positive
        exact absurd none (by dsimp only at positive; omega)
  | @tick missed due session timer ripe move =>
      have sending : session.client.ping = .sending ∧
          session.server = t.session.server := by
        cases Session.moves_of_step move with
        | client _ taken =>
            cases Client.moves_of_step taken with
            | tick => exact ⟨rfl, rfl⟩
      refine { kept with
        reach := kept.reach.next move
        serverAlive := sending.2 ▸ kept.serverAlive
        unticked := by simp
        ticked := ?_
        first := ?_
        heard := ?_
        answered := ?_ }
      · intro next timer
        cases timer
        refine ⟨by simp [sending.1], ?_⟩
        dsimp only
        split <;> omega
      · intro next _ waiting
        rw [sending.1] at waiting
        cases waiting
      · intro next _ waiting
        rw [sending.1] at waiting
        cases waiting
      · intro next _ waiting
        rw [sending.1] at waiting
        cases waiting
  | observe quiet =>
      obtain ⟨ping, ahead, all⟩ := quiet
      have sent := kept.reach.pings_toServer
      have echoed := kept.reach.answered
      have positive : 0 < Client.pingInterval := by decide
      have serverDeadline := kept.serverDeadline
      have clientDeadline := kept.clientDeadline
      obtain ⟨due, timer, ahead⟩ : ∃ due, t.nextTick = some due ∧ t.now < due := by
        cases timer : t.nextTick with
        | none => simp [timer] at ahead
        | some due => exact ⟨due, rfl, by simpa [timer] using ahead⟩
      have unsent := Nat.eq_zero_or_pos (pings t.session.client.endpoint.tunnel.chan.log)
      refine { kept with
        soon := Nat.le_add_right _ _
        past := Nat.le_refl _
        serverAlive := ?_
        clientAlive := ?_
        unticked := fun fresh => absurd (timer.symm.trans fresh) (by simp) }
      · intro running
        dsimp only
        rcases unsent with none | some
        · have first := kept.first due timer ping none
          omega
        · have silent : t.session.server.main ≠ .ponging := by
            intro main
            rw [if_pos main] at echoed
            omega
          have heard := kept.heard due timer ping running silent (by omega) some
          omega
      · dsimp only
        rcases unsent with none | some
        · have first := kept.first due timer ping none
          omega
        · have answered := kept.answered due timer ping all some
          omega

theorem kept_start (config : ConfigInfo) (serverBuf clientBuf : Nat) :
    (start config serverBuf clientBuf).Kept config where
  reach := ⟨serverBuf, clientBuf, Run.refl _⟩
  soon := Nat.zero_le _
  past := Nat.le_refl _
  serverDeadline := Nat.le_refl _
  clientDeadline := Nat.le_refl _
  serverAlive := fun _ => by
    show 0 + Client.pingInterval < Server.keepaliveTimeout
    decide
  clientAlive := by
    show 0 + Client.pingInterval < Client.keepaliveTimeout
    decide
  unticked := fun _ => by
    refine ⟨rfl, ?_, ?_⟩
    · simp only [start, Session.start, Client.start, Client.registerFrom]
      split <;> simp
    · simp [start, Session.start, Client.endpoint_start, Endpoint.spawn, FrameWriter.spawn, pings]
  ticked := fun _ timer => by cases timer
  first := fun _ timer => by cases timer
  heard := fun _ timer => by cases timer
  answered := fun _ timer => by cases timer

theorem kept_of_run {serverBuf clientBuf : Nat}
    (run : Run step Timely (start config serverBuf clientBuf) t) : t.Kept config :=
  run.induct (kept_start config serverBuf clientBuf) fun _ _ _ _ kept timely move =>
    kept.step (moves_of_step move) timely

/-- As long as the heartbeat comes to rest in every interval, neither side takes the other for
dead: no session of such a run has ended by its keepalive timeout. -/
theorem kept_alive (config : ConfigInfo) (serverBuf clientBuf : Nat) (t : Timed)
    (run : Run step Timely (start config serverBuf clientBuf) t) :
    t.session.server.main ≠ .ended .keepaliveTimeout ∧
      t.session.client.main ≠ .ended .keepaliveTimeout := by
  refine run.induct (P := fun t => t.session.server.main ≠ .ended .keepaliveTimeout ∧
    t.session.client.main ≠ .ended .keepaliveTimeout) ?_ ?_
  · refine ⟨by simp [start, Session.start, Server.start], ?_⟩
    simp only [start, Session.start, Client.start, Client.registerFrom]
    split <;> simp
  · rintro t a t' before ⟨server, client⟩ - move
    have kept := kept_of_run before
    have soon := kept.soon
    cases moves_of_step move with
    | session ripe moved =>
        have h := Session.moves_of_step moved
        constructor
        · intro main
          rcases Session.server_timedOut h main with old | ⟨reads, rfl⟩
          · exact server old
          · have late : t.serverDeadline ≤ t.now := of_decide_eq_true ripe
            have alive := kept.serverAlive (by simp [Server.running, reads])
            omega
        · intro main
          rcases Session.client_timedOut h main with old | ⟨-, rfl⟩
          · exact client old
          · have late : t.clientDeadline ≤ t.now := of_decide_eq_true ripe
            have alive := kept.clientAlive
            omega
    | tick _ _ moved =>
        have h := Session.moves_of_step moved
        constructor
        · intro main
          rcases Session.server_timedOut h main with old | ⟨-, other⟩
          · exact server old
          · cases other
        · intro main
          rcases Session.client_timedOut h main with old | ⟨-, other⟩
          · exact client old
          · cases other
    | _ => exact ⟨server, client⟩

/-- A ping and its pong. -/
def roundTrip : List SessionAct :=
  .client .ping :: Session.clientSends ++ .server .reply :: Session.serverSends

def beat : List TimedAct :=
  [.pass 30000, .tick false] ++ roundTrip.map .session ++ [.observe]

/-- Two idle minutes. -/
def idles : List TimedAct :=
  (Session.registers 0).map .session ++ [.interval, .observe] ++ beat ++ beat ++ beat ++ beat

theorem kept_alive_idles : ∃ t, Run step Timely (start Session.sshConfig 8 8) t ∧
    t.now = 120000 ∧ t.session.server.main ≠ .ended .keepaliveTimeout ∧
      t.session.client.main ≠ .ended .keepaliveTimeout := by
  have view : (exec (guarded step Timely) (start Session.sshConfig 8 8) idles).map Timed.now =
      some 120000 := by decide +kernel
  obtain ⟨t, run, now⟩ := Option.map_eq_some_iff.mp view
  have run := run_of_exec idles run
  obtain ⟨server, client⟩ := kept_alive Session.sshConfig 8 8 t run
  exact ⟨t, run, now, server, client⟩

end Timed

end Rfrp
