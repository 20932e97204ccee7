import Rfrp.Proto.FramedRead
import Rfrp.Proto.Nonces
import Rfrp.Server.Registration

/-!
# The server on the bytes it reads

The loop of `run_proxy` from the socket on: `FramedRead` cuts the byte stream into frames, each is
decrypted, inflated and decoded, and the first that is not ends the session. The codec is a
parameter; nothing is assumed of it. `examined`, `inflated` and `unpacked` remember the frames,
what was inflated and what was handed to the MessagePack decoder; nothing reads them back.
-/

namespace Rfrp

open Transition

structure ServerIo (S Z : Type) where
  server : Server
  reader : FramedRead S
  receiver : Receiver Z
  examined : List Bytes
  inflated : List Bytes
  unpacked : List Bytes

inductive IoAct
  | read (bytes : Bytes)
  | readErr
  -- `reader.next()` asks the codec
  | next
  | deadline
  -- a step of anything but the main loop's reading
  | other (a : ServerAct)
deriving DecidableEq, Repr

namespace ServerIo

variable {S Z : Type}

def start (sndBuf : Nat) (codec : S) (receiver : Receiver Z) : ServerIo S Z :=
  ⟨.start sndBuf, .new codec, receiver, [], [], []⟩

def waits (s : ServerIo S Z) : Bool :=
  s.server.main = .reading ∧ s.reader.readable = false

def exit (r : ExitReason) (s : ServerIo S Z) : Option (ServerIo S Z) :=
  (s.server.step (.exit r)).map fun server => { s with server }

section
variable (aesGcm : Block 32 → Aead 12 16) (messagePack : MessagePack) (inflate : Coder Z)
  (fuel : Nat) (codec : Codec S)

/-- What `decode_encrypted_bytes_mut` hands to the DEFLATE loop. -/
def toInflate (buf : Bytes) (r : Receiver Z) : List Bytes :=
  match (Cipher.decryptInPlaceBytesMut aesGcm r.cipher buf).2 with
  | .ok plaintext => [plaintext]
  | .error _ => []

def toUnpack (buf : Bytes) (r : Receiver Z) : List Bytes :=
  (toInflate aesGcm buf r).flatMap fun plaintext =>
    match decompressIntoVec inflate fuel plaintext r.decompBuf r.decompress with
    | (_, decompBuf, some (.ok _)) => [decompBuf]
    | _ => []

def examine (buf : Bytes) (s : ServerIo S Z) : Option (ServerIo S Z) :=
  let examined := s.examined ++ [buf]
  let inflated := s.inflated ++ toInflate aesGcm buf s.receiver
  let unpacked := s.unpacked ++ toUnpack aesGcm inflate fuel buf s.receiver
  match RfrpFrame.decodeEncryptedBytesMut aesGcm messagePack inflate fuel buf s.receiver with
  | (some (.ok f), receiver) =>
      (s.server.step (.recv f)).map fun server =>
        { s with server, receiver, examined, inflated, unpacked }
  | (some (.error _), receiver) =>
      { s with receiver, examined, inflated, unpacked }.exit .undecodable
  | (none, _) => none

def step (s : ServerIo S Z) : IoAct → Option (ServerIo S Z)
  | .read bytes =>
      if s.waits && !s.reader.eof then some { s with reader := s.reader.read bytes } else none
  | .readErr => if s.waits && !s.reader.eof then s.exit .readError else none
  | .next =>
      if s.server.main = .reading ∧ s.reader.readable then
        match s.reader.next codec with
        | (reader, .ok (some buf)) => examine aesGcm messagePack inflate fuel buf { s with reader }
        | (reader, .ok none) =>
            if reader.eof then { s with reader }.exit .eof
            else some { s with reader := { reader with readable := false } }
        | (reader, .error _) => { s with reader }.exit .readError
      else none
  | .deadline => s.exit .keepaliveTimeout
  | .other (.recv _) | .other (.exit _) => none
  | .other a => (s.server.step a).map fun server => { s with server }

/-- The peer has no key: a frame authenticates only if the server itself has encrypted something
under the session key before. -/
def keyless (s : ServerIo S Z) : IoAct → Bool
  | .next =>
      match s.reader.next codec with
      | (_, .ok (some buf)) =>
          match (Cipher.decryptInPlaceBytesMut aesGcm s.receiver.cipher buf).2 with
          | .ok _ => s.server.endpoint.tunnel.chan.log ≠ []
          | .error _ => true
      | _ => true
  | _ => true

end

/-! ## What one step does -/

section
variable {aesGcm : Block 32 → Aead 12 16} {messagePack : MessagePack} {inflate : Coder Z}
  {fuel : Nat} {codec : Codec S} {s s' : ServerIo S Z} {buf : Bytes} {r : ExitReason}

/-- A server nothing has happened to: it reads, or it has stopped reading. -/
structure Untouched (s : Server) : Prop where
  main : s.main = .reading ∨ ∃ r, s.main = .ended r
  nextProxyId : s.nextProxyId = 0
  proxyRouting : s.proxyRouting = .empty
  cachedRouting : s.cachedRouting = none
  tasks : s.tasks = []
  maps : s.endpoint.maps = []
  links : s.endpoint.links = []
  queued : s.endpoint.tunnel.chan.log = []

theorem untouched_start (sndBuf : Nat) : Untouched (.start sndBuf) :=
  ⟨Or.inl rfl, rfl, rfl, rfl, rfl, rfl, rfl, rfl⟩

theorem Untouched.teardown {s : Server} (h : Untouched s) (r : ExitReason) :
    Untouched (s.teardown r) where
  main := Or.inr ⟨r, rfl⟩
  nextProxyId := h.nextProxyId
  proxyRouting := rfl
  cachedRouting := rfl
  tasks := by rw [Server.teardown, h.tasks, List.map_nil]
  maps := h.maps
  links := h.links
  queued := h.queued

theorem Untouched.no_task {s : Server} (h : Untouched s) {i : Nat} {t : RegTask}
    (here : s.tasks[i]? = some t) : False := by
  rw [h.tasks] at here
  cases here

theorem Untouched.no_link {s : Server} (h : Untouched s) {i : Nat} {l : Link UInt16}
    (here : s.endpoint.links[i]? = some l) : False := by
  rw [h.links] at here
  cases here

theorem Untouched.endpoint {s : Server} (h : Untouched s) {o : Owners} {a : EndpointAct}
    {e : Endpoint UInt16} (move : s.endpoint.step o a = some e) : Untouched { s with endpoint := e } := by
  cases a with
  | writer a =>
      obtain ⟨tunnel, moved, rfl⟩ := Option.map_eq_some_iff.mp move
      have same := FrameWriter.step_log moved
      exact { h with queued := same.trans h.queued }
  | conn n a =>
      obtain ⟨l, here, -⟩ := Option.bind_eq_some_iff.mp move
      exact (h.no_link here).elim
  | sendData n =>
      obtain ⟨l, here, -⟩ := Option.bind_eq_some_iff.mp move
      exact (h.no_link here).elim
  | sendDataErr n =>
      obtain ⟨l, here, -⟩ := Option.bind_eq_some_iff.mp move
      exact (h.no_link here).elim
  | remove n =>
      obtain ⟨l, here, -⟩ := Option.bind_eq_some_iff.mp move
      exact (h.no_link here).elim
  | finish n =>
      obtain ⟨l, here, -⟩ := Option.bind_eq_some_iff.mp move
      exact (h.no_link here).elim

theorem Untouched.step {s s' : Server} {a : ServerAct} (h : Untouched s)
    (other : ∀ f, a ≠ .recv f) (move : s.step a = some s') :
    Untouched s' ∧ (s.running = false → s'.main = s.main) := by
  cases Server.moves_of_step move with
  | recvLimit | recvRegister | recvPing | recvOther | recvRouted | recvUnrouted =>
      exact absurd rfl (other _)
  | exit main =>
      exact ⟨h.teardown _, fun stopped => by simp [Server.running, main] at stopped⟩
  | reply frame =>
      rcases Server.replyFrame_eq_some frame with ⟨client, main, -⟩ | ⟨main, -⟩
      · exact absurd h.main (by simp [main])
      · exact absurd h.main (by simp [main])
  | replyErr main => exact absurd h.main (by simp [main])
  | pongErr main => exact absurd h.main (by simp [main])
  | route main => exact absurd h.main (by simp [main])
  | routeErr main => exact absurd h.main (by simp [main])
  | endpoint moved => exact ⟨h.endpoint moved, fun _ => rfl⟩
  | _ => exact (h.no_task (by assumption)).elim

/-! ## What holds in every run -/

structure Unmoved (s : ServerIo S Z) : Prop where
  server : Untouched s.server
  inflated : s.inflated = []
  unpacked : s.unpacked = []
  examined : s.examined = [] ∨
    s.examined.length = 1 ∧ s.server.main = .ended .undecodable

theorem Unmoved.running (unmoved : Unmoved s) (main : s.server.main = .reading) :
    s.examined = [] := by
  rcases unmoved.examined with none | ⟨-, stopped⟩
  · exact none
  · rw [main] at stopped
    cases stopped

theorem exit_eq (main : s.server.main = .reading) (other : r ≠ .pongFailed) :
    s.exit r = some { s with server := s.server.teardown r } := by
  simp [exit, Server.step, main, other]

theorem exit_eq_some (h : s.exit r = some s') :
    s.server.main = .reading ∧ s' = { s with server := s.server.teardown r } := by
  obtain ⟨server, moved, rfl⟩ := Option.map_eq_some_iff.mp h
  cases Server.moves_of_step moved with
  | exit main => exact ⟨main, rfl⟩

theorem Unmoved.exit (unmoved : Unmoved s) (h : s.exit r = some s') : Unmoved s' := by
  obtain ⟨main, rfl⟩ := exit_eq_some h
  exact ⟨unmoved.server.teardown r, unmoved.inflated, unmoved.unpacked,
    Or.inl (unmoved.running main)⟩

variable (messagePack inflate fuel) in
theorem examine_eq (main : s.server.main = .reading) {e : String}
    (rejected : (Cipher.decryptInPlaceBytesMut aesGcm s.receiver.cipher buf).2 = .error e) :
    examine aesGcm messagePack inflate fuel buf s =
      some { s with
        server := s.server.teardown .undecodable, examined := s.examined ++ [buf] } := by
  have decoded : RfrpFrame.decodeEncryptedBytesMut aesGcm messagePack inflate fuel buf s.receiver =
      (some (.error e), s.receiver) := by
    unfold RfrpFrame.decodeEncryptedBytesMut
    rw [rejected]
  unfold examine
  simp only [decoded, toInflate, toUnpack, rejected, List.flatMap_nil, List.append_nil]
  exact exit_eq main nofun

theorem Unmoved.rejects (unmoved : Unmoved s) (keyless : s.keyless aesGcm codec .next = true)
    {reader : FramedRead S} (answer : s.reader.next codec = (reader, .ok (some buf))) :
    ∃ e, (Cipher.decryptInPlaceBytesMut aesGcm s.receiver.cipher buf).2 = .error e := by
  cases decrypted : (Cipher.decryptInPlaceBytesMut aesGcm s.receiver.cipher buf).2 with
  | error e => exact ⟨e, rfl⟩
  | ok plaintext => simp [ServerIo.keyless, answer, decrypted, unmoved.server.queued] at keyless

theorem Unmoved.step (unmoved : Unmoved s) {a : IoAct}
    (keyless : s.keyless aesGcm codec a = true)
    (move : s.step aesGcm messagePack inflate fuel codec a = some s') : Unmoved s' := by
  cases a <;> simp only [ServerIo.step] at move
  case read bytes =>
    split at move
    · cases move
      exact ⟨unmoved.server, unmoved.inflated, unmoved.unpacked, unmoved.examined⟩
    · cases move
  case readErr =>
    split at move
    · exact unmoved.exit move
    · cases move
  case next =>
    by_cases ready : s.server.main = .reading ∧ s.reader.readable = true
    · rw [if_pos ready] at move
      cases answered : s.reader.next codec with
      | mk reader answer =>
      have same : Unmoved { s with reader } :=
        ⟨unmoved.server, unmoved.inflated, unmoved.unpacked, unmoved.examined⟩
      rw [answered] at move
      cases answer with
      | error e => exact same.exit move
      | ok frame =>
        cases frame with
        | none =>
            dsimp only at move
            split at move
            · exact same.exit move
            · cases move
              exact ⟨unmoved.server, unmoved.inflated, unmoved.unpacked, unmoved.examined⟩
        | some buf =>
            obtain ⟨e, rejected⟩ := unmoved.rejects keyless answered
            have ends := examine_eq messagePack inflate fuel (s := { s with reader }) ready.1 rejected
            cases ends.symm.trans move
            refine ⟨unmoved.server.teardown _, unmoved.inflated, unmoved.unpacked, Or.inr ⟨?_, rfl⟩⟩
            show (s.examined ++ [buf]).length = 1
            rw [unmoved.running ready.1]
            rfl
    · rw [if_neg ready] at move
      cases move
  case deadline => exact unmoved.exit move
  case other a =>
    have moved : (∀ f, a ≠ .recv f) ∧ (s.server.step a).map (fun server => { s with server }) =
        some s' := by
      cases a with
      | recv f => cases move
      | exit r => cases move
      | _ => exact ⟨nofun, move⟩
    obtain ⟨other, moved⟩ := moved
    obtain ⟨server, served, rfl⟩ := Option.map_eq_some_iff.mp moved
    obtain ⟨untouched, still⟩ := unmoved.server.step other served
    refine ⟨untouched, unmoved.inflated, unmoved.unpacked, ?_⟩
    apply unmoved.examined.imp_right
    intro ⟨one, main⟩
    refine ⟨one, ?_⟩
    exact (still (by simp [Server.running, main])).trans main

end

/-- A peer without the key changes nothing: the first frame it completes, the end of its stream or
the deadline ends the session, whichever comes first. -/
theorem keyless_harmless {S Z : Type} (aesGcm : Block 32 → Aead 12 16) (messagePack : MessagePack)
    (inflate : Coder Z) (fuel : Nat) (codec : Codec S) (sndBuf : Nat) (fresh : S)
    (receiver : Receiver Z) (s : ServerIo S Z)
    (run : Run (step aesGcm messagePack inflate fuel codec)
      (fun s a => s.keyless aesGcm codec a) (start sndBuf fresh receiver) s) :
    (s.server.tasks = [] ∧ s.server.proxyRouting = .empty ∧ s.server.cachedRouting = none ∧
      s.server.nextProxyId = 0 ∧ s.server.endpoint.maps = [] ∧ s.server.endpoint.links = []) ∧
    s.server.endpoint.tunnel.chan.log = [] ∧
    s.inflated = [] ∧ s.unpacked = [] ∧ s.examined.length ≤ 1 ∧
    (s.examined ≠ [] → s.server.main = .ended .undecodable) ∧
    (s.server.running = true → s.server.main = .reading ∧
      (∃ t, s.step aesGcm messagePack inflate fuel codec .deadline = some t ∧
        t.server.running = false) ∧
      (s.reader.readable = true → s.keyless aesGcm codec .next = true →
        ∃ t, s.step aesGcm messagePack inflate fuel codec .next = some t ∧
          (t.server.running = true → t.reader.readable = false))) := by
  have unmoved : Unmoved s :=
    run.induct ⟨untouched_start sndBuf, rfl, rfl, Or.inl rfl⟩ fun _ _ _ _ ih admitted move =>
      ih.step admitted move
  have server := unmoved.server
  refine ⟨⟨server.tasks, server.proxyRouting, server.cachedRouting, server.nextProxyId, server.maps,
    server.links⟩, server.queued, unmoved.inflated, unmoved.unpacked, ?_, ?_, ?_⟩
  · rcases unmoved.examined with none | ⟨one, -⟩
    · simp [none]
    · exact one.le
  · intro some
    exact (unmoved.examined.resolve_left some).2
  · intro running
    have main : s.server.main = .reading := by
      rcases server.main with main | ⟨r, main⟩
      · exact main
      · simp [Server.running, main] at running
    refine ⟨main, ⟨_, exit_eq main (by simp), rfl⟩, ?_⟩
    intro ready keyless
    simp only [step, if_pos (show s.server.main = .reading ∧ s.reader.readable = true from
      ⟨main, ready⟩)]
    cases answered : s.reader.next codec with
    | mk reader answer =>
    cases answer with
    | error e => exact ⟨_, exit_eq main (by simp), fun alive => by cases alive⟩
    | ok frame =>
      cases frame with
      | none =>
          by_cases eof : reader.eof = true
          · simp only [if_pos eof]
            exact ⟨_, exit_eq main (by simp), fun alive => by cases alive⟩
          · simp only [if_neg eof]
            exact ⟨_, rfl, fun _ => rfl⟩
      | some buf =>
          obtain ⟨e, rejected⟩ := unmoved.rejects keyless answered
          exact ⟨_, examine_eq _ _ _ (s := { s with reader }) main rejected, fun alive => by cases alive⟩

/-! ## A peer that guesses -/

/-- `LengthDelimitedCodec` with a four-byte length and `MAX_FRAME_LEN`. -/
def lengthDelimited : Codec Unit :=
  let decode (buffer : Bytes) : Unit × Bytes × Except String (Option Bytes) :=
    let n := (buffer.take 4).foldl (fun n b => n * 256 + b.toNat) 0
    if buffer.length < 4 then ((), buffer, .ok none)
    else if 1024 * 1024 < n then ((), buffer, .error "frame size too big")
    else if buffer.length < 4 + n then ((), buffer, .ok none)
    else ((), buffer.drop (4 + n), .ok (some ((buffer.drop 4).take n)))
  { decode := fun _ => decode
    decodeEof := fun _ buffer =>
      match decode buffer with
      | (_, rest, .ok none) =>
          if buffer = [] then ((), rest, .ok none)
          else ((), rest, .error "bytes remaining on stream")
      | answer => answer }

def guesses : List IoAct :=
  [.read [0, 0], .next, .read ([0, 29] ++ List.replicate 33 0), .next]

theorem keyless_harmless_guess : ∃ s : ServerIo Unit Coder.OneShot,
    Run (step (fun _ => Ciphers.zeroKeyGcm) pingPack (.oneShot pingInflate) 9 lengthDelimited)
      (fun s a => s.keyless (fun _ => Ciphers.zeroKeyGcm) lengthDelimited a)
      (start 8 () ⟨.new (.zero 32) (.zero 4), [], ⟨none, 0, 0⟩⟩) s ∧
    s.server.main = .ended .undecodable ∧ s.examined.length = 1 ∧ s.inflated = [] := by
  have view : (exec (guarded
      (step (fun _ => Ciphers.zeroKeyGcm) pingPack (.oneShot pingInflate) 9 lengthDelimited)
      (fun s a => s.keyless (fun _ => Ciphers.zeroKeyGcm) lengthDelimited a))
      (start 8 () ⟨.new (.zero 32) (.zero 4), [], ⟨none, 0, 0⟩⟩) guesses).map
        (fun s => (s.server.main, s.examined.length)) = some (.ended .undecodable, 1) := by decide
  obtain ⟨s, run, seen⟩ := Option.map_eq_some_iff.mp view
  obtain ⟨main, one⟩ := Prod.mk.inj seen
  have harmless := keyless_harmless (fun _ => Ciphers.zeroKeyGcm) pingPack (.oneShot pingInflate) 9
    lengthDelimited 8 () _ s (run_of_exec guesses run)
  exact ⟨s, run_of_exec guesses run, main, one, harmless.2.2.1⟩

end ServerIo

end Rfrp
