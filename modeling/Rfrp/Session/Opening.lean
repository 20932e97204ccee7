import Rfrp.Proto.Handshake
import Rfrp.Session.ByteRefinement

/-!
# A connection from its first byte

The two handshakes and the two `run_proxy` on the one TCP connection they share. Nonces and frames
travel in the same two byte streams, cut anywhere, and a side that is through its handshake may send
frames while the other still waits for the nonce. Yet no reader takes a byte that is not its own:
once both sides are through, they stand where a session on bytes stands.
-/

namespace Rfrp

open Transition

/-- What a side brings to the connection, and what it sets up for its `run_proxy`. -/
structure Setup (σ Z Z' : Type) where
  -- the client sends its nonce before it reads, the server after
  speaksFirst : Bool
  nonce : Block 32
  -- the handshake's answer to the nonce it has read
  handshake : Block 32 → Except String Cipher
  proxy : σ
  compress : Z
  decompress : Z'

def serverSetup {Z Z' : Type} (sha256 : Bytes → Block 32) (authToken : String) (nonce : Block 32)
    (randomPrefix : Block 4) (compress : Z) (decompress : Z') : Setup Server Z Z' where
  speaksFirst := false
  nonce
  handshake clientNonce :=
    serverHandshake sha256 authToken nonce randomPrefix (.done clientNonce) (.done ())
  proxy := .start 0
  compress
  decompress

def clientSetup {Z Z' : Type} (sha256 : Bytes → Block 32) (config : ConfigInfo) (nonce : Block 32)
    (randomPrefix : Block 4) (compress : Z) (decompress : Z') : Setup Client Z Z' where
  speaksFirst := true
  nonce
  handshake serverNonce :=
    clientHandshake sha256 config.server.authToken nonce randomPrefix (.done ()) (.done serverNonce)
  proxy := .start config.init.clientProxy 0
  compress
  decompress

/-- Where `run_proxy` goes on after its handshake. -/
def Setup.opens {σ S Z Z' : Type} (A : Setup σ Z Z') (sndBuf : Nat) (fresh : S) (cipher : Cipher) :
    TunnelEnd σ S Z Z' :=
  .start A.proxy sndBuf ⟨cipher, [], A.compress⟩ fresh ⟨cipher, [], A.decompress⟩

inductive Opener (σ S Z Z' : Type)
  -- in the handshake: what is left to write of the own nonce, and what was read of the other
  | shaking (unsent got : Bytes) (outbound : Fifo UInt8)
  | proxying (p : TunnelEnd σ S Z Z')
  -- the handshake has failed; what was written can still be read
  | failed (outbound : Fifo UInt8)

inductive OpenerAct
  -- `write_all` of the nonce gets `k` bytes into the socket
  | write (k : Nat)
  -- the handshake returns, and `run_proxy` goes on
  | finish
  -- an error or the timeout of the handshake
  | fail
  | socket (a : SocketAct)
deriving DecidableEq, Repr

def TunnelEnd.setOutbound {σ S Z Z' : Type} (outbound : Fifo UInt8) (p : TunnelEnd σ S Z Z') :
    TunnelEnd σ S Z Z' := { p with outbound }

namespace Opener

variable {σ σ' S Z Z' : Type}

def start (A : Setup σ Z Z') : Opener σ S Z Z' := .shaking A.nonce.bytes [] .empty

def outbound : Opener σ S Z Z' → Fifo UInt8
  | .shaking _ _ outbound => outbound
  | .proxying p => p.outbound
  | .failed outbound => outbound

def setOutbound (outbound : Fifo UInt8) : Opener σ S Z Z' → Opener σ S Z Z'
  | .shaking unsent got _ => .shaking unsent got outbound
  | .proxying p => .proxying (p.setOutbound outbound)
  | .failed _ => .failed outbound

def end? : Opener σ S Z Z' → Option (TunnelEnd σ S Z Z')
  | .proxying p => some p
  | _ => none

theorem end_eq_some {x : Opener σ S Z Z'} {p : TunnelEnd σ S Z Z'} (h : x.end? = some p) :
    x = .proxying p := by
  cases x <;> cases h
  rfl

def isFailed (x : Opener σ S Z Z') : Bool := x matches .failed _

/-- The socket takes the next `k` bytes of the nonce. -/
def write (sndBuf : Nat) (A : Setup σ Z Z') (k : Nat) : Opener σ S Z Z' → Option (Opener σ S Z Z')
  | .shaking unsent got outbound =>
      if (A.speaksFirst ∨ got.length = 32) ∧ 0 < k ∧ k ≤ unsent.length ∧
          outbound.queue.length + k ≤ sndBuf then
        some (.shaking (unsent.drop k) got (outbound.pushAll (unsent.take k)))
      else none
  | _ => none

/-- The nonce is out and the other one is in. -/
def finish (sndBuf : Nat) (fresh : S) (A : Setup σ Z Z') : Opener σ S Z Z' → Option (Opener σ S Z Z')
  | .shaking [] got outbound =>
      if whole : got.length = 32 then
        match A.handshake ⟨got, whole⟩ with
        | .ok cipher => some (.proxying ((A.opens sndBuf fresh cipher).setOutbound outbound))
        | .error _ => some (.failed outbound)
      else none
  | _ => none

section
variable [RunProxy σ] [RunProxy σ']

/-- The sending half of the socket has been dropped and everything written has been read. -/
def ended : Opener σ S Z Z' → Bool
  | .shaking _ _ _ => false
  | .proxying p => p.ended
  | .failed outbound => outbound.queue = []

variable (aesGcm : Block 32 → Aead 12 16) (messagePack : MessagePack) (deflate : Coder Z)
  (inflate : Coder Z') (codec : Codec S) (frame : Bytes → Bytes) (sndBuf : Nat) (fresh : S)
  (A : Setup σ Z Z')

def step (x : Opener σ S Z Z') : OpenerAct → Option (Opener σ S Z Z')
  | .write k => x.write sndBuf A k
  | .finish => x.finish sndBuf fresh A
  | .fail =>
      match x with
      | .shaking _ _ outbound => some (.failed outbound)
      | _ => none
  | .socket a =>
      match x with
      | .proxying p => (p.step aesGcm messagePack deflate inflate codec frame a).map .proxying
      | _ => none

/-- `x` reads `k` bytes of what `y` has written. `read_exact` asks for no more than is missing. -/
def readFrom (k : Nat) (x : Opener σ S Z Z') (y : Opener σ' S Z Z') :
    Option (Opener σ S Z Z' × Opener σ' S Z Z') :=
  match x with
  | .shaking unsent got outbound =>
      if (!A.speaksFirst ∨ unsent = []) ∧ 0 < k ∧ got.length + k ≤ 32 ∧
          k ≤ y.outbound.queue.length then
        some (.shaking unsent (got ++ y.outbound.queue.take k) outbound,
          y.setOutbound (y.outbound.advance k))
      else none
  | .proxying p =>
      if p.reads ∧ k ≤ y.outbound.queue.length ∧ (k = 0 → y.ended) then
        some (.proxying { p with reader := p.reader.read (y.outbound.queue.take k) },
          y.setOutbound (y.outbound.advance k))
      else none
  | .failed _ => none

end

end Opener

structure Opening (S Z Z' : Type) where
  server : Opener Server S Z Z'
  client : Opener Client S Z Z'

inductive OpeningAct
  | server (a : ServerAct)
  | client (a : ClientAct)
  | serverOpener (a : OpenerAct)
  | clientOpener (a : OpenerAct)
  -- the server reads `k` bytes of what the client has written
  | toServer (k : Nat)
  | toClient (k : Nat)
deriving DecidableEq, Repr

namespace Opening

variable {S Z Z' : Type}

def start (A : Setup Server Z Z') (B : Setup Client Z Z') : Opening S Z Z' := ⟨.start A, .start B⟩

section
variable (aesGcm : Block 32 → Aead 12 16) (messagePack : MessagePack) (deflate : Coder Z)
  (inflate : Coder Z') (codec : Codec S) (frame : Bytes → Bytes) (sndBuf : Nat) (fresh : S)
  (A : Setup Server Z Z') (B : Setup Client Z Z')

def step (o : Opening S Z Z') : OpeningAct → Option (Opening S Z Z')
  | .server a =>
      match o.server with
      | .proxying p =>
          if a.isInner then
            (p.proxy.step a).map fun proxy => { o with server := .proxying { p with proxy } }
          else none
      | _ => none
  | .client a =>
      match o.client with
      | .proxying p =>
          if a.isInner then
            (p.proxy.step a).map fun proxy => { o with client := .proxying { p with proxy } }
          else none
      | _ => none
  | .serverOpener a =>
      (o.server.step aesGcm messagePack deflate inflate codec frame sndBuf fresh A a).map
        fun server => { o with server }
  | .clientOpener a =>
      (o.client.step aesGcm messagePack deflate inflate codec frame sndBuf fresh B a).map
        fun client => { o with client }
  | .toServer k =>
      (o.server.readFrom A k o.client).map fun (server, client) => { server, client }
  | .toClient k =>
      (o.client.readFrom B k o.server).map fun (client, server) => { server, client }

end

end Opening

/-! ## What an end does without its outbound stream -/

namespace TunnelEnd

variable {σ S Z Z' : Type} {p p' : TunnelEnd σ S Z Z'}
  {aesGcm : Block 32 → Aead 12 16} {messagePack : MessagePack} {deflate : Coder Z}
  {inflate : Coder Z'} {codec : Codec S} {frame : Bytes → Bytes} {a : SocketAct}
  {outbound : Fifo UInt8}

@[simp] theorem outbound_setOutbound : (p.setOutbound outbound).outbound = outbound := rfl

section socket
variable [RunProxy σ]

@[simp] theorem tunnel_setOutbound : (p.setOutbound outbound).tunnel = p.tunnel := rfl

theorem arrive_setOutbound {arrival : Arrival}
    (h : (p.setOutbound outbound).arrive arrival = some p') :
    ∃ q, p.arrive arrival = some q ∧ q.outbound = p.outbound ∧ p' = q.setOutbound outbound := by
  obtain ⟨proxy, arrives, rfl⟩ := Option.map_eq_some_iff.mp h
  exact ⟨{ p with proxy }, Option.map_eq_some_iff.mpr ⟨proxy, arrives, rfl⟩, rfl, rfl⟩

/-- Only `write` looks at what is on its way. -/
theorem step_setOutbound (other : ∀ k, a ≠ .write k)
    (h : (p.setOutbound outbound).step aesGcm messagePack deflate inflate codec frame a = some p') :
    ∃ q, p.step aesGcm messagePack deflate inflate codec frame a = some q ∧
      q.outbound = p.outbound ∧ p' = q.setOutbound outbound := by
  cases a with
  | encode fuel =>
      simp only [step, encode, tunnel_setOutbound] at h ⊢
      cases hand : p.tunnel.task with
      | sending f =>
          simp only [hand] at h ⊢
          obtain ⟨idle, h⟩ := Option.ite_none_right_eq_some.mp h
          obtain ⟨⟨bytes, sender⟩, encoded, rfl⟩ := Option.map_eq_some_iff.mp h
          refine ⟨_, Option.ite_none_right_eq_some.mpr ⟨idle,
            Option.map_eq_some_iff.mpr ⟨(bytes, sender), encoded, rfl⟩⟩, ?_, ?_⟩
          · split <;> rfl
          · split <;> rfl
      | _ => simp [hand] at h
  | write k => exact absurd rfl (other k)
  | sendErr =>
      simp only [step, tunnel_setOutbound] at h ⊢
      cases hand : p.tunnel.task with
      | sending f =>
          simp only [hand] at h ⊢
          cases h
          exact ⟨_, rfl, rfl, rfl⟩
      | _ => simp [hand] at h
  | readErr =>
      obtain ⟨reads, h⟩ := Option.ite_none_right_eq_some.mp h
      obtain ⟨q, arrives, same, rfl⟩ := arrive_setOutbound h
      exact ⟨q, Option.ite_none_right_eq_some.mpr ⟨reads, arrives⟩, same, rfl⟩
  | next fuel =>
      obtain ⟨waits, h⟩ := Option.ite_none_right_eq_some.mp h
      obtain ⟨⟨reader, receiver, arrival⟩, taken, h⟩ := Option.bind_eq_some_iff.mp h
      obtain ⟨q, arrives, same, rfl⟩ :=
        arrive_setOutbound (p := { p with reader, receiver }) h
      exact ⟨q, Option.ite_none_right_eq_some.mpr
        ⟨waits, Option.bind_eq_some_iff.mpr ⟨_, taken, arrives⟩⟩, same, rfl⟩
  | deadline => exact arrive_setOutbound h

end socket

/-- `p'` is `p` on a stream that started with the nonce. -/
structure Past (nonce : Block 32) (p' p : TunnelEnd σ S Z Z') : Prop where
  same : p' = p.setOutbound p'.outbound
  log : p'.outbound.log = nonce.bytes ++ p.outbound.log
  taken : p.outbound.taken = p'.outbound.taken - 32

variable {nonce : Block 32}

/-- Once the nonce has been read, what is on its way is the same. -/
theorem Past.queue (past : p'.Past nonce p) (read : 32 ≤ p'.outbound.taken) :
    p'.outbound.queue = p.outbound.queue := by
  have all : p'.outbound.taken = nonce.bytes.length + p.outbound.taken := by
    rw [nonce.length_eq, past.taken]
    omega
  rw [Fifo.queue, Fifo.queue, past.log, all, List.drop_length_add_append]

theorem Past.queue_length (past : p'.Past nonce p) :
    p.outbound.queue.length ≤ p'.outbound.queue.length := by
  have length := congrArg List.length past.log
  have taken := past.taken
  rw [List.length_append, nonce.length_eq] at length
  simp only [Fifo.queue, List.length_drop]
  omega

theorem Past.read (past : p'.Past nonce p) (bytes : Bytes) :
    Past nonce { p' with reader := p'.reader.read bytes }
      { p with reader := p.reader.read bytes } := by
  obtain ⟨same, log, taken⟩ := past
  refine ⟨?_, log, taken⟩
  rw [same]
  rfl

theorem Past.setProxy (past : p'.Past nonce p) (proxy : σ) :
    Past nonce { p' with proxy } { p with proxy } := by
  obtain ⟨same, log, taken⟩ := past
  refine ⟨?_, log, taken⟩
  rw [same]
  rfl

theorem Past.setTask [RunProxy σ] (past : p'.Past nonce p) (task : WriterTask) :
    (p'.setTask task).Past nonce (p.setTask task) := by
  obtain ⟨same, log, taken⟩ := past
  refine ⟨?_, log, taken⟩
  rw [same]
  rfl

theorem Past.pushAll (past : p'.Past nonce p) (bytes writing : Bytes) :
    Past nonce { p' with outbound := p'.outbound.pushAll bytes, writing }
      { p with outbound := p.outbound.pushAll bytes, writing } := by
  obtain ⟨same, log, taken⟩ := past
  refine ⟨?_, ?_, taken⟩
  · rw [same]
    rfl
  · show p'.outbound.log ++ bytes = nonce.bytes ++ (p.outbound.log ++ bytes)
    rw [log, List.append_assoc]

/-- As long as the nonce has not been read, no byte of the session has. -/
theorem Past.early (past : p'.Past nonce p) {k : Nat} (most : k ≤ p'.outbound.queue.length)
    (early : p'.outbound.taken + k ≤ 32) :
    (p'.setOutbound (p'.outbound.advance k)).Past nonce p := by
  obtain ⟨same, log, taken⟩ := past
  refine ⟨?_, log, ?_⟩
  · rw [same]
    rfl
  · rw [outbound_setOutbound, Fifo.taken_advance most]
    omega

theorem Past.advance (past : p'.Past nonce p) {k : Nat} (most : k ≤ p'.outbound.queue.length)
    (read : 32 ≤ p'.outbound.taken) :
    (p'.setOutbound (p'.outbound.advance k)).Past nonce (p.setOutbound (p.outbound.advance k)) := by
  have queue := past.queue read
  obtain ⟨same, log, taken⟩ := past
  refine ⟨?_, log, ?_⟩
  · rw [same]
    rfl
  · rw [outbound_setOutbound, outbound_setOutbound, Fifo.taken_advance most,
      Fifo.taken_advance (queue ▸ most)]
    omega

theorem Past.step [RunProxy σ] (past : p'.Past nonce p) {q' : TunnelEnd σ S Z Z'}
    (h : p'.step aesGcm messagePack deflate inflate codec frame a = some q') :
    ∃ q, p.step aesGcm messagePack deflate inflate codec frame a = some q ∧ q'.Past nonce q ∧
      q'.outbound.received = p'.outbound.received ∧ q'.outbound.taken = p'.outbound.taken := by
  obtain ⟨same, log, taken⟩ := id past
  by_cases writes : ∃ k, a = .write k
  · obtain ⟨k, rfl⟩ := writes
    have fewer := past.queue_length
    have tunnel : p'.tunnel = p.tunnel := by rw [same]; rfl
    have writing : p'.writing = p.writing := by rw [same]; rfl
    have sndBuf : p'.sndBuf = p.sndBuf := by rw [same]; rfl
    simp only [TunnelEnd.step, TunnelEnd.write, tunnel, writing, sndBuf] at h ⊢
    cases hand : p.tunnel.task with
    | sending f =>
        simp only [hand] at h ⊢
        obtain ⟨⟨some, most, room⟩, h⟩ := Option.ite_none_right_eq_some.mp h
        have pushed := past.pushAll (p.writing.take k) (p.writing.drop k)
        rw [sndBuf] at pushed
        rw [if_pos ⟨some, most, by omega⟩]
        by_cases last : p.writing.drop k = []
        · rw [if_pos last] at h ⊢
          cases h
          exact ⟨_, rfl, pushed.setTask _, Fifo.received_pushAll _, rfl⟩
        · rw [if_neg last] at h ⊢
          cases h
          exact ⟨_, rfl, pushed, Fifo.received_pushAll _, rfl⟩
    | _ => simp [hand] at h
  · rw [same] at h
    obtain ⟨q, move, out, rfl⟩ := step_setOutbound (fun k write => writes ⟨k, write⟩) h
    refine ⟨q, move, ⟨rfl, ?_, ?_⟩, rfl, rfl⟩
    · rw [outbound_setOutbound, out, log]
    · rw [outbound_setOutbound, out, taken]

end TunnelEnd

/-! ## Two sides and the session on bytes they stand for -/

namespace Opener

variable {σ σ' S Z Z' : Type}

/-- Where this side of a session on bytes stands: at its start until the handshake is through. -/
def Stands (nonce : Block 32) (first : TunnelEnd σ S Z Z') (x : Opener σ S Z Z')
    (p : TunnelEnd σ S Z Z') : Prop :=
  match x with
  | .shaking unsent _ outbound =>
      outbound.log ++ unsent = nonce.bytes ∧ p = first ∧ first.outbound = .empty
  | .proxying p' => p'.Past nonce p
  | .failed _ => False

/-- What this side has read of the other's nonce. -/
def Heard (x : Opener σ S Z Z') (inbound : Fifo UInt8) : Prop :=
  match x with
  | .shaking _ got _ => got = inbound.received ∧ inbound.taken ≤ 32
  | .proxying _ => 32 ≤ inbound.taken
  | .failed _ => False

variable {nonce : Block 32} {first p : TunnelEnd σ S Z Z'} {x : Opener σ S Z Z'}

/-- The first 32 bytes of a side are its nonce. -/
theorem Stands.front (stands : x.Stands nonce first p) (whole : x.outbound.received.length = 32) :
    x.outbound.received = nonce.bytes := by
  have read : x.outbound.received <+: x.outbound.log := x.outbound.received_isPrefix
  obtain ⟨rest, more, front⟩ : ∃ rest more, x.outbound.log ++ rest = nonce.bytes ++ more := by
    cases x with
    | shaking unsent got outbound => exact ⟨unsent, [], stands.1.trans (List.append_nil _).symm⟩
    | proxying p' => exact ⟨[], _, (List.append_nil _).trans stands.log⟩
    | failed => exact stands.elim
  obtain ⟨later, all⟩ := read
  rw [← all, List.append_assoc] at front
  exact (List.append_inj front (whole.trans nonce.length_eq.symm)).1

structure Paired (A B : Block 32) (first : TunnelEnd σ S Z Z') (first' : TunnelEnd σ' S Z Z')
    (x : Opener σ S Z Z') (y : Opener σ' S Z Z') (p : TunnelEnd σ S Z Z')
    (q : TunnelEnd σ' S Z Z') : Prop where
  here : x.Stands A first p
  there : y.Stands B first' q
  heard : x.Heard y.outbound
  heardThere : y.Heard x.outbound

variable {A B : Block 32} {first' : TunnelEnd σ' S Z Z'} {y : Opener σ' S Z Z'}
  {q : TunnelEnd σ' S Z Z'}

theorem Paired.symm (paired : Paired A B first first' x y p q) : Paired B A first' first y x q p :=
  ⟨paired.there, paired.here, paired.heardThere, paired.heard⟩

theorem Heard.length (heard : x.Heard y.outbound) {unsent got : Bytes} {outbound : Fifo UInt8}
    (shaking : x = .shaking unsent got outbound) : got.length = y.outbound.taken := by
  subst shaking
  rw [heard.1, Fifo.received, List.length_take]
  exact Nat.min_eq_left y.outbound.taken_le

@[simp] theorem outbound_setOutbound (x : Opener σ S Z Z') (outbound : Fifo UInt8) :
    (x.setOutbound outbound).outbound = outbound := by
  cases x <;> rfl

theorem heard_setOutbound (x : Opener σ S Z Z') (outbound inbound : Fifo UInt8) :
    (x.setOutbound outbound).Heard inbound = x.Heard inbound := by
  cases x <;> rfl

theorem Stands.early {k : Nat} (stands : x.Stands nonce first p)
    (most : k ≤ x.outbound.queue.length) (early : x.outbound.taken + k ≤ 32) :
    (x.setOutbound (x.outbound.advance k)).Stands nonce first p := by
  cases x with
  | shaking => exact stands
  | proxying p' => exact TunnelEnd.Past.early stands most early
  | failed => exact stands

/-- In the handshake a side reads nothing but the other's nonce, and behind it what the session on
bytes reads there. -/
theorem Paired.readFrom [RunProxy σ] [RunProxy σ'] {C : Setup σ Z Z'} {k : Nat}
    {x' : Opener σ S Z Z'} {y' : Opener σ' S Z Z'}
    (paired : Paired A B first first' x y p q) (h : x.readFrom C k y = some (x', y')) :
    ∃ p' q', Paired A B first first' x' y' p' q' ∧
      ((p' = p ∧ q' = q) ∨ p.readFrom k q = some (p', q')) := by
  obtain ⟨here, there, heard, heardThere⟩ := id paired
  cases x with
  | shaking unsent got outbound =>
      obtain ⟨⟨-, -, room, most⟩, h⟩ := Option.ite_none_right_eq_some.mp h
      cases h
      have length := heard.length rfl
      obtain ⟨read, short⟩ := heard
      refine ⟨p, q, ⟨here, there.early most (by omega), ⟨?_, ?_⟩, ?_⟩, Or.inl ⟨rfl, rfl⟩⟩
      · rw [outbound_setOutbound, Fifo.received_advance, read]
      · rw [outbound_setOutbound, Fifo.taken_advance most]
        omega
      · rw [heard_setOutbound]
        exact heardThere
  | proxying p' =>
      obtain ⟨⟨reads, most, eof⟩, h⟩ := Option.ite_none_right_eq_some.mp h
      cases h
      cases y with
      | shaking unsent got outbound =>
          have length := congrArg List.length there.1
          have bound := outbound.taken_le
          have whole : 32 ≤ outbound.taken := heard
          rw [List.length_append, B.length_eq] at length
          rw [show (Opener.shaking unsent got outbound : Opener σ' S Z Z').outbound.queue.length =
            outbound.log.length - outbound.taken from List.length_drop] at most
          have ended := eof (by omega)
          cases ended
      | proxying q' =>
          have same : q'.tunnel = q.tunnel := by rw [there.same]; rfl
          have queue : q'.outbound.queue = q.outbound.queue := there.queue heard
          have reads' : p'.reads = p.reads := by rw [here.same]; rfl
          have ended : q'.ended = q.ended := by rw [TunnelEnd.ended, TunnelEnd.ended, same, queue]
          have here := here.read (q'.outbound.queue.take k)
          refine ⟨_, _, ⟨here, there.advance most heard, ?_, heardThere⟩, Or.inr ?_⟩
          · show 32 ≤ (q'.outbound.advance k).taken
            rw [Fifo.taken_advance (show k ≤ q'.outbound.queue.length from most)]
            exact Nat.le_add_right_of_le heard
          · rw [queue]
            exact Option.ite_none_right_eq_some.mpr
              ⟨⟨reads' ▸ reads, queue ▸ most, fun none => ended ▸ eof none⟩, rfl⟩
      | failed => exact there.elim
  | failed => cases h

theorem Heard.congr {f g : Fifo UInt8} (heard : x.Heard f) (received : g.received = f.received)
    (taken : g.taken = f.taken) : x.Heard g := by
  cases x with
  | shaking => exact ⟨heard.1.trans received.symm, taken.trans_le heard.2⟩
  | proxying => exact heard.trans_eq taken.symm
  | failed => exact heard

theorem Paired.step [RunProxy σ] {aesGcm : Block 32 → Aead 12 16} {messagePack : MessagePack}
    {deflate : Coder Z} {inflate : Coder Z'} {codec : Codec S} {frame : Bytes → Bytes} {sndBuf : Nat}
    {fresh : S} {C : Setup σ Z Z'} {cipher : Cipher} {x' : Opener σ S Z Z'} {a : OpenerAct}
    (answers : C.handshake B = .ok cipher)
    (paired : Paired C.nonce B (C.opens sndBuf fresh cipher) first' x y p q)
    (h : x.step aesGcm messagePack deflate inflate codec frame sndBuf fresh C a = some x') :
    x'.isFailed = true ∨ ∃ p',
      Paired C.nonce B (C.opens sndBuf fresh cipher) first' x' y p' q ∧
      (p' = p ∨ ∃ b, p.step aesGcm messagePack deflate inflate codec frame b = some p') := by
  obtain ⟨here, there, heard, heardThere⟩ := id paired
  cases a with
  | write k =>
      cases x with
      | shaking unsent got outbound =>
          obtain ⟨-, h⟩ := Option.ite_none_right_eq_some.mp h
          cases h
          obtain ⟨sent, begins⟩ := here
          refine Or.inr ⟨p, ⟨⟨?_, begins⟩, there, heard, ?_⟩, Or.inl rfl⟩
          · rw [Fifo.log_pushAll, List.append_assoc, List.take_append_drop, sent]
          · exact heardThere.congr (Fifo.received_pushAll _) rfl
      | _ => cases h
  | finish =>
      cases x with
      | shaking unsent got outbound =>
          cases unsent with
          | cons => cases h
          | nil =>
              simp only [Opener.step, finish] at h
              split at h
              case isTrue whole =>
                have read := heard.length rfl
                have nonce : (⟨got, whole⟩ : Block 32) = B :=
                  Block.ext (heard.1.trans (there.front (heard.1 ▸ whole)))
                rw [nonce, answers] at h
                cases h
                obtain ⟨sent, rfl, -⟩ := here
                rw [List.append_nil] at sent
                refine Or.inr ⟨_, ⟨⟨rfl, ?_, ?_⟩, there, ?_, heardThere⟩, Or.inl rfl⟩
                · exact sent.trans (List.append_nil _).symm
                · have length := congrArg List.length sent
                  have bound := outbound.taken_le
                  rw [C.nonce.length_eq] at length
                  exact (Nat.sub_eq_zero_of_le (bound.trans_eq length)).symm
                · exact (whole.symm.trans read).le
              case isFalse => cases h
      | _ => cases h
  | fail =>
      cases x with
      | shaking =>
          cases h
          exact Or.inl rfl
      | _ => cases h
  | socket b =>
      cases x with
      | proxying p' =>
          obtain ⟨q', move, rfl⟩ := Option.map_eq_some_iff.mp h
          obtain ⟨p'', moves, past, received, taken⟩ := TunnelEnd.Past.step here move
          exact Or.inr ⟨p'', ⟨past, there, heard, heardThere.congr received taken⟩,
            Or.inr ⟨b, moves⟩⟩
      | _ => cases h

theorem isFailed_setOutbound (x : Opener σ S Z Z') (outbound : Fifo UInt8) :
    (x.setOutbound outbound).isFailed = x.isFailed := by
  cases x <;> rfl

theorem isFailed_of_readFrom [RunProxy σ] [RunProxy σ'] {C : Setup σ Z Z'} {k : Nat}
    {x' : Opener σ S Z Z'} {y' : Opener σ' S Z Z'} (h : x.readFrom C k y = some (x', y')) :
    x'.isFailed = x.isFailed ∧ y'.isFailed = y.isFailed := by
  cases x with
  | shaking | proxying =>
      obtain ⟨-, h⟩ := Option.ite_none_right_eq_some.mp h
      cases h
      exact ⟨rfl, isFailed_setOutbound _ _⟩
  | failed => cases h

theorem isFailed_of_step [RunProxy σ] {aesGcm : Block 32 → Aead 12 16} {messagePack : MessagePack}
    {deflate : Coder Z} {inflate : Coder Z'} {codec : Codec S} {frame : Bytes → Bytes} {sndBuf : Nat}
    {fresh : S} {C : Setup σ Z Z'} {x' : Opener σ S Z Z'} {a : OpenerAct}
    (h : x.step aesGcm messagePack deflate inflate codec frame sndBuf fresh C a = some x') :
    x.isFailed = false := by
  cases x with
  | failed => cases a <;> cases h
  | _ => rfl

end Opener

namespace Opening

variable {S Z Z' : Type} {o o' : Opening S Z Z'} {aesGcm : Block 32 → Aead 12 16}
  {messagePack : MessagePack} {deflate : Coder Z} {inflate : Coder Z'} {codec : Codec S}
  {frame : Bytes → Bytes} {sndBuf : Nat} {fresh : S} {A : Setup Server Z Z'} {B : Setup Client Z Z'}
  {first b : ByteSession S Z Z'} {a : OpeningAct} {serverCipher clientCipher : Cipher}

/-- One of the handshakes has failed. -/
def Broken (o : Opening S Z Z') : Prop := o.server.isFailed = true ∨ o.client.isFailed = true

theorem Broken.step (broken : o.Broken)
    (h : o.step aesGcm messagePack deflate inflate codec frame sndBuf fresh A B a = some o') :
    o'.Broken := by
  obtain ⟨server, client⟩ := o
  cases a with
  | server a =>
      cases server with
      | proxying p =>
          obtain ⟨-, h⟩ := Option.ite_none_right_eq_some.mp h
          obtain ⟨proxy, -, rfl⟩ := Option.map_eq_some_iff.mp h
          exact broken
      | _ => cases h
  | client a =>
      cases client with
      | proxying p =>
          obtain ⟨-, h⟩ := Option.ite_none_right_eq_some.mp h
          obtain ⟨proxy, -, rfl⟩ := Option.map_eq_some_iff.mp h
          exact broken
      | _ => cases h
  | serverOpener a =>
      obtain ⟨x, move, rfl⟩ := Option.map_eq_some_iff.mp h
      rcases broken with failed | failed
      · exact absurd failed (by simp [Opener.isFailed_of_step move])
      · exact Or.inr failed
  | clientOpener a =>
      obtain ⟨x, move, rfl⟩ := Option.map_eq_some_iff.mp h
      rcases broken with failed | failed
      · exact Or.inl failed
      · exact absurd failed (by simp [Opener.isFailed_of_step move])
  | toServer k =>
      obtain ⟨⟨x, y⟩, move, rfl⟩ := Option.map_eq_some_iff.mp h
      obtain ⟨same, same'⟩ := Opener.isFailed_of_readFrom move
      exact broken.imp same.trans same'.trans
  | toClient k =>
      obtain ⟨⟨x, y⟩, move, rfl⟩ := Option.map_eq_some_iff.mp h
      obtain ⟨same, same'⟩ := Opener.isFailed_of_readFrom move
      exact broken.imp same'.trans same.trans

/-- The session on bytes that this connection stands for while no handshake has failed. -/
def StandsFor (A : Setup Server Z Z') (B : Setup Client Z Z') (first b : ByteSession S Z Z')
    (o : Opening S Z Z') : Prop :=
  Opener.Paired A.nonce B.nonce first.server first.client o.server o.client b.server b.client

theorem StandsFor.step (answers : A.handshake B.nonce = .ok serverCipher)
    (answers' : B.handshake A.nonce = .ok clientCipher)
    (begins : first = ⟨A.opens sndBuf fresh serverCipher, B.opens sndBuf fresh clientCipher⟩)
    (stands : o.StandsFor A B first b)
    (h : o.step aesGcm messagePack deflate inflate codec frame sndBuf fresh A B a = some o') :
    o'.Broken ∨ ∃ b', o'.StandsFor A B first b' ∧
      (b' = b ∨ ∃ act, b.step aesGcm messagePack deflate inflate codec frame act = some b') := by
  subst begins
  obtain ⟨server, client⟩ := o
  cases a with
  | server a =>
      cases server with
      | proxying p =>
          obtain ⟨inner, h⟩ := Option.ite_none_right_eq_some.mp h
          obtain ⟨proxy, move, rfl⟩ := Option.map_eq_some_iff.mp h
          have same : p.proxy = b.server.proxy := by rw [stands.here.same]; rfl
          rw [same] at move
          refine Or.inr ⟨{ b with server := { b.server with proxy } },
            { stands with here := stands.here.setProxy proxy }, Or.inr ⟨.server a, ?_⟩⟩
          simp [ByteSession.step, inner, move]
      | _ => cases h
  | client a =>
      cases client with
      | proxying p =>
          obtain ⟨inner, h⟩ := Option.ite_none_right_eq_some.mp h
          obtain ⟨proxy, move, rfl⟩ := Option.map_eq_some_iff.mp h
          have same : p.proxy = b.client.proxy := by rw [stands.there.same]; rfl
          rw [same] at move
          refine Or.inr ⟨{ b with client := { b.client with proxy } },
            { stands with there := stands.there.setProxy proxy }, Or.inr ⟨.client a, ?_⟩⟩
          simp [ByteSession.step, inner, move]
      | _ => cases h
  | serverOpener a =>
      obtain ⟨x, move, rfl⟩ := Option.map_eq_some_iff.mp h
      rcases Opener.Paired.step answers stands move with failed | ⟨p, paired, rfl | ⟨act, taken⟩⟩
      · exact Or.inl (Or.inl failed)
      · exact Or.inr ⟨b, paired, Or.inl rfl⟩
      · exact Or.inr ⟨{ b with server := p }, paired, Or.inr ⟨.serverSocket act, by
          simp [ByteSession.step, taken]⟩⟩
  | clientOpener a =>
      obtain ⟨x, move, rfl⟩ := Option.map_eq_some_iff.mp h
      rcases Opener.Paired.step answers' stands.symm move with
        failed | ⟨p, paired, rfl | ⟨act, taken⟩⟩
      · exact Or.inl (Or.inr failed)
      · exact Or.inr ⟨b, paired.symm, Or.inl rfl⟩
      · exact Or.inr ⟨{ b with client := p }, paired.symm, Or.inr ⟨.clientSocket act, by
          simp [ByteSession.step, taken]⟩⟩
  | toServer k =>
      obtain ⟨⟨x, y⟩, move, rfl⟩ := Option.map_eq_some_iff.mp h
      obtain ⟨p, q, paired, ⟨rfl, rfl⟩ | taken⟩ := Opener.Paired.readFrom stands move
      · exact Or.inr ⟨b, paired, Or.inl rfl⟩
      · exact Or.inr ⟨⟨p, q⟩, paired, Or.inr ⟨.toServer k, by simp [ByteSession.step, taken]⟩⟩
  | toClient k =>
      obtain ⟨⟨x, y⟩, move, rfl⟩ := Option.map_eq_some_iff.mp h
      obtain ⟨p, q, paired, ⟨rfl, rfl⟩ | taken⟩ := Opener.Paired.readFrom stands.symm move
      · exact Or.inr ⟨b, paired.symm, Or.inl rfl⟩
      · exact Or.inr ⟨⟨q, p⟩, paired.symm, Or.inr ⟨.toClient k, by simp [ByteSession.step, taken]⟩⟩

theorem standsFor_start (sndBuf : Nat) (fresh : S) (serverCipher clientCipher : Cipher) :
    (start A B).StandsFor A B
      ⟨A.opens sndBuf fresh serverCipher, B.opens sndBuf fresh clientCipher⟩
      ⟨A.opens sndBuf fresh serverCipher, B.opens sndBuf fresh clientCipher⟩ :=
  ⟨⟨rfl, rfl, rfl⟩, ⟨rfl, rfl, rfl⟩, ⟨rfl, Nat.zero_le _⟩, ⟨rfl, Nat.zero_le _⟩⟩

theorem standsFor_of_run (answers : A.handshake B.nonce = .ok serverCipher)
    (answers' : B.handshake A.nonce = .ok clientCipher)
    (begins : first = ⟨A.opens sndBuf fresh serverCipher, B.opens sndBuf fresh clientCipher⟩)
    (run : Reach (step aesGcm messagePack deflate inflate codec frame sndBuf fresh A B) (start A B) o) :
    o.Broken ∨ ∃ b, Reach (ByteSession.step aesGcm messagePack deflate inflate codec frame) first b ∧
      o.StandsFor A B first b := by
  refine run.induct (P := fun o => o.Broken ∨ ∃ b,
    Reach (ByteSession.step aesGcm messagePack deflate inflate codec frame) first b ∧
      o.StandsFor A B first b) ?_ ?_
  · subst begins
    exact Or.inr ⟨_, Run.refl _, standsFor_start _ _ _ _⟩
  · rintro o a o' - (broken | ⟨b, reach, stands⟩) - move
    · exact Or.inl (broken.step move)
    · rcases stands.step answers answers' begins move with broken | ⟨b', after, rfl | ⟨act, taken⟩⟩
      · exact Or.inl broken
      · exact Or.inr ⟨_, reach, after⟩
      · exact Or.inr ⟨b', reach.tail trivial taken, after⟩

/-- Once both handshakes are through, the two ends stand where a session on bytes stands that
started with the key of the two nonces: whatever holds of every such session holds of them. -/
theorem established {S Z Z' : Type} (aesGcm : Block 32 → Aead 12 16) (messagePack : MessagePack)
    (deflate : Coder Z) (inflate : Coder Z') (codec : Codec S) (frame : Bytes → Bytes) (sndBuf : Nat)
    (fresh : S) (sha256 : Bytes → Block 32) (authToken : String) (config : ConfigInfo)
    (shared : config.server.authToken = authToken) (serverNonce clientNonce : Block 32)
    (serverPrefix clientPrefix : Block 4) (serverZ clientZ : Z) (serverZ' clientZ' : Z')
    (o : Opening S Z Z')
    (reach : Reach (step aesGcm messagePack deflate inflate codec frame sndBuf fresh
      (serverSetup sha256 authToken serverNonce serverPrefix serverZ serverZ')
      (clientSetup sha256 config clientNonce clientPrefix clientZ clientZ'))
      (start (serverSetup sha256 authToken serverNonce serverPrefix serverZ serverZ')
        (clientSetup sha256 config clientNonce clientPrefix clientZ clientZ')) o)
    (p : TunnelEnd Server S Z Z') (q : TunnelEnd Client S Z Z') (server : o.server = .proxying p)
    (client : o.client = .proxying q) :
    ∃ b : ByteSession S Z Z',
      b.Reachable aesGcm messagePack deflate inflate codec frame fresh
        (deriveSessionKey sha256 authToken clientNonce serverNonce) config ∧
      p.Past serverNonce b.server ∧ q.Past clientNonce b.client ∧
      p.outbound.queue = b.server.outbound.queue ∧ q.outbound.queue = b.client.outbound.queue := by
  subst shared
  rcases standsFor_of_run rfl rfl rfl reach with (failed | failed) | ⟨b, run, stands⟩
  · rw [server] at failed
    cases failed
  · rw [client] at failed
    cases failed
  · obtain ⟨here, there, heard, heardThere⟩ := stands
    rw [server] at here heard heardThere
    rw [client] at there heard heardThere
    refine ⟨b, ⟨sndBuf, _, _, _, _, rfl, rfl, rfl, rfl, run⟩, here, there, ?_, ?_⟩
    · exact here.queue heardThere
    · exact there.queue heard

def secretConfig : ConfigInfo := ⟨.client, ⟨"127.0.0.1", 11000, "secret", ""⟩, []⟩

/-- AES-256-GCM under the key of "secret" and the two nonces, for the deflated ping frame under the
zero nonce. -/
def secretGcm : Aead 12 16 :=
  .counterMode
    (fun nonce i => if nonce = .zero 12 then
        [165, 145, 212, 218, 138, 194, 37, 23, 228, 126, 48, 5, 159, 218, 91, 74, 225, 191].getD i 0
      else 0)
    fun nonce _ => if nonce = .zero 12 then
        ⟨[102, 7, 175, 253, 6, 62, 235, 186, 234, 104, 34, 182, 6, 192, 211, 82], rfl⟩
      else .zero 16

def atServer : Setup Server Coder.OneShot Coder.OneShot :=
  serverSetup sha256Table "secret" (.replicate 32 2) (.replicate 4 1) ⟨none, 0, 0⟩ ⟨none, 0, 0⟩

def atClient : Setup Client Coder.OneShot Coder.OneShot :=
  clientSetup sha256Table secretConfig (.replicate 32 1) (.zero 4) ⟨none, 0, 0⟩ ⟨none, 0, 0⟩

/-- The server is through its handshake before the client is; then the client sends a heartbeat, of
which the server has read seven bytes so far. -/
def opensAndPings : List OpeningAct :=
  [.clientOpener (.write 20), .clientOpener (.write 12), .toServer 32, .serverOpener (.write 32),
    .serverOpener .finish, .toClient 31, .toClient 1, .clientOpener .finish, .client .tick,
    .client .ping, .client (.endpoint (.writer .recv)), .clientOpener (.socket (.encode 99)),
    .clientOpener (.socket (.write 20)), .toServer 7, .serverOpener (.socket (.next 99))]

theorem established_opensAndPings : ∃ (p : TunnelEnd Server Unit Coder.OneShot Coder.OneShot)
    (q : TunnelEnd Client Unit Coder.OneShot Coder.OneShot)
    (b : ByteSession Unit Coder.OneShot Coder.OneShot),
    b.Reachable (fun _ => secretGcm) RmpSerde.messagePack (.oneShot pingDeflate)
      (.oneShot pingInflate) ServerIo.lengthDelimited ServerIo.delimit ()
      (deriveSessionKey sha256Table "secret" (.replicate 32 1) (.replicate 32 2)) secretConfig ∧
    p.Past (.replicate 32 2) b.server ∧ q.Past (.replicate 32 1) b.client ∧
    p.outbound.queue = b.server.outbound.queue ∧ q.outbound.queue = b.client.outbound.queue ∧
    p.reader.buffer = [0, 0, 0, 46, 206, 205, 58] ∧ q.outbound.queue.length = 13 := by
  have view : (exec (step (fun _ => secretGcm) RmpSerde.messagePack (.oneShot pingDeflate)
      (.oneShot pingInflate) ServerIo.lengthDelimited ServerIo.delimit 64 () atServer atClient)
      (start atServer atClient) opensAndPings).map
      (fun o => (o.server.end?.map fun p => p.reader.buffer,
        o.client.end?.map fun q => q.outbound.queue.length)) =
        some (some [0, 0, 0, 46, 206, 205, 58], some 13) := by decide +kernel
  obtain ⟨o, run, seen⟩ := Option.map_eq_some_iff.mp view
  obtain ⟨buffer, queue⟩ := Prod.mk.inj seen
  obtain ⟨p, server, buffer⟩ := Option.map_eq_some_iff.mp buffer
  obtain ⟨q, client, queue⟩ := Option.map_eq_some_iff.mp queue
  obtain ⟨b, reach, here, there, same, same'⟩ := established (fun _ => secretGcm) RmpSerde.messagePack
    (.oneShot pingDeflate) (.oneShot pingInflate) ServerIo.lengthDelimited ServerIo.delimit 64 ()
    sha256Table "secret" secretConfig rfl (.replicate 32 2) (.replicate 32 1) (.replicate 4 1)
    (.zero 4) ⟨none, 0, 0⟩ ⟨none, 0, 0⟩ ⟨none, 0, 0⟩ ⟨none, 0, 0⟩ o (reach_of_exec opensAndPings run)
    p q (Opener.end_eq_some server) (Opener.end_eq_some client)
  exact ⟨p, q, b, reach, here, there, same, same', buffer, queue⟩

end Opening

end Rfrp
