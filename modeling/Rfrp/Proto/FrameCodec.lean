import Rfrp.Lib.Streaming
import Rfrp.Proto.Crypto
import Rfrp.Proto.FrameTypes
import Mathlib.Algebra.GroupWithZero.Nat

/-!
# The frame pipeline

`rfrp_proto/src/compress.rs`, `frame_encode.rs` and `frame_decode.rs`: MessagePack, DEFLATE,
AES-256-GCM and back. `rmp_serde` and `flate2` are parameters. Loops that a misbehaving coder might
keep going have fuel; without it they have no result.
-/

namespace Rfrp

/-- `rmp_serde::encode::write` and `rmp_serde::from_slice`. -/
structure MessagePack where
  write : RfrpFrame → Option Bytes
  fromSlice : Bytes → Except String RfrpFrame

def maxDecompressedSize : Nat := 64 * 1024 * 1024

def chunkSize : Nat := 8192

def clear (_ : Bytes) : Bytes := []

/-- `split` takes everything out of a `BytesMut`. -/
def split (buf : Bytes) : Bytes × Bytes := (buf, [])

def compressIntoBytesMut {Z : Type} (deflate : Coder Z) (fuel : Nat) (data dst : Bytes) (z : Z) :
    Option (Z × Bytes) :=
  match deflate.pump none fuel (deflate.reset z) data (List.replicate chunkSize 0) (clear dst) with
  | (z, dst, .finished) => some (z, dst)
  | _ => none

def decompressIntoVec {Z : Type} (inflate : Coder Z) (fuel : Nat) (data dst : Bytes) (z : Z) :
    Z × Bytes × Option (Except String Unit) :=
  match inflate.pump (some maxDecompressedSize) fuel (inflate.reset z) data
      (List.replicate chunkSize 0) (clear dst) with
  | (z, dst, .finished) => (z, dst, some (.ok ()))
  | (z, dst, .overflow) =>
      (z, dst, some (.error "Decompression bomb detected: output exceeded 67108864 bytes"))
  | (z, dst, .stalled) =>
      (z, dst, some (.error "Decompression stalled: incomplete input stream"))
  | (z, dst, .failed) =>
      (z, dst, some (.error "Decompression failed: deflate decompression error"))
  | (z, dst, .outOfFuel) => (z, dst, none)

structure Sender (Z : Type) where
  cipher : Cipher
  encodeBuf : Bytes
  compress : Z

structure Receiver (Z : Type) where
  cipher : Cipher
  decompBuf : Bytes
  decompress : Z

namespace RfrpFrame

def decode (messagePack : MessagePack) (bytes : Bytes) : Except String RfrpFrame :=
  match messagePack.fromSlice bytes with
  | .ok f => .ok f
  | .error e => .error ("Failed to decode frame: " ++ e)

variable {Z : Type} (aesGcm : Block 32 → Aead 12 16) (messagePack : MessagePack) (coder : Coder Z)
  (fuel : Nat)

def encodeEncrypted (object : RfrpFrame) (s : Sender Z) : Option (Bytes × Sender Z) := do
  let written ← messagePack.write object
  let (serialized, buf) := split (clear s.encodeBuf ++ written)
  let (compress, buf) ← compressIntoBytesMut coder fuel serialized buf s.compress
  let (cipher, buf) := Cipher.encryptInPlaceBytesMut aesGcm s.cipher buf
  let (bytes, encodeBuf) := split buf
  return (bytes, ⟨cipher, encodeBuf, compress⟩)

def decodeEncryptedBytesMut (buf : Bytes) (r : Receiver Z) :
    Option (Except String RfrpFrame) × Receiver Z :=
  match (Cipher.decryptInPlaceBytesMut aesGcm r.cipher buf).2 with
  | .error e => (some (.error e), r)
  | .ok plaintext =>
      match decompressIntoVec coder fuel plaintext r.decompBuf r.decompress with
      | (decompress, decompBuf, none) => (none, { r with decompBuf, decompress })
      | (decompress, decompBuf, some (.error e)) => (some (.error e), { r with decompBuf, decompress })
      | (decompress, decompBuf, some (.ok _)) =>
          (some (decode messagePack decompBuf), { r with decompBuf, decompress })

end RfrpFrame

/-! ## What the parameters are relied on for -/

def shortString (text : String) : Prop := text.utf8ByteSize < 2 ^ 32

def ClientInfo.fits (client : ClientInfo) : Prop :=
  shortString client.name ∧ shortString client.proxyIp ∧ shortString client.proxyConType

/-- The strings and payloads of the frame are within the limits of MessagePack. -/
def RfrpFrame.fits : RfrpFrame → Prop
  | .register client => client.fits
  | .registerAck response => response.client.fits
  | .control info =>
      shortString info.command ∧ info.args.length < 2 ^ 32 ∧ ∀ arg ∈ info.args, shortString arg
  | .data info => info.data.length < 2 ^ 32

def MessagePack.RoundTrips (messagePack : MessagePack) (f : RfrpFrame) : Prop :=
  ∃ bytes, messagePack.write f = some bytes ∧ messagePack.fromSlice bytes = .ok f.skipAddr

/-- The strings of an entry. -/
def ClientInfo.size (client : ClientInfo) : Nat :=
  client.name.utf8ByteSize + client.proxyIp.utf8ByteSize + client.proxyConType.utf8ByteSize

/-- The strings and payloads of a frame, with five bytes for each argument of a command. -/
def RfrpFrame.size : RfrpFrame → Nat
  | .register client => client.size
  | .registerAck response => response.client.size
  | .control info =>
      info.command.utf8ByteSize + (info.args.map fun arg => arg.utf8ByteSize + 5).sum
  | .data info => info.data.length

/-- MessagePack adds little to what it packs. -/
def MessagePack.Compact (messagePack : MessagePack) : Prop :=
  ∀ f bytes, messagePack.write f = some bytes → bytes.length ≤ f.size + 64

/-- `represents stream data` says that `stream` is a DEFLATE stream of `data`. -/
structure Flate {Z Z' : Type} (deflate : Coder Z) (inflate : Coder Z')
    (represents : Bytes → Bytes → Prop) : Prop where
  exists_stream : ∀ data, ∃ stream, represents stream data
  unique : ∀ stream data data', represents stream data → represents stream data' → data = data'
  deflate : ∃ within, deflate.Codes chunkSize (fun data stream => represents stream data) within
  inflate : ∃ within, inflate.Codes chunkSize represents within

/-! ## One frame -/

section
variable {Z Z' : Type} {aesGcm : Block 32 → Aead 12 16} {messagePack : MessagePack}
  {deflate : Coder Z} {inflate : Coder Z'} {represents : Bytes → Bytes → Prop}

theorem Flate.compress (flate : Flate deflate inflate represents) (data dst : Bytes) (z : Z) :
    ∃ stream z', represents stream data ∧ ∃ few, ∀ fuel ≥ few,
      compressIntoBytesMut deflate fuel data dst z = some (z', stream) := by
  obtain ⟨within, codes⟩ := flate.deflate
  obtain ⟨stream, valid⟩ := flate.exists_stream data
  obtain ⟨stream, turned, inside⟩ := codes.reset z data stream valid
  have few := Nat.lt_succ_self (data.length + stream.length)
  obtain ⟨finishes, -⟩ := codes.pump none [] inside (List.length_replicate (a := (0 : UInt8))) few
  obtain ⟨z', result⟩ := finishes (by simp)
  refine ⟨stream, z', turned, data.length + stream.length + 1, fun fuel enough => ?_⟩
  have more := (Coder.pump_more (by simp [result]) enough).trans result
  simp only [compressIntoBytesMut, clear, more, List.nil_append]

theorem Flate.decompress (flate : Flate deflate inflate represents) {stream data : Bytes}
    (valid : represents stream data) {fuel : Nat} (enough : stream.length + data.length < fuel)
    (dst : Bytes) (z : Z') :
    (data.length ≤ maxDecompressedSize →
      ∃ z', decompressIntoVec inflate fuel stream dst z = (z', data, some (.ok ()))) ∧
    (maxDecompressedSize < data.length →
      ∃ z' dst', decompressIntoVec inflate fuel stream dst z =
        (z', dst', some (.error "Decompression bomb detected: output exceeded 67108864 bytes"))) := by
  obtain ⟨within, codes⟩ := flate.inflate
  obtain ⟨data', turned, inside⟩ := codes.reset z stream data valid
  obtain rfl := flate.unique stream data data' valid turned
  obtain ⟨finishes, overflows⟩ := codes.pump (some maxDecompressedSize) [] inside
    (List.length_replicate (a := (0 : UInt8))) enough
  constructor
  · intro small
    obtain ⟨z', result⟩ := finishes fun l eq => by cases eq; exact small
    refine ⟨z', ?_⟩
    simp only [decompressIntoVec, clear, result, List.nil_append]
  · intro large
    obtain ⟨z', dst', result⟩ := overflows maxDecompressedSize rfl large
    refine ⟨z', dst', ?_⟩
    simp only [decompressIntoVec, clear, result]

theorem compress_more {data dst : Bytes} {z : Z} {result : Z × Bytes} {fuel fuel' : Nat}
    (ends : compressIntoBytesMut deflate fuel data dst z = some result) (more : fuel ≤ fuel') :
    compressIntoBytesMut deflate fuel' data dst z = some result := by
  unfold compressIntoBytesMut at ends ⊢
  rw [Coder.pump_more _ more]
  · exact ends
  · intro out
    split at ends
    · rename_i pumped
      rw [pumped] at out
      cases out
    · cases ends

theorem decompress_more {data dst : Bytes} {z : Z'} {fuel fuel' : Nat}
    (ends : (decompressIntoVec inflate fuel data dst z).2.2 ≠ none) (more : fuel ≤ fuel') :
    decompressIntoVec inflate fuel' data dst z = decompressIntoVec inflate fuel data dst z := by
  unfold decompressIntoVec at ends ⊢
  rw [Coder.pump_more _ more]
  intro out
  split at ends
  all_goals
    rename_i pumped
    rw [pumped] at out
    first
      | exact absurd rfl ends
      | cases out

def Carries (aesGcm : Block 32 → Aead 12 16) (messagePack : MessagePack)
    (represents : Bytes → Bytes → Prop) (key : Block 32) (f : RfrpFrame) (buf : Bytes) : Prop :=
  ∃ bytes stream cipher, messagePack.write f = some bytes ∧ represents stream bytes ∧
    cipher.key = key ∧ buf = (Cipher.encryptInPlaceBytesMut aesGcm cipher stream).2

/-- What the other side gets of a frame. -/
def received (messagePack : MessagePack) (f : RfrpFrame) : Except String RfrpFrame :=
  if ((messagePack.write f).getD []).length ≤ maxDecompressedSize then .ok f.skipAddr
  else .error "Decompression bomb detected: output exceeded 67108864 bytes"

theorem encode_carries (aesGcm : Block 32 → Aead 12 16)
    (flate : Flate deflate inflate represents) {f : RfrpFrame} (writes : messagePack.RoundTrips f) (s : Sender Z) :
    ∃ buf s', Carries aesGcm messagePack represents s.cipher.key f buf ∧
      s'.cipher.key = s.cipher.key ∧ s'.encodeBuf = [] ∧ ∃ few, ∀ fuel ≥ few,
        f.encodeEncrypted aesGcm messagePack deflate fuel s = some (buf, s') := by
  obtain ⟨bytes, written, -⟩ := writes
  obtain ⟨stream, z', valid, few, result⟩ := flate.compress bytes [] s.compress
  refine ⟨(Cipher.encryptInPlaceBytesMut aesGcm s.cipher stream).2, ⟨s.cipher.advance, [], z'⟩,
    ⟨bytes, stream, s.cipher, written, valid, rfl, rfl⟩, rfl, rfl, few, fun fuel enough => ?_⟩
  simp [RfrpFrame.encodeEncrypted, written, clear, split, result fuel enough,
    Cipher.encryptInPlaceBytesMut, Cipher.encryptInner]

theorem decode_key (fuel : Nat) (buf : Bytes) {r : Receiver Z'} {key : Block 32}
    (same : r.cipher.key = key) :
    (RfrpFrame.decodeEncryptedBytesMut aesGcm messagePack inflate fuel buf r).2.cipher.key = key := by
  unfold RfrpFrame.decodeEncryptedBytesMut
  split
  · exact same
  · split <;> exact same

theorem decode_carried (flate : Flate deflate inflate represents) {f : RfrpFrame} {buf : Bytes}
    {key : Block 32} (reads : messagePack.RoundTrips f)
    (carries : Carries aesGcm messagePack represents key f buf) :
    ∃ few, ∀ fuel ≥ few, ∀ r : Receiver Z', r.cipher.key = key →
      (RfrpFrame.decodeEncryptedBytesMut aesGcm messagePack inflate fuel buf r).1 =
        some (received messagePack f) := by
  obtain ⟨bytes, stream, cipher, written, valid, rfl, rfl⟩ := carries
  obtain ⟨bytes', written', read⟩ := reads
  cases written.symm.trans written'
  refine ⟨stream.length + bytes.length + 1, fun fuel enough r same => ?_⟩
  have accepted : (Cipher.decryptInPlaceBytesMut aesGcm r.cipher _).2 = _ :=
    Cipher.decrypt_encrypt _ _ stream same
  have enough : stream.length + bytes.length < fuel := by omega
  obtain ⟨small, large⟩ := flate.decompress valid enough r.decompBuf r.decompress
  unfold RfrpFrame.decodeEncryptedBytesMut received
  rw [accepted, written]
  by_cases fitting : bytes.length ≤ maxDecompressedSize
  · obtain ⟨z', result⟩ := small fitting
    simp only [result, RfrpFrame.decode, read, Option.getD_some, if_pos fitting]
  · obtain ⟨z', dst', result⟩ := large (by omega)
    simp only [result, Option.getD_some, if_neg fitting]

theorem encode_more {f : RfrpFrame} {s : Sender Z} {result : Bytes × Sender Z} {fuel fuel' : Nat}
    (ends : f.encodeEncrypted aesGcm messagePack deflate fuel s = some result)
    (more : fuel ≤ fuel') :
    f.encodeEncrypted aesGcm messagePack deflate fuel' s = some result := by
  obtain ⟨bytes, written, ends⟩ := Option.bind_eq_some_iff.mp ends
  obtain ⟨compressed, squeezed, ends⟩ := Option.bind_eq_some_iff.mp ends
  apply Option.bind_eq_some_iff.mpr
  refine ⟨bytes, written, Option.bind_eq_some_iff.mpr ⟨compressed, ?_, ends⟩⟩
  exact compress_more squeezed more

theorem decode_more {buf : Bytes} {r : Receiver Z'} {result : Except String RfrpFrame}
    {fuel fuel' : Nat}
    (ends : (RfrpFrame.decodeEncryptedBytesMut aesGcm messagePack inflate fuel buf r).1 = some result)
    (more : fuel ≤ fuel') :
    (RfrpFrame.decodeEncryptedBytesMut aesGcm messagePack inflate fuel' buf r).1 = some result := by
  unfold RfrpFrame.decodeEncryptedBytesMut at ends ⊢
  cases decrypted : (Cipher.decryptInPlaceBytesMut aesGcm r.cipher buf).2 with
  | error e =>
      rw [decrypted] at ends
      exact ends
  | ok plaintext =>
      rw [decrypted] at ends
      dsimp only at ends ⊢
      rw [decompress_more _ more]
      · exact ends
      · intro out
        rw [show decompressIntoVec inflate fuel plaintext r.decompBuf r.decompress =
          (_, _, none) from Prod.ext rfl (Prod.ext rfl out)] at ends
        cases ends

theorem carries_of_encode (flate : Flate deflate inflate represents) {f : RfrpFrame}
    (writes : messagePack.RoundTrips f) {s s' : Sender Z} {buf : Bytes} {fuel : Nat}
    (encoded : f.encodeEncrypted aesGcm messagePack deflate fuel s = some (buf, s')) :
    Carries aesGcm messagePack represents s.cipher.key f buf ∧ s'.cipher.key = s.cipher.key := by
  obtain ⟨buf', s'', carries, key, -, few, result⟩ := encode_carries aesGcm flate writes s
  have same := (encode_more encoded (Nat.le_max_left fuel few)).symm.trans
    (result _ (Nat.le_max_right fuel few))
  cases same
  exact ⟨carries, key⟩

theorem received_of_decode (flate : Flate deflate inflate represents) {f : RfrpFrame} {buf : Bytes}
    {key : Block 32} (reads : messagePack.RoundTrips f)
    (carries : Carries aesGcm messagePack represents key f buf) {r : Receiver Z'}
    (same : r.cipher.key = key) {fuel : Nat} {result : Except String RfrpFrame}
    (decoded : (RfrpFrame.decodeEncryptedBytesMut aesGcm messagePack inflate fuel buf r).1 =
      some result) :
    result = received messagePack f := by
  obtain ⟨few, expected⟩ := decode_carried flate reads carries
  have more := decode_more decoded (Nat.le_max_left fuel few)
  exact Option.some.inj (more.symm.trans (expected _ (Nat.le_max_right fuel few) r same))

theorem skipAddr_of_received {f g : RfrpFrame} (h : received messagePack f = .ok g) :
    g = f.skipAddr := by
  unfold received at h
  split at h
  · exact (Except.ok.inj h).symm
  · cases h

theorem Carries.skipAddr_eq (flate : Flate deflate inflate represents) {f g : RfrpFrame}
    {buf : Bytes} {key : Block 32} (carriesF : Carries aesGcm messagePack represents key f buf)
    (carriesG : Carries aesGcm messagePack represents key g buf)
    (readsF : messagePack.RoundTrips f) (readsG : messagePack.RoundTrips g) :
    f.skipAddr = g.skipAddr := by
  obtain ⟨bytes, stream, cipher, written, valid, rfl, rfl⟩ := carriesF
  obtain ⟨bytes', stream', cipher', written', valid', key, same⟩ := carriesG
  have plain : stream = stream' := by
    have first := Cipher.decrypt_encrypt aesGcm cipher stream rfl
    have second := Cipher.decrypt_encrypt aesGcm cipher stream' key.symm
    rw [← same, first] at second
    exact Except.ok.inj second
  subst plain
  obtain rfl := flate.unique stream bytes bytes' valid valid'
  obtain ⟨_, writtenF, readF⟩ := readsF
  obtain ⟨_, writtenG, readG⟩ := readsG
  cases written.symm.trans writtenF
  cases written'.symm.trans writtenG
  exact Except.ok.inj (readF.symm.trans readG)

/-! ## Sequences of frames -/

def encodeAll (aesGcm : Block 32 → Aead 12 16) (messagePack : MessagePack) (deflate : Coder Z)
    (fuel : Nat) : List RfrpFrame → Sender Z → Option (List Bytes × Sender Z)
  | [], s => some ([], s)
  | f :: fs, s =>
      (f.encodeEncrypted aesGcm messagePack deflate fuel s).bind fun (buf, s) =>
        (encodeAll aesGcm messagePack deflate fuel fs s).map fun (bufs, s) => (buf :: bufs, s)

/-- What arrives: the other side's buffers and anything else. -/
inductive Incoming
  | sent (buf : Bytes)
  | other (buf : Bytes)

def Incoming.sent? : Incoming → Option Bytes
  | .sent buf => some buf
  | .other _ => none

/-- The results of the other side's buffers, with everything else decoded in between. -/
def decodeAll (aesGcm : Block 32 → Aead 12 16) (messagePack : MessagePack) (inflate : Coder Z')
    (fuel : Nat) : List Incoming → Receiver Z' → List (Option (Except String RfrpFrame))
  | [], _ => []
  | .sent buf :: rest, r =>
      let (result, r) := RfrpFrame.decodeEncryptedBytesMut aesGcm messagePack inflate fuel buf r
      result :: decodeAll aesGcm messagePack inflate fuel rest r
  | .other buf :: rest, r =>
      let (_, r) := RfrpFrame.decodeEncryptedBytesMut aesGcm messagePack inflate fuel buf r
      decodeAll aesGcm messagePack inflate fuel rest r

theorem encodeAll_carries (flate : Flate deflate inflate represents) {frames : List RfrpFrame}
    (writes : ∀ f ∈ frames, messagePack.RoundTrips f) (s : Sender Z) :
    ∃ bufs s', List.Forall₂ (Carries aesGcm messagePack represents s.cipher.key) frames bufs ∧
      (frames ≠ [] → s'.encodeBuf = []) ∧ ∃ few, ∀ fuel ≥ few,
        encodeAll aesGcm messagePack deflate fuel frames s = some (bufs, s') := by
  induction frames generalizing s with
  | nil => exact ⟨[], s, .nil, fun some => absurd rfl some, 0, fun _ _ => rfl⟩
  | cons f fs ih =>
      obtain ⟨buf, s₁, carries, key, empty, few, result⟩ :=
        encode_carries aesGcm flate (writes f List.mem_cons_self) s
      obtain ⟨bufs, s₂, rest, empties, few', results⟩ :=
        ih (fun g mem => writes g (List.mem_cons_of_mem _ mem)) s₁
      rw [key] at rest
      refine ⟨buf :: bufs, s₂, .cons carries rest, fun _ => ?_, max few few', fun fuel enough => ?_⟩
      · cases fs with
        | nil =>
            have last := results few' (Nat.le_refl _)
            cases last
            exact empty
        | cons => exact empties (List.cons_ne_nil _ _)
      · have first := result fuel (Nat.max_le.mp enough).1
        have later := results fuel (Nat.max_le.mp enough).2
        simp only [encodeAll, first, later, Option.bind_some, Option.map_some]

theorem decodeAll_carried (flate : Flate deflate inflate represents) {frames : List RfrpFrame}
    {bufs : List Bytes} {key : Block 32} (reads : ∀ f ∈ frames, messagePack.RoundTrips f)
    (carry : List.Forall₂ (Carries aesGcm messagePack represents key) frames bufs) :
    ∃ few, ∀ fuel ≥ few, ∀ (incoming : List Incoming) (r : Receiver Z'), r.cipher.key = key →
      incoming.filterMap Incoming.sent? = bufs →
      decodeAll aesGcm messagePack inflate fuel incoming r =
        frames.map fun f => some (received messagePack f) := by
  induction carry with
  | nil =>
      refine ⟨0, fun fuel _ incoming => ?_⟩
      induction incoming with
      | nil => intros; rfl
      | cons b rest ih =>
          intro r same arrived
          cases b with
          | sent buf => cases arrived
          | other buf => exact ih _ (decode_key fuel buf same) arrived
  | @cons f buf fs bufs carries _ ih =>
      obtain ⟨few, result⟩ := decode_carried flate (reads f List.mem_cons_self) carries
      obtain ⟨few', results⟩ := ih fun g mem => reads g (List.mem_cons_of_mem _ mem)
      refine ⟨max few few', fun fuel enough incoming => ?_⟩
      induction incoming with
      | nil => intro r same arrived; cases arrived
      | cons b rest ih' =>
          intro r same arrived
          cases b with
          | other buf' => exact ih' _ (decode_key fuel buf' same) arrived
          | sent buf' =>
              obtain ⟨rfl, later⟩ := List.cons.inj arrived
              have first := result fuel (Nat.max_le.mp enough).1 r same
              have same' : (RfrpFrame.decodeEncryptedBytesMut aesGcm messagePack inflate fuel buf'
                  r).2.cipher.key = key := decode_key fuel buf' same
              have rest := results fuel (Nat.max_le.mp enough).2 rest _ same' later
              simp only [decodeAll, first, rest, List.map_cons]

end

/-- Every frame of a sequence comes back as it was, but for the skipped addresses, if its
MessagePack form is within the limit; what else is decoded in between makes no difference. -/
theorem pipeline_roundtrip {Z Z' : Type} (aesGcm : Block 32 → Aead 12 16)
    (messagePack : MessagePack) (deflate : Coder Z) (inflate : Coder Z')
    (represents : Bytes → Bytes → Prop) (flate : Flate deflate inflate represents)
    (frames : List RfrpFrame) (fits : ∀ f ∈ frames, f.fits)
    (roundTrips : ∀ f ∈ frames, f.fits → messagePack.RoundTrips f) (s : Sender Z) (r : Receiver Z')
    (sameKey : r.cipher.key = s.cipher.key) :
    ∃ (bufs : List Bytes) (s' : Sender Z) (few : Nat), ∀ fuel ≥ few,
      encodeAll aesGcm messagePack deflate fuel frames s = some (bufs, s') ∧
      (frames ≠ [] → s'.encodeBuf = []) ∧
      ∀ incoming : List Incoming, incoming.filterMap Incoming.sent? = bufs →
        decodeAll aesGcm messagePack inflate fuel incoming r =
          frames.map fun f => some (received messagePack f) := by
  have both : ∀ f ∈ frames, messagePack.RoundTrips f := fun f mem => roundTrips f mem (fits f mem)
  obtain ⟨bufs, s', carry, empty, few, encoded⟩ := encodeAll_carries flate both s
  obtain ⟨few', decoded⟩ := decodeAll_carried flate both carry
  refine ⟨bufs, s', max few few', fun fuel enough => ⟨?_, empty, fun incoming arrived => ?_⟩⟩
  · exact encoded fuel (Nat.max_le.mp enough).1
  · exact decoded fuel (Nat.max_le.mp enough).2 incoming r sameKey arrived

/-! ## A ping through the pipeline -/

def pingBytes : Bytes := [129, 167, 67, 111, 110, 116, 114, 111, 108, 146, 164, 112, 105, 110, 103, 144]

def pingPack : MessagePack where
  write f := if f = .newPingFrame then some pingBytes else none
  fromSlice bytes := if bytes = pingBytes then .ok .newPingFrame else .error "invalid"

def pingStream : Bytes :=
  [107, 92, 238, 156, 159, 87, 82, 148, 159, 51, 105, 73, 65, 102, 94, 250, 4, 0]

/-- DEFLATE on the bytes of the ping frame, and anything reversible elsewhere. -/
def pingDeflate (data : Bytes) : Option Bytes :=
  some (if data = pingBytes then pingStream else 255 :: data)

def pingInflate : Bytes → Option Bytes
  | 255 :: data => some data
  | stream => if stream = pingStream then some pingBytes else none

/-- AES-256-GCM under the zero key, for the deflated ping frame under the zero nonce. -/
def pingGcm : Aead 12 16 :=
  .counterMode
    (fun nonce i => if nonce = .zero 12 then
        [206, 167, 64, 61, 77, 96, 107, 110, 7, 78, 197, 211, 186, 243, 157, 24, 114, 96].getD i 0
      else 0)
    fun nonce _ => if nonce = .zero 12 then
        ⟨[107, 165, 236, 243, 35, 30, 234, 53, 35, 125, 27, 187, 98, 94, 100, 179], rfl⟩
      else .zero 16

theorem pingInflate_pingDeflate (data : Bytes) :
    (pingDeflate data).bind pingInflate = some data := by
  by_cases ping : data = pingBytes
  · subst ping
    decide
  · simp only [pingDeflate, if_neg ping]
    rfl

theorem pingFlate : Flate (.oneShot pingDeflate) (.oneShot pingInflate)
    fun stream data => pingInflate stream = some data where
  exists_stream data := ⟨_, pingInflate_pingDeflate data⟩
  unique stream data data' h h' := Option.some.inj (h.symm.trans h')
  deflate := ⟨_, Coder.oneShot_codes (by decide) fun data _ _ =>
    ⟨_, pingInflate_pingDeflate data, rfl⟩⟩
  inflate := ⟨_, Coder.oneShot_codes (by decide) fun _ data h => ⟨data, h, h⟩⟩

theorem pipeline_roundtrip_ping : ∃ (bufs : List Bytes) (s' : Sender Coder.OneShot) (few : Nat),
    ∀ fuel ≥ few,
      encodeAll (fun _ => pingGcm) pingPack (.oneShot pingDeflate) fuel [.newPingFrame]
        ⟨.new (.zero 32) (.zero 4), [1, 2], ⟨none, 0, 0⟩⟩ = some (bufs, s') ∧ s'.encodeBuf = [] ∧
      decodeAll (fun _ => pingGcm) pingPack (.oneShot pingInflate) fuel
        (.other [1, 2, 3] :: bufs.map .sent)
        ⟨.new (.zero 32) (.replicate 4 1), [4], ⟨some [5], 6, 7⟩⟩ = [some (.ok .newPingFrame)] := by
  have fits : ∀ f ∈ [RfrpFrame.newPingFrame], f.fits := by
    intro f mem
    rw [List.mem_singleton.mp mem]
    exact ⟨show "ping".utf8ByteSize < 2 ^ 32 by decide, by decide, by simp⟩
  have writes : ∀ f ∈ [RfrpFrame.newPingFrame], f.fits → pingPack.RoundTrips f := by
    intro f mem _
    rw [List.mem_singleton.mp mem]
    exact ⟨pingBytes, rfl, rfl⟩
  obtain ⟨bufs, s', few, result⟩ := pipeline_roundtrip (fun _ => pingGcm) pingPack
    (.oneShot pingDeflate) (.oneShot pingInflate) _ pingFlate [.newPingFrame] fits writes
    ⟨.new (.zero 32) (.zero 4), [1, 2], ⟨none, 0, 0⟩⟩
    ⟨.new (.zero 32) (.replicate 4 1), [4], ⟨some [5], 6, 7⟩⟩ rfl
  refine ⟨bufs, s', few, fun fuel enough => ?_⟩
  obtain ⟨encoded, empty, decoded⟩ := result fuel enough
  refine ⟨encoded, empty (List.cons_ne_nil _ _), ?_⟩
  have arrived : (Incoming.other [1, 2, 3] :: bufs.map Incoming.sent).filterMap Incoming.sent? =
      bufs := by
    rw [List.filterMap_cons_none rfl, List.filterMap_map]
    exact List.filterMap_some
  rw [decoded _ arrived]
  rfl

end Rfrp
