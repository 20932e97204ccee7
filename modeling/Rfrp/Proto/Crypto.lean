import Rfrp.Config.BaseTypes
import Rfrp.Lib.Aead

/-!
# The ciphers

`rfrp_proto/src/crypto.rs`. AES-256-GCM with empty associated data and SHA-256 are parameters; of
the former the laws of authenticated encryption are used, of the latter nothing here.
-/

namespace Rfrp

structure Cipher where
  key : Block 32
  nonceCounter : UInt64
  randomPrefix : Block 4

def asBytes (text : String) : Bytes := text.toUTF8.data.toList

def handshakeLabel : Bytes := asBytes "rfrp-handshake-v1"

/-- What `derive_session_key` feeds to the hasher. -/
def sessionKeyInput (authToken : String) (clientNonce serverNonce : Block 32) : Bytes :=
  asBytes authToken ++ handshakeLabel ++ clientNonce.bytes ++ serverNonce.bytes

def deriveSessionKey (sha256 : Bytes → Block 32) (authToken : String)
    (clientNonce serverNonce : Block 32) : Block 32 :=
  sha256 (sessionKeyInput authToken clientNonce serverNonce)

namespace Cipher

def new (key : Block 32) (randomPrefix : Block 4) : Cipher := ⟨key, 0, randomPrefix⟩

def nonce (c : Cipher) : Block 12 :=
  ⟨c.randomPrefix.bytes ++ (toBeBytes c.nonceCounter).bytes, by
    rw [List.length_append, c.randomPrefix.length_eq, Block.length_eq]⟩

def advance (c : Cipher) : Cipher := { c with nonceCounter := c.nonceCounter + 1 }

def encryptInner (aesGcm : Block 32 → Aead 12 16) (c : Cipher) (data : Bytes) :
    Cipher × Block 12 × Bytes × Block 16 :=
  (c.advance, c.nonce, (aesGcm c.key).encrypt c.nonce data)

section
variable (aesGcm : Block 32 → Aead 12 16) (c : Cipher)

def encryptInPlace (buf : Bytes) : Cipher × Bytes :=
  let (c, nonce, data, tag) := encryptInner aesGcm c buf
  (c, data ++ nonce.bytes ++ tag.bytes)

def encrypt (plaintext : Bytes) : Cipher × Bytes := encryptInPlace aesGcm c plaintext

def encryptInPlaceBytesMut (buf : Bytes) : Cipher × Bytes :=
  let (c, nonce, data, tag) := encryptInner aesGcm c buf
  (c, data ++ (nonce.bytes ++ tag.bytes))

def decrypt (ciphertext : Bytes) : Except String Bytes :=
  if short : ciphertext.length < 28 then .error "Ciphertext too short: missing nonce/tag"
  else
    let split := ciphertext.length - 28
    let nonce := Block.ofSlice ciphertext split 12 (by omega)
    let tag := Block.ofSlice ciphertext (split + 12) 16 (by omega)
    match (aesGcm c.key).decrypt nonce (ciphertext.take split) tag with
    | some plaintext => .ok plaintext
    | none => .error "Decryption failed: aead::Error"

/-- The buffer afterwards, and the result, which is a slice of it. -/
def decryptInPlace (buf : Bytes) : Bytes × Except String Bytes :=
  if short : buf.length < 28 then (buf, .error "Ciphertext too short: missing nonce/tag")
  else
    let split := buf.length - 28
    let nonce := Block.ofSlice buf split 12 (by omega)
    let tag := Block.ofSlice buf (split + 12) 16 (by omega)
    match (aesGcm c.key).decrypt nonce (buf.take split) tag with
    | some buf => (buf, .ok buf)
    | none =>
        ((aesGcm c.key).rejected nonce (buf.take split) tag,
          .error "Decryption failed: aead::Error")

def decryptInPlaceBytesMut (buf : Bytes) : Bytes × Except String Bytes :=
  if short : buf.length < 28 then (buf, .error "Ciphertext too short: missing nonce/tag")
  else
    let split := buf.length - 28
    let nonce := Block.ofSlice buf split 12 (by omega)
    let tag := Block.ofSlice buf (split + 12) 16 (by omega)
    match (aesGcm c.key).decrypt nonce (buf.take split) tag with
    | some buf => (buf, .ok buf)
    | none =>
        ((aesGcm c.key).rejected nonce (buf.take split) tag,
          .error "Decryption failed: aead::Error")

end

variable {aesGcm : Block 32 → Aead 12 16} {c d : Cipher} {buf plain : Bytes}

theorem nonce_inj (h : c.nonce = d.nonce) :
    c.randomPrefix = d.randomPrefix ∧ c.nonceCounter = d.nonceCounter := by
  obtain ⟨front, back⟩ := Block.front_inj (congrArg Block.bytes h)
  exact ⟨front, toBeBytes_inj (Block.ext back)⟩

theorem decrypt_eq_ok : (decryptInPlaceBytesMut aesGcm c buf).2 = .ok plain ↔
    ∃ (nonce : Block 12) (data : Bytes) (tag : Block 16), buf = data ++ (nonce.bytes ++ tag.bytes) ∧
      (aesGcm c.key).encrypt nonce plain = (data, tag) := by
  unfold decryptInPlaceBytesMut
  constructor
  · intro h
    split at h
    · cases h
    · dsimp only at h
      split at h
      · rename_i found
        cases h
        refine ⟨_, _, _, ?_, ((aesGcm c.key).decrypt_iff _ _ _ _).mp found⟩
        exact (Block.append_slices (by omega)).symm
      · cases h
  · rintro ⟨nonce, data, tag, rfl, sealed⟩
    have accepted := ((aesGcm c.key).decrypt_iff nonce data tag plain).mpr sealed
    have length : (data ++ (nonce.bytes ++ tag.bytes)).length = data.length + 28 := by
      simp [nonce.length_eq, tag.length_eq]
    have split : (data ++ (nonce.bytes ++ tag.bytes)).length - 28 = data.length := by omega
    have first := Block.ofSlice_append data tag.bytes nonce rfl (by omega)
    have skip : (data ++ nonce.bytes).length = data.length + 12 := by simp [nonce.length_eq]
    have last := Block.ofSlice_append _ [] tag skip (by simp [nonce.length_eq, tag.length_eq])
    simp only [List.append_nil, List.append_assoc] at last
    rw [dif_neg (by omega)]
    simp only [split, first, last, List.take_left, accepted]

variable (aesGcm d) in
theorem decrypt_encrypt (buf : Bytes) (same : d.key = c.key) :
    (decryptInPlaceBytesMut aesGcm d (encryptInPlaceBytesMut aesGcm c buf).2).2 = .ok buf :=
  decrypt_eq_ok.mpr ⟨c.nonce, _, _, rfl, by rw [same]⟩

end Cipher

end Rfrp
