import Rfrp.Proto.Nonces

/-!
# The paths through a cipher

Three routines encrypt and three decrypt, on a copy, in a `Vec` or in a `BytesMut`. They put the
nonce and the tag in the same places, so that each of the three decrypts what any of the three made.
-/

namespace Rfrp

namespace Cipher

section
variable (aesGcm : Block 32 → Aead 12 16) (c : Cipher) (buf : Bytes)

theorem encryptInPlace_eq : encryptInPlace aesGcm c buf = encryptInPlaceBytesMut aesGcm c buf := by
  simp only [encryptInPlace, encryptInPlaceBytesMut, List.append_assoc]

theorem decryptInPlace_eq : decryptInPlace aesGcm c buf = decryptInPlaceBytesMut aesGcm c buf := rfl

theorem decrypt_eq : decrypt aesGcm c buf = (decryptInPlaceBytesMut aesGcm c buf).2 := by
  unfold decrypt decryptInPlaceBytesMut
  by_cases short : buf.length < 28
  · rw [dif_pos short, dif_pos short]
  · rw [dif_neg short, dif_neg short]
    dsimp only
    split <;> rfl

theorem decrypt_short (short : buf.length < 28) : decryptInPlaceBytesMut aesGcm c buf =
    (buf, .error "Ciphertext too short: missing nonce/tag") := by
  unfold decryptInPlaceBytesMut
  rw [dif_pos short]

end

variable {aesGcm : Block 32 → Aead 12 16} {c d : Cipher} {buf plain : Bytes}

theorem buffer_of_ok (h : (decryptInPlaceBytesMut aesGcm c buf).2 = .ok plain) :
    decryptInPlaceBytesMut aesGcm c buf = (plain, .ok plain) := by
  unfold decryptInPlaceBytesMut at h ⊢
  by_cases short : buf.length < 28
  · rw [dif_pos short] at h
    cases h
  · rw [dif_neg short] at h ⊢
    dsimp only at h ⊢
    split at h
    · cases h
      rfl
    · cases h

/-- The three ways to decrypt agree, and each of them inverts the three ways to encrypt. -/
theorem paths_agree (aesGcm : Block 32 → Aead 12 16) (c d : Cipher) :
    (∀ buf, (decryptInPlace aesGcm d buf).2 = decrypt aesGcm d buf ∧
      (decryptInPlaceBytesMut aesGcm d buf).2 = decrypt aesGcm d buf) ∧
    (∀ buf plain, decrypt aesGcm d buf = .ok plain →
      (decryptInPlace aesGcm d buf).1 = plain ∧ (decryptInPlaceBytesMut aesGcm d buf).1 = plain) ∧
    (∀ buf : Bytes, buf.length < 28 →
      decrypt aesGcm d buf = .error "Ciphertext too short: missing nonce/tag" ∧
      (decryptInPlace aesGcm d buf).1 = buf ∧ (decryptInPlaceBytesMut aesGcm d buf).1 = buf) ∧
    (d.key = c.key → ∀ plain : Bytes, ∀ sealed ∈ [(encrypt aesGcm c plain).2,
        (encryptInPlace aesGcm c plain).2, (encryptInPlaceBytesMut aesGcm c plain).2],
      decrypt aesGcm d sealed = .ok plain ∧
      decryptInPlace aesGcm d sealed = (plain, .ok plain) ∧
      decryptInPlaceBytesMut aesGcm d sealed = (plain, .ok plain)) := by
  refine ⟨fun buf => ?_, fun buf plain opened => ?_, fun buf short => ?_, fun same plain sealed mem => ?_⟩
  · rw [decryptInPlace_eq, decrypt_eq]
    exact ⟨rfl, rfl⟩
  · rw [decrypt_eq] at opened
    rw [decryptInPlace_eq, buffer_of_ok opened]
    exact ⟨rfl, rfl⟩
  · rw [decryptInPlace_eq, decrypt_eq, decrypt_short aesGcm d buf short]
    exact ⟨rfl, rfl, rfl⟩
  · have made : sealed = (encryptInPlaceBytesMut aesGcm c plain).2 := by
      simpa [encrypt, encryptInPlace_eq] using mem
    subst made
    have opened := decrypt_encrypt aesGcm d plain same
    rw [decryptInPlace_eq, decrypt_eq, buffer_of_ok opened]
    exact ⟨rfl, rfl, rfl⟩

def zeroCipher : Cipher := .new (.zero 32) Ciphers.firstPrefix

theorem paths_agree_empty :
    (encrypt (fun _ => Ciphers.zeroKeyGcm) zeroCipher []).2 = [0, 0, 0, 0, 0, 0, 0, 0, 0, 0, 0, 0,
      83, 15, 138, 251, 199, 69, 54, 185, 169, 99, 180, 241, 196, 203, 115, 139] ∧
    decryptInPlace (fun _ => Ciphers.zeroKeyGcm) zeroCipher
      (encrypt (fun _ => Ciphers.zeroKeyGcm) zeroCipher []).2 = ([], .ok []) ∧
    (decryptInPlaceBytesMut (fun _ => Ciphers.zeroKeyGcm) zeroCipher [7]).1 = [7] := by
  obtain ⟨-, -, short, inverts⟩ := paths_agree (fun _ => Ciphers.zeroKeyGcm) zeroCipher zeroCipher
  refine ⟨by decide, ?_, (short [7] (by decide)).2.2⟩
  exact (inverts rfl [] _ (by simp)).2.1

end Cipher

end Rfrp
