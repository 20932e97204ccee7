import Rfrp.Lib.Block
import Mathlib.Data.List.Basic

/-!
# Authenticated encryption under one key

Decryption under a nonce inverts encryption under it and rejects everything else. Counter mode with
a tag over the ciphertext is of this kind for every keystream and every tag function.
-/

namespace Rfrp

structure Aead (n t : Nat) where
  encrypt : Block n → List UInt8 → List UInt8 × Block t
  decrypt : Block n → List UInt8 → Block t → Option (List UInt8)
  -- what an in-place decryption that fails leaves in the buffer
  rejected : Block n → List UInt8 → Block t → List UInt8 := fun _ data _ => data
  decrypt_iff : ∀ nonce data tag plain,
    decrypt nonce data tag = some plain ↔ encrypt nonce plain = (data, tag)

def mask (stream : Nat → UInt8) (data : List UInt8) : List UInt8 :=
  data.mapIdx fun i b => b ^^^ stream i

theorem mask_mask (stream : Nat → UInt8) (data : List UInt8) :
    mask stream (mask stream data) = data := by
  apply List.ext_getElem
  · simp [mask]
  · intro i h₁ h₂
    simp only [mask, List.getElem_mapIdx]
    rw [UInt8.xor_assoc, UInt8.xor_self, UInt8.xor_zero]

def Aead.counterMode {n t : Nat} (stream : Block n → Nat → UInt8)
    (tag : Block n → List UInt8 → Block t) : Aead n t where
  encrypt nonce plain := (mask (stream nonce) plain, tag nonce (mask (stream nonce) plain))
  decrypt nonce data given :=
    if tag nonce data = given then some (mask (stream nonce) data) else none
  decrypt_iff nonce data given plain := by
    rw [Option.ite_none_right_eq_some, Option.some.injEq, Prod.mk.injEq]
    constructor
    · rintro ⟨rfl, rfl⟩
      rw [mask_mask]
      exact ⟨rfl, rfl⟩
    · rintro ⟨rfl, rfl⟩
      exact ⟨rfl, mask_mask _ _⟩

end Rfrp
