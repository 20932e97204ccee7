import Rfrp.Proto.FrameCodec

/-!
# Bounded decompression

`decompress_into_vec` ends on every input, whatever the decompressor does within its bounds, and
with one that decodes streams it accepts exactly the complete streams of at most
`MAX_DECOMPRESSED_SIZE` bytes.
-/

namespace Rfrp

variable {Z : Type} {inflate : Coder Z} {data dst : Bytes} {z : Z} {fuel : Nat}

theorem decompress_eq_ok {z' : Z} {dst' : Bytes} :
    decompressIntoVec inflate fuel data dst z = (z', dst', some (.ok ())) ↔
      inflate.pump (some maxDecompressedSize) fuel (inflate.reset z) data
        (List.replicate chunkSize 0) [] = (z', dst', .finished) := by
  unfold decompressIntoVec clear
  constructor
  · intro ok
    split at ok <;> cases ok
    assumption
  · intro finished
    rw [finished]

variable (dst) in
theorem decompress_answers {z' : Z} {dst' : Bytes} {ending : Pumped}
    (pumped : inflate.pump (some maxDecompressedSize) fuel (inflate.reset z) data
      (List.replicate chunkSize 0) [] = (z', dst', ending)) (ends : ending ≠ .outOfFuel) :
    ∃ answer, decompressIntoVec inflate fuel data dst z = (z', dst', some answer) := by
  unfold decompressIntoVec clear
  rw [pumped]
  cases ending with
  | outOfFuel => exact absurd rfl ends
  | _ => exact ⟨_, rfl⟩

/-- Every input is answered, with at most one chunk beyond the limit in `dst`; a decompressor that
decodes streams makes the answer exact. -/
theorem decompression_correct {Z : Type} (inflate : Coder Z) (bounded : inflate.Bounded chunkSize)
    (data dst : Bytes) (z : Z) (fuel : Nat) (enough : data.length + maxDecompressedSize < fuel) :
    ∃ z' dst' answer, decompressIntoVec inflate fuel data dst z = (z', dst', some answer) ∧
      dst'.length ≤ maxDecompressedSize + chunkSize ∧
      ∀ inflates ahead, inflate.Decodes chunkSize inflates ahead →
        (∀ out, answer = .ok () ∧ dst' = out ↔
          inflates data = some out ∧ out.length ≤ maxDecompressedSize) ∧
        ((∃ e, answer = .error e) ↔
          ∀ out, inflates data = some out → maxDecompressedSize < out.length) := by
  have chunk : (List.replicate chunkSize (0 : UInt8)).length = chunkSize := List.length_replicate
  have empty : ([] : Bytes).length ≤ maxDecompressedSize := Nat.zero_le _
  obtain ⟨z', dst', ending, pumped, ends, within⟩ :=
    bounded.pump (z := inflate.reset z) chunk empty enough
  obtain ⟨answer, answered⟩ := decompress_answers dst pumped ends
  refine ⟨z', dst', answer, answered, within, fun inflates ahead decodes => ?_⟩
  have exact : ∀ out, answer = .ok () ∧ dst' = out ↔
      inflates data = some out ∧ out.length ≤ maxDecompressedSize := by
    intro out
    constructor
    · rintro ⟨rfl, rfl⟩
      obtain ⟨todo, complete, rfl, fits⟩ :=
        decodes.sound bounded chunk (decompress_eq_ok.mp answered)
      rw [decodes.reset] at complete
      exact ⟨complete, fits⟩
    · rintro ⟨complete, fits⟩
      rw [← decodes.reset z] at complete
      have small : (([] : Bytes) ++ out).length ≤ maxDecompressedSize := fits
      obtain ⟨u, finished⟩ := decodes.complete bounded chunk complete small enough
      have ok := answered.symm.trans (decompress_eq_ok.mpr finished)
      simp only [Prod.mk.injEq, Option.some.injEq] at ok
      exact ⟨ok.2.2, ok.2.1⟩
  refine ⟨exact, ?_, fun large => ?_⟩
  · rintro ⟨e, rfl⟩ out complete
    by_contra small
    cases ((exact out).mpr ⟨complete, Nat.le_of_not_lt small⟩).1
  · cases answer with
    | error e => exact ⟨e, rfl⟩
    | ok _ =>
        obtain ⟨complete, fits⟩ := (exact dst').mp ⟨rfl, rfl⟩
        exact absurd (large dst' complete) (Nat.not_lt_of_le fits)

theorem decompression_correct_ping : ∃ z' answer,
    decompressIntoVec (.oneShot pingInflate) (18 + maxDecompressedSize + 1) pingStream [1, 2]
      ⟨some [5], 6, 7⟩ = (z', pingBytes, some answer) ∧ answer = .ok () := by
  obtain ⟨z', dst', answer, answered, -, exact⟩ := decompression_correct (.oneShot pingInflate)
    (Coder.oneShot_bounded pingInflate chunkSize) pingStream [1, 2] ⟨some [5], 6, 7⟩
    (18 + maxDecompressedSize + 1) (Nat.lt_succ_self _)
  obtain ⟨ok, rfl⟩ := ((exact pingInflate _ (Coder.oneShot_decodes pingInflate (by decide))).1
    pingBytes).mpr ⟨by decide, by decide⟩
  exact ⟨z', answer, answered, ok⟩

end Rfrp
