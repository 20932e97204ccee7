import Mathlib.Data.List.Basic

/-!
# Streaming coders

A coder is fed the rest of its input again and again and writes what it can into a chunk that is
reused. `pump` is the loop around it: it collects the chunks until the coder reports the end of the
stream, and gives up when a call fails, when nothing moves, or when too much was collected.
-/

namespace Rfrp

inductive Status
  | ok
  | bufError
  | streamEnd
deriving DecidableEq, Repr

/-- `call` works on the front of its input and overwrites the front of the chunk. -/
structure Coder (Z : Type) where
  reset : Z → Z
  call : Z → List UInt8 → List UInt8 → Z × Option (List UInt8 × Status)
  totalIn : Z → Nat
  totalOut : Z → Nat

inductive Pumped
  | finished
  | failed
  | stalled
  | overflow
  | outOfFuel
deriving DecidableEq, Repr

namespace Coder

variable {Z : Type}

def pump (c : Coder Z) (limit : Option Nat) :
    Nat → Z → List UInt8 → List UInt8 → List UInt8 → Z × List UInt8 × Pumped
  | 0, z, _, _, dst => (z, dst, .outOfFuel)
  | fuel + 1, z, input, chunk, dst =>
      match c.call z input chunk with
      | (z', none) => (z', dst, .failed)
      | (z', some (chunk, status)) =>
          let consumed := c.totalIn z' - c.totalIn z
          let written := c.totalOut z' - c.totalOut z
          let dst := dst ++ chunk.take written
          if limit.any fun l => l < dst.length then (z', dst, .overflow)
          else if status = .streamEnd then (z', dst, .finished)
          else if consumed = 0 ∧ written = 0 then (z', dst, .stalled)
          else pump c limit fuel z' (input.drop consumed) chunk dst

/-- What one call does on the way from `rest` to `todo`: it takes `k` bytes and gives `out`. -/
structure Call (c : Coder Z) (z : Z) (rest chunk : List UInt8) (z' : Z) (k : Nat)
    (out : List UInt8) (status : Status) : Prop where
  result : c.call z rest chunk = (z', some (out ++ chunk.drop out.length, status))
  taken : k ≤ rest.length
  fits : out.length ≤ chunk.length
  totalIn : c.totalIn z' = c.totalIn z + k
  totalOut : c.totalOut z' = c.totalOut z + out.length

/-- The streaming contract with chunks of `room` bytes. `within z rest todo` says that the coder,
fed `rest` from now on, gives `todo` and ends. -/
structure Codes (c : Coder Z) (room : Nat) (turns : List UInt8 → List UInt8 → Prop)
    (within : Z → List UInt8 → List UInt8 → Prop) : Prop where
  reset : ∀ z input output, turns input output →
    ∃ output, turns input output ∧ within (c.reset z) input output
  call : ∀ z rest todo chunk, within z rest todo → chunk.length = room →
    ∃ z' k out status, c.Call z rest chunk z' k out status ∧
      ((status = .streamEnd ∧ out = todo) ∨
        (status ≠ .streamEnd ∧ (0 < k ∨ out ≠ []) ∧
          ∃ later, todo = out ++ later ∧ within z' (rest.drop k) later))

section
variable {c : Coder Z} {room fuel k : Nat} {turns : List UInt8 → List UInt8 → Prop}
  {within : Z → List UInt8 → List UInt8 → Prop} {limit : Option Nat} {z z' : Z}
  {rest todo chunk dst out : List UInt8} {status : Status}

theorem Call.chunk_length (call : c.Call z rest chunk z' k out status) :
    (out ++ chunk.drop out.length).length = chunk.length := by
  have fits := call.fits
  simp
  omega

theorem pump_succ (limit : Option Nat) (fuel : Nat) (dst : List UInt8)
    (call : c.Call z rest chunk z' k out status) :
    c.pump limit (fuel + 1) z rest chunk dst =
      if limit.any fun l => l < (dst ++ out).length then (z', dst ++ out, .overflow)
      else if status = .streamEnd then (z', dst ++ out, .finished)
      else if k = 0 ∧ out = [] then (z', dst ++ out, .stalled)
      else c.pump limit fuel z' (rest.drop k) (out ++ chunk.drop out.length) (dst ++ out) := by
  have consumed : c.totalIn z' - c.totalIn z = k := by rw [call.totalIn, Nat.add_sub_cancel_left]
  have written : c.totalOut z' - c.totalOut z = out.length := by
    rw [call.totalOut, Nat.add_sub_cancel_left]
  simp only [pump, call.result, consumed, written, List.take_left, List.length_eq_zero_iff]

theorem pump_more {fuel' : Nat} (ends : (c.pump limit fuel z rest chunk dst).2.2 ≠ .outOfFuel)
    (more : fuel ≤ fuel') :
    c.pump limit fuel' z rest chunk dst = c.pump limit fuel z rest chunk dst := by
  induction fuel generalizing fuel' z rest chunk dst with
  | zero => exact absurd rfl ends
  | succ fuel ih =>
      obtain ⟨fuel', rfl⟩ : ∃ n, fuel' = n + 1 := ⟨fuel' - 1, by omega⟩
      unfold Coder.pump at ends ⊢
      split
      · rfl
      · rename_i called
        rw [called] at ends
        dsimp only at ends ⊢
        split
        · rfl
        · rename_i small
          rw [if_neg small] at ends
          split
          · rfl
          · rename_i goes
            rw [if_neg goes] at ends
            split
            · rfl
            · rename_i moves
              rw [if_neg moves] at ends
              exact ih ends (by omega)

theorem within_limit {n : Nat} (small : ∀ l, limit = some l → n ≤ l) :
    ¬ (limit.any fun l => l < n) = true := by
  cases limit with
  | none => simp
  | some l =>
      have bound := small l rfl
      simpa using bound

theorem Codes.pump (codes : c.Codes room turns within) (limit : Option Nat) (dst : List UInt8)
    (inside : within z rest todo)
    (chunk_length : chunk.length = room) (enough : rest.length + todo.length < fuel) :
    ((∀ l, limit = some l → (dst ++ todo).length ≤ l) →
      ∃ z', c.pump limit fuel z rest chunk dst = (z', dst ++ todo, .finished)) ∧
    (∀ l, limit = some l → l < (dst ++ todo).length →
      ∃ z' dst', c.pump limit fuel z rest chunk dst = (z', dst', .overflow)) := by
  induction fuel generalizing z rest todo chunk dst with
  | zero => omega
  | succ fuel ih =>
      obtain ⟨z', k, out, status, call, outcome⟩ := codes.call z rest todo chunk inside chunk_length
      have next := pump_succ limit fuel dst call
      rcases outcome with ⟨rfl, rfl⟩ | ⟨goes, progress, later, rfl, inside'⟩
      · constructor
        · intro small
          refine ⟨z', ?_⟩
          rw [next, if_neg (within_limit small), if_pos rfl]
        · rintro l rfl large
          refine ⟨z', dst ++ out, ?_⟩
          rw [next, if_pos (by simpa using large)]
      · have taken := call.taken
        have less : (rest.drop k).length + later.length < fuel := by
          have moved : 0 < k ∨ 0 < out.length := progress.imp_right List.length_pos_iff.mpr
          simp only [List.length_append] at enough
          simp only [List.length_drop]
          omega
        obtain ⟨finishes, overflows⟩ :=
          ih (dst ++ out) inside' (call.chunk_length.trans chunk_length) less
        have moves : ¬ (k = 0 ∧ out = []) := by
          rintro ⟨rfl, rfl⟩
          simp at progress
        rw [List.append_assoc] at finishes overflows
        constructor
        · intro small
          have smaller : ∀ l, limit = some l → (dst ++ out).length ≤ l := by
            intro l eq
            have bound := small l eq
            simp only [List.length_append] at bound ⊢
            omega
          rw [next, if_neg (within_limit smaller), if_neg goes, if_neg moves]
          exact finishes small
        · rintro l rfl large
          by_cases now : l < (dst ++ out).length
          · refine ⟨z', dst ++ out, ?_⟩
            rw [next, if_pos (by simpa using now)]
          · rw [next, if_neg (by simpa using now), if_neg goes, if_neg moves]
            exact overflows l rfl large

end

/-! ## Coders that fail -/

def taken (c : Coder Z) (z z' : Z) : Nat := c.totalIn z' - c.totalIn z

def given (c : Coder Z) (z z' : Z) : Nat := c.totalOut z' - c.totalOut z

/-- A call takes at most its input and writes at most its chunk. -/
structure Bounded (c : Coder Z) (room : Nat) : Prop where
  call : ∀ z rest chunk z' chunk' status, chunk.length = room →
    c.call z rest chunk = (z', some (chunk', status)) →
    chunk'.length = room ∧ c.totalIn z ≤ c.totalIn z' ∧ c.totalOut z ≤ c.totalOut z' ∧
      c.taken z z' ≤ rest.length ∧ c.given z z' ≤ room

/-- What a decoder makes of any input: `meaning input` is the whole output of the stream at the
start of `input`, if there is one, and `ahead z rest` what state `z` still gives for `rest`. -/
structure Decodes (c : Coder Z) (room : Nat) (meaning : List UInt8 → Option (List UInt8))
    (ahead : Z → List UInt8 → Option (List UInt8)) : Prop where
  reset : ∀ z input, ahead (c.reset z) input = meaning input
  fails : ∀ z rest chunk z', chunk.length = room → c.call z rest chunk = (z', none) →
    ahead z rest = none
  ends : ∀ z rest chunk z' chunk', chunk.length = room →
    c.call z rest chunk = (z', some (chunk', .streamEnd)) →
    ahead z rest = some (chunk'.take (c.given z z'))
  goes : ∀ z rest chunk z' chunk' status, chunk.length = room → status ≠ .streamEnd →
    c.call z rest chunk = (z', some (chunk', status)) →
    ahead z rest =
      (ahead z' (rest.drop (c.taken z z'))).map fun later => chunk'.take (c.given z z') ++ later
  moves : ∀ z rest chunk z' chunk' status, chunk.length = room → status ≠ .streamEnd →
    c.call z rest chunk = (z', some (chunk', status)) → (ahead z rest).isSome →
    0 < c.taken z z' ∨ 0 < c.given z z'

section
variable {c : Coder Z} {room limit fuel : Nat} {z z' : Z}
  {rest todo chunk chunk' dst out : List UInt8} {status : Status}
  {meaning : List UInt8 → Option (List UInt8)}
  {ahead : Z → List UInt8 → Option (List UInt8)}

theorem pump_call (result : c.call z rest chunk = (z', some (chunk', status))) :
    c.pump (some limit) (fuel + 1) z rest chunk dst =
      if limit < (dst ++ chunk'.take (c.given z z')).length then
        (z', dst ++ chunk'.take (c.given z z'), .overflow)
      else if status = .streamEnd then (z', dst ++ chunk'.take (c.given z z'), .finished)
      else if c.taken z z' = 0 ∧ c.given z z' = 0 then
        (z', dst ++ chunk'.take (c.given z z'), .stalled)
      else c.pump (some limit) fuel z' (rest.drop (c.taken z z')) chunk'
        (dst ++ chunk'.take (c.given z z')) := by
  simp only [pump, result, Option.any_some, decide_eq_true_eq]
  rfl

theorem Bounded.pump (bounded : c.Bounded room) (chunk_length : chunk.length = room)
    (small : dst.length ≤ limit) (enough : rest.length + (limit - dst.length) < fuel) :
    ∃ z' dst' ending, c.pump (some limit) fuel z rest chunk dst = (z', dst', ending) ∧
      ending ≠ .outOfFuel ∧ dst'.length ≤ limit + room := by
  induction fuel generalizing z rest chunk dst with
  | zero => omega
  | succ fuel ih =>
      cases result : c.call z rest chunk with
      | mk z' answer =>
          cases answer with
          | none =>
              refine ⟨z', dst, .failed, ?_, by simp, Nat.le_add_right_of_le small⟩
              simp only [Coder.pump, result]
          | some answer =>
              obtain ⟨chunk', status⟩ := answer
              obtain ⟨length, -, -, taken, given⟩ := bounded.call _ _ _ _ _ _ chunk_length result
              have grown : (dst ++ chunk'.take (c.given z z')).length =
                  dst.length + c.given z z' := by
                rw [List.length_append, List.length_take, length, Nat.min_eq_left given]
              have within : (dst ++ chunk'.take (c.given z z')).length ≤ limit + room := by omega
              rw [pump_call result]
              by_cases large : limit < (dst ++ chunk'.take (c.given z z')).length
              · exact ⟨_, _, _, if_pos large, by simp, within⟩
              rw [if_neg large]
              by_cases last : status = .streamEnd
              · exact ⟨_, _, _, if_pos last, by simp, within⟩
              rw [if_neg last]
              by_cases still : c.taken z z' = 0 ∧ c.given z z' = 0
              · exact ⟨_, _, _, if_pos still, by simp, within⟩
              rw [if_neg still]
              -- what was taken and what was given both count towards the fuel
              apply ih length (Nat.le_of_not_lt large)
              rw [grown] at large ⊢
              rw [List.length_drop]
              omega

theorem Decodes.sound (decodes : c.Decodes room meaning ahead) (bounded : c.Bounded room)
    (chunk_length : chunk.length = room)
    (ends : c.pump (some limit) fuel z rest chunk dst = (z', out, .finished)) :
    ∃ todo, ahead z rest = some todo ∧ out = dst ++ todo ∧ out.length ≤ limit := by
  induction fuel generalizing z rest chunk dst with
  | zero => cases ends
  | succ fuel ih =>
      cases result : c.call z rest chunk with
      | mk u answer =>
          cases answer with
          | none =>
              simp only [Coder.pump, result] at ends
              cases ends
          | some answer =>
              obtain ⟨chunk', status⟩ := answer
              have length := (bounded.call _ _ _ _ _ _ chunk_length result).1
              rw [pump_call result] at ends
              by_cases large : limit < (dst ++ chunk'.take (c.given z u)).length
              · rw [if_pos large] at ends
                cases ends
              rw [if_neg large] at ends
              by_cases last : status = .streamEnd
              · subst last
                rw [if_pos rfl] at ends
                cases ends
                exact ⟨_, decodes.ends _ _ _ _ _ chunk_length result, rfl, Nat.le_of_not_lt large⟩
              rw [if_neg last] at ends
              by_cases still : c.taken z u = 0 ∧ c.given z u = 0
              · rw [if_pos still] at ends
                cases ends
              rw [if_neg still] at ends
              obtain ⟨later, complete, rfl, fits⟩ := ih length ends
              refine ⟨chunk'.take (c.given z u) ++ later, ?_, List.append_assoc _ _ _, fits⟩
              rw [decodes.goes _ _ _ _ _ _ chunk_length last result, complete, Option.map_some]

theorem Decodes.complete (decodes : c.Decodes room meaning ahead) (bounded : c.Bounded room)
    (chunk_length : chunk.length = room) (inside : ahead z rest = some todo)
    (fits : (dst ++ todo).length ≤ limit) (enough : rest.length + (limit - dst.length) < fuel) :
    ∃ z', c.pump (some limit) fuel z rest chunk dst = (z', dst ++ todo, .finished) := by
  induction fuel generalizing z rest chunk dst todo with
  | zero => omega
  | succ fuel ih =>
      cases result : c.call z rest chunk with
      | mk u answer =>
          cases answer with
          | none =>
              rw [decodes.fails _ _ _ _ chunk_length result] at inside
              cases inside
          | some answer =>
              obtain ⟨chunk', status⟩ := answer
              obtain ⟨length, -, -, taken, given⟩ := bounded.call _ _ _ _ _ _ chunk_length result
              have piece : (chunk'.take (c.given z u)).length = c.given z u := by
                rw [List.length_take, length, Nat.min_eq_left given]
              rw [pump_call result]
              by_cases last : status = .streamEnd
              · subst last
                rw [decodes.ends _ _ _ _ _ chunk_length result] at inside
                cases inside
                exact ⟨u, by rw [if_neg (Nat.not_lt_of_le fits), if_pos rfl]⟩
              have moves := decodes.moves _ _ _ _ _ _ chunk_length last result (by simp [inside])
              rw [decodes.goes _ _ _ _ _ _ chunk_length last result] at inside
              obtain ⟨later, complete, rfl⟩ := Option.map_eq_some_iff.mp inside
              simp only [List.length_append, piece] at fits enough
              have small : ¬ limit < (dst ++ chunk'.take (c.given z u)).length := by
                rw [List.length_append, piece]
                omega
              have still : ¬ (c.taken z u = 0 ∧ c.given z u = 0) := by omega
              rw [if_neg small, if_neg last, if_neg still, ← List.append_assoc]
              apply ih length complete
              · simp only [List.length_append, piece]
                omega
              · simp only [List.length_append, List.length_drop, piece]
                omega

end

/-! ## A coder that reads everything at once -/

structure OneShot where
  pending : Option (List UInt8)
  totalIn : Nat
  totalOut : Nat

def oneShot (f : List UInt8 → Option (List UInt8)) : Coder OneShot where
  reset _ := ⟨none, 0, 0⟩
  call z input chunk :=
    match z.pending.orElse fun _ => f input with
    | none => (z, none)
    | some out =>
        let k := if z.pending.isNone then input.length else 0
        let piece := out.take chunk.length
        (⟨some (out.drop chunk.length), z.totalIn + k, z.totalOut + piece.length⟩,
          some (piece ++ chunk.drop piece.length,
            if out.drop chunk.length = [] then .streamEnd else .ok))
  totalIn := OneShot.totalIn
  totalOut := OneShot.totalOut

def OneShot.Within (f : List UInt8 → Option (List UInt8)) (z : OneShot) (rest todo : List UInt8) :
    Prop :=
  (z.pending = none ∧ f rest = some todo) ∨ (z.pending = some todo ∧ todo ≠ [] ∧ rest = [])

theorem oneShot_codes {f : List UInt8 → Option (List UInt8)} {room : Nat} (positive : 0 < room)
    {turns : List UInt8 → List UInt8 → Prop}
    (total : ∀ input output, turns input output → ∃ output, turns input output ∧ f input = some output) :
    (oneShot f).Codes room turns (OneShot.Within f) where
  reset z input output valid := by
    obtain ⟨output, turned, result⟩ := total input output valid
    exact ⟨output, turned, Or.inl ⟨rfl, result⟩⟩
  call z rest todo chunk inside chunk_length := by
    have out : (z.pending.orElse fun _ => f rest) = some todo := by
      rcases inside with ⟨pending, result⟩ | ⟨pending, -⟩
      · rw [pending, Option.orElse_none, result]
      · rw [pending, Option.orElse_some]
    have all : (if z.pending.isNone then rest.length else 0) = rest.length := by
      rcases inside with ⟨pending, -⟩ | ⟨-, -, rfl⟩
      · rw [pending]
        rfl
      · split <;> rfl
    refine ⟨⟨some (todo.drop chunk.length), z.totalIn + rest.length,
        z.totalOut + (todo.take chunk.length).length⟩, rest.length, todo.take chunk.length,
      if todo.drop chunk.length = [] then .streamEnd else .ok,
      ⟨?_, Nat.le_refl _, ?_, rfl, rfl⟩, ?_⟩
    · simp only [oneShot, out, all]
    · exact List.length_take_le _ _
    · by_cases last : todo.drop chunk.length = []
      · left
        have bound := List.drop_eq_nil_iff.mp last
        exact ⟨if_pos last, List.take_of_length_le bound⟩
      · right
        refine ⟨by simp [last], ?_, todo.drop chunk.length, (List.take_append_drop _ _).symm, ?_⟩
        · right
          have some : todo ≠ [] := by
            rintro rfl
            simp at last
          simp only [ne_eq, List.take_eq_nil_iff, some, or_false]
          omega
        · right
          exact ⟨rfl, last, by simp⟩

def OneShot.ahead (f : List UInt8 → Option (List UInt8)) (z : OneShot) (rest : List UInt8) :
    Option (List UInt8) :=
  z.pending.orElse fun _ => f rest

section
variable {f : List UInt8 → Option (List UInt8)} {z z' : OneShot} {rest chunk chunk' : List UInt8}
  {status : Status}

theorem oneShot_call (result : (oneShot f).call z rest chunk = (z', some (chunk', status))) :
    ∃ todo k, z.ahead f rest = some todo ∧ k ≤ rest.length ∧
      z' = ⟨some (todo.drop chunk.length), z.totalIn + k,
        z.totalOut + (todo.take chunk.length).length⟩ ∧
      chunk' = todo.take chunk.length ++ chunk.drop (todo.take chunk.length).length ∧
      status = if todo.drop chunk.length = [] then .streamEnd else .ok := by
  simp only [oneShot] at result
  split at result
  · cases result
  · rename_i todo ahead
    cases result
    refine ⟨todo, _, ahead, ?_, rfl, rfl, rfl⟩
    split
    · exact Nat.le_refl _
    · exact Nat.zero_le _

theorem oneShot_bounded (f : List UInt8 → Option (List UInt8)) (room : Nat) :
    (oneShot f).Bounded room where
  call := by
    intro z rest chunk z' chunk' status length result
    obtain ⟨todo, k, -, taken, rfl, rfl, -⟩ := oneShot_call result
    have piece : (todo.take chunk.length).length ≤ chunk.length := List.length_take_le _ _
    refine ⟨?_, Nat.le_add_right _ _, Nat.le_add_right _ _, ?_, ?_⟩
    · rw [List.length_append, List.length_drop]
      omega
    · simp only [Coder.taken, oneShot]
      omega
    · simp only [Coder.given, oneShot]
      omega

theorem oneShot_decodes (f : List UInt8 → Option (List UInt8)) {room : Nat} (positive : 0 < room) :
    (oneShot f).Decodes room f (OneShot.ahead f) where
  reset := fun _ _ => rfl
  fails := by
    intro z rest chunk z' _ result
    simp only [oneShot] at result
    split at result
    · rename_i none
      exact none
    · cases result
  ends := by
    intro z rest chunk z' chunk' _ result
    obtain ⟨todo, k, ahead, -, rfl, rfl, status⟩ := oneShot_call result
    have last : todo.drop chunk.length = [] := by
      by_contra more
      rw [if_neg more] at status
      cases status
    have all := List.take_of_length_le (List.drop_eq_nil_iff.mp last)
    rw [ahead]
    simp [Coder.given, oneShot, all]
  goes := by
    intro z rest chunk z' chunk' status _ _ result
    obtain ⟨todo, k, ahead, -, rfl, rfl, -⟩ := oneShot_call result
    rw [ahead]
    simp [Coder.given, oneShot, OneShot.ahead]
  moves := by
    intro z rest chunk z' chunk' status length goes result _
    obtain ⟨todo, k, -, -, rfl, -, rfl⟩ := oneShot_call result
    have more : todo.drop chunk.length ≠ [] := fun last => goes (if_pos last)
    have long : chunk.length < todo.length := by simpa using more
    right
    simp only [Coder.given, oneShot, List.length_take]
    omega

end

end Coder

end Rfrp
