import Rfrp.Lib.Block

/-!
# MessagePack

The formats of numbers, strings, binaries and arrays. Each begins with a tag that says how many
bytes of a big-endian number follow; small numbers may stand in the tag itself. A value is written
in the shortest of its formats.
-/

namespace Rfrp.Msgpack

def ofBeBytes (bs : List UInt8) : Nat := bs.foldl (fun n b => n * 256 + b.toNat) 0

theorem ofBeBytes_beBytes {k n : Nat} (small : n < 256 ^ k) : ofBeBytes (beBytes k n) = n := by
  induction k generalizing n with
  | zero =>
      rw [Nat.pow_zero] at small
      rw [Nat.lt_one_iff.mp small]
      rfl
  | succ k ih =>
      have high : n / 256 < 256 ^ k := Nat.div_lt_of_lt_mul (by rwa [Nat.pow_succ'] at small)
      have digits := ih high
      unfold ofBeBytes at digits ⊢
      rw [beBytes, List.foldl_append, digits, List.foldl_cons, List.foldl_nil, UInt8.toNat_ofNat']
      omega

/-- A family of formats: numbers below `bound` stand in the tag, after `base`; the others behind one
of the tags `wide`, in so many bytes. -/
structure Format where
  base : UInt8
  bound : Nat
  wide : List (UInt8 × Nat)

def putWide : List (UInt8 × Nat) → Nat → List UInt8
  | [], _ => []
  | (tag, k) :: wide, n => if n < 256 ^ k then tag :: beBytes k n else putWide wide n

def getWide : List (UInt8 × Nat) → UInt8 → List UInt8 → Option (Nat × List UInt8)
  | [], _, _ => none
  | (tag, k) :: wide, first, rest =>
      if first = tag then
        if k ≤ rest.length then some (ofBeBytes (rest.take k), rest.drop k) else none
      else getWide wide first rest

theorem getWide_putWide {wide : List (UInt8 × Nat)} (apart : (wide.map Prod.fst).Nodup) {n : Nat}
    (fits : ∃ k ∈ wide.map Prod.snd, n < 256 ^ k) (rest : List UInt8) :
    ∃ tag bytes, putWide wide n = tag :: bytes ∧ tag ∈ wide.map Prod.fst ∧
      getWide wide tag (bytes ++ rest) = some (n, rest) := by
  induction wide with
  | nil =>
      obtain ⟨k, none, -⟩ := fits
      cases none
  | cons first wide ih =>
      obtain ⟨tag, k⟩ := first
      rw [List.map_cons, List.nodup_cons] at apart
      by_cases here : n < 256 ^ k
      · refine ⟨tag, beBytes k n, if_pos here, List.mem_cons_self, ?_⟩
        have width := length_beBytes k n
        have whole : (beBytes k n ++ rest).take k = beBytes k n := List.take_left' width
        have left : (beBytes k n ++ rest).drop k = rest := List.drop_left' width
        rw [getWide, if_pos rfl, if_pos (by simp [width]), whole, left, ofBeBytes_beBytes here]
      · obtain ⟨tag', bytes, put, mem, get⟩ := ih apart.2 (by
          obtain ⟨k', mem, small⟩ := fits
          rcases List.mem_cons.mp mem with rfl | mem
          · exact absurd small here
          · exact ⟨k', mem, small⟩)
        refine ⟨tag', bytes, (if_neg here).trans put, List.mem_cons_of_mem _ mem, ?_⟩
        have other : tag' ≠ tag := by
          rintro rfl
          exact apart.1 mem
        rw [getWide, if_neg other, get]

theorem length_putWide {wide : List (UInt8 × Nat)} {most : Nat} (short : ∀ w ∈ wide, w.2 ≤ most)
    (n : Nat) : (putWide wide n).length ≤ most + 1 := by
  induction wide with
  | nil => exact Nat.zero_le _
  | cons first wide ih =>
      unfold putWide
      split
      · rw [List.length_cons, length_beBytes]
        exact Nat.succ_le_succ (short first List.mem_cons_self)
      · exact ih fun w mem => short w (List.mem_cons_of_mem _ mem)

namespace Format

def put (format : Format) (n : Nat) : List UInt8 :=
  if n < format.bound then [format.base + UInt8.ofNat n] else putWide format.wide n

def get (format : Format) : List UInt8 → Option (Nat × List UInt8)
  | [] => none
  | first :: rest =>
      if (first - format.base).toNat < format.bound then some ((first - format.base).toNat, rest)
      else getWide format.wide first rest

/-- No two formats share a tag. -/
def Apart (format : Format) : Prop :=
  format.bound ≤ 256 ∧ (format.wide.map Prod.fst).Nodup ∧
    ∀ tag ∈ format.wide.map Prod.fst, format.bound ≤ (tag - format.base).toNat

instance (format : Format) : Decidable format.Apart :=
  -- the tags one by one, not all bytes
  have : Decidable (∀ tag ∈ format.wide.map Prod.fst, format.bound ≤ (tag - format.base).toNat) :=
    List.decidableBAll _ _
  inferInstanceAs (Decidable (_ ∧ _ ∧ _))

def Fits (format : Format) (n : Nat) : Prop := ∃ k ∈ format.wide.map Prod.snd, n < 256 ^ k

theorem get_put {format : Format} (apart : format.Apart) {n : Nat} (fits : format.Fits n)
    (rest : List UInt8) : format.get (format.put n ++ rest) = some (n, rest) := by
  obtain ⟨narrow, apart, outside⟩ := apart
  by_cases small : n < format.bound
  · have back : (format.base + UInt8.ofNat n - format.base).toNat = n := by
      rw [UInt8.add_comm, UInt8.add_sub_cancel, UInt8.toNat_ofNat']
      exact Nat.mod_eq_of_lt (by omega)
    rw [put, if_pos small]
    show (if _ then _ else _) = _
    rw [back, if_pos small]
    rfl
  · obtain ⟨tag, bytes, written, mem, read⟩ := getWide_putWide apart fits rest
    rw [put, if_neg small, written]
    show (if _ then _ else _) = _
    rw [if_neg (Nat.not_lt_of_le (outside tag mem))]
    exact read

theorem length_put (format : Format) (most : Nat) (short : ∀ w ∈ format.wide, w.2 ≤ most) (n : Nat) :
    (format.put n).length ≤ most + 1 := by
  unfold put
  split
  · exact Nat.succ_le_succ (Nat.zero_le _)
  · exact length_putWide short n

end Format

def uint : Format := ⟨0x00, 128, [(0xcc, 1), (0xcd, 2), (0xce, 4), (0xcf, 8)]⟩

def str : Format := ⟨0xa0, 32, [(0xd9, 1), (0xda, 2), (0xdb, 4)]⟩

def bin : Format := ⟨0x00, 0, [(0xc4, 1), (0xc5, 2), (0xc6, 4)]⟩

def array : Format := ⟨0x90, 16, [(0xdc, 2), (0xdd, 4)]⟩

def map : Format := ⟨0x80, 16, [(0xde, 2), (0xdf, 4)]⟩

/-- The length and then the bytes. -/
def putBlob (format : Format) (bytes : List UInt8) : List UInt8 := format.put bytes.length ++ bytes

def getBlob (format : Format) (input : List UInt8) : Option (List UInt8 × List UInt8) :=
  (format.get input).bind fun (n, rest) =>
    if n ≤ rest.length then some (rest.take n, rest.drop n) else none

theorem getBlob_putBlob {format : Format} (apart : format.Apart) (bytes : List UInt8)
    (fits : format.Fits bytes.length) (rest : List UInt8) :
    getBlob format (putBlob format bytes ++ rest) = some (bytes, rest) := by
  rw [getBlob, putBlob, List.append_assoc, format.get_put apart fits, Option.bind_some]
  simp

def putBool (b : Bool) : List UInt8 := [if b then 0xc3 else 0xc2]

def getBool : List UInt8 → Option (Bool × List UInt8)
  | 0xc3 :: rest => some (true, rest)
  | 0xc2 :: rest => some (false, rest)
  | _ => none

theorem getBool_putBool (b : Bool) (rest : List UInt8) :
    getBool (putBool b ++ rest) = some (b, rest) := by
  cases b <;> rfl

end Rfrp.Msgpack
