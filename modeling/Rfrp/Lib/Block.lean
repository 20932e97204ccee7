import Mathlib.Algebra.Group.Nat.Defs
import Mathlib.Data.List.Basic

/-!
# Blocks of bytes

Byte strings of a fixed length, and the big-endian encoding of a number into one. What a
concatenation of blocks says about its parts is read off the lengths.
-/

namespace Rfrp

structure Block (n : Nat) where
  bytes : List UInt8
  length_eq : bytes.length = n
deriving DecidableEq

namespace Block

variable {m n : Nat} {a b : Block n} {xs ys : List UInt8}

theorem ext (h : a.bytes = b.bytes) : a = b := by
  cases a
  cases b
  simpa using h

def replicate (n : Nat) (b : UInt8) : Block n := ⟨List.replicate n b, List.length_replicate⟩

def zero (n : Nat) : Block n := replicate n 0

/-- `copy_from_slice(&bs[i..i + n])`. -/
def ofSlice (bs : List UInt8) (i n : Nat) (bound : i + n ≤ bs.length) : Block n :=
  ⟨(bs.drop i).take n, by simp; omega⟩

theorem ofSlice_append (xs ys : List UInt8) {i : Nat} (a : Block n) (here : xs.length = i)
    (bound : i + n ≤ (xs ++ (a.bytes ++ ys)).length) :
    ofSlice (xs ++ (a.bytes ++ ys)) i n bound = a := by
  subst here
  apply ext
  show ((xs ++ (a.bytes ++ ys)).drop xs.length).take n = a.bytes
  rw [List.drop_left, List.take_left' a.length_eq]

theorem append_slices {i : Nat} (whole : i + m + n = xs.length) :
    xs.take i ++ ((ofSlice xs i m (by omega)).bytes ++
      (ofSlice xs (i + m) n (by omega)).bytes) = xs := by
  have last : (xs.drop (i + m)).take n = (xs.drop i).drop m := by
    rw [List.drop_drop]
    apply List.take_of_length_le
    simp
    omega
  show xs.take i ++ ((xs.drop i).take m ++ (xs.drop (i + m)).take n) = xs
  rw [last, List.take_append_drop, List.take_append_drop]

theorem append_inj (h : xs ++ a.bytes = ys ++ b.bytes) : xs = ys ∧ a = b := by
  obtain ⟨front, back⟩ := List.append_inj' h (a.length_eq.trans b.length_eq.symm)
  exact ⟨front, ext back⟩

theorem front_inj (h : a.bytes ++ xs = b.bytes ++ ys) : a = b ∧ xs = ys := by
  obtain ⟨front, back⟩ := List.append_inj h (a.length_eq.trans b.length_eq.symm)
  exact ⟨ext front, back⟩

end Block

/-- The last `k` base-256 digits of a number, highest first. -/
def beBytes : Nat → Nat → List UInt8
  | 0, _ => []
  | k + 1, n => beBytes k (n / 256) ++ [UInt8.ofNat n]

theorem length_beBytes (k n : Nat) : (beBytes k n).length = k := by
  induction k generalizing n with
  | zero => rfl
  | succ k ih => simp [beBytes, ih]

theorem beBytes_inj {k m n : Nat} (hm : m < 256 ^ k) (hn : n < 256 ^ k)
    (h : beBytes k m = beBytes k n) : m = n := by
  induction k generalizing m n with
  | zero => omega
  | succ k ih =>
      simp only [beBytes, List.append_singleton_inj] at h
      obtain ⟨front, last⟩ := h
      have high : m / 256 = n / 256 := by
        apply ih _ _ front
        · exact Nat.div_lt_of_lt_mul (by rwa [Nat.pow_succ'] at hm)
        · exact Nat.div_lt_of_lt_mul (by rwa [Nat.pow_succ'] at hn)
      have low : m % 256 = n % 256 := by
        simpa using congrArg UInt8.toNat last
      omega

/-- `to_be_bytes`. -/
def toBeBytes (x : UInt64) : Block 8 := ⟨beBytes 8 x.toNat, length_beBytes 8 _⟩

theorem toBeBytes_inj {x y : UInt64} (h : toBeBytes x = toBeBytes y) : x = y := by
  apply UInt64.toNat_inj.mp
  exact beBytes_inj x.toNat_lt y.toNat_lt (congrArg Block.bytes h)

end Rfrp
