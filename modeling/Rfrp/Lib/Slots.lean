import Mathlib.Data.List.Basic

/-!
# Arenas

Objects that are allocated and updated but never moved live in a list, under their position. The
lemmas say what a lookup finds after an update or an allocation.
-/

namespace Rfrp.Slots

variable {α β : Type*} {xs : List α} {a b : α} {n m : Nat}

theorem get_set (h : (xs.set n b)[m]? = some a) :
    (m = n ∧ a = b) ∨ (m ≠ n ∧ xs[m]? = some a) := by
  rw [List.getElem?_set] at h
  split at h
  · rename_i same
    split at h
    · exact Or.inl ⟨same.symm, (Option.some.inj h).symm⟩
    · cases h
  · rename_i other
    exact Or.inr ⟨fun same => other same.symm, h⟩

theorem get_set_self (h : xs[n]? = some a) : (xs.set n b)[n]? = some b := by
  obtain ⟨bound, -⟩ := List.getElem?_eq_some_iff.mp h
  simp [bound]

theorem get_set_ne (other : m ≠ n) : (xs.set n b)[m]? = xs[m]? :=
  List.getElem?_set_ne (Ne.symm other)

theorem get_modify {f : α → α} (h : (xs.modify n f)[m]? = some a) :
    (m = n ∧ ∃ b, xs[m]? = some b ∧ a = f b) ∨ (m ≠ n ∧ xs[m]? = some a) := by
  rw [List.getElem?_modify] at h
  obtain ⟨b, here, same⟩ := Option.map_eq_some_iff.mp h
  by_cases own : n = m
  · rw [if_pos own] at same
    exact Or.inl ⟨own.symm, b, here, same.symm⟩
  · rw [if_neg own] at same
    exact Or.inr ⟨Ne.symm own, here.trans (congrArg some same)⟩

theorem get_append (h : (xs ++ [b])[m]? = some a) :
    xs[m]? = some a ∨ (m = xs.length ∧ a = b) := by
  rw [List.getElem?_append] at h
  split at h
  · exact Or.inl h
  · rename_i beyond
    have bound : m - xs.length < 1 := by
      obtain ⟨bound, -⟩ := List.getElem?_eq_some_iff.mp h
      simpa using bound
    have here : m = xs.length := by omega
    subst here
    simp at h
    exact Or.inr ⟨rfl, h.symm⟩

theorem get_append_left (h : xs[m]? = some a) : (xs ++ [b])[m]? = some a := by
  obtain ⟨bound, -⟩ := List.getElem?_eq_some_iff.mp h
  rw [List.getElem?_append_left bound, h]

theorem get_append_replicate {d : Nat} : (xs ++ List.replicate d b)[m]? = some a ↔
    xs[m]? = some a ∨ (a = b ∧ xs.length ≤ m ∧ m < xs.length + d) := by
  by_cases old : m < xs.length
  · rw [List.getElem?_append_left old]
    constructor
    · exact Or.inl
    · rintro (h | ⟨-, low, -⟩)
      · exact h
      · omega
  · rw [List.getElem?_append_right (Nat.le_of_not_lt old), List.getElem?_replicate]
    have beyond : xs[m]? = none := List.getElem?_eq_none (Nat.le_of_not_lt old)
    by_cases new : m - xs.length < d
    · have bound : m < xs.length + d := by omega
      have low : xs.length ≤ m := by omega
      simp [new, bound, low, eq_comm]
    · have bound : ¬ m < xs.length + d := by omega
      simp [new, beyond, bound]

theorem get_lt (h : xs[n]? = some a) : n < xs.length :=
  (List.getElem?_eq_some_iff.mp h).1

theorem get_isPrefix {ys : List α} (pre : xs <+: ys) (h : xs[n]? = some a) : ys[n]? = some a := by
  obtain ⟨zs, rfl⟩ := pre
  rw [List.getElem?_append_left (get_lt h), h]

theorem map_set (view : α → β) (h : xs[n]? = some a) (same : view b = view a) :
    (xs.set n b).map view = xs.map view := by
  apply List.ext_getElem?
  intro m
  simp only [List.getElem?_map]
  by_cases here : m = n
  · subst here
    rw [get_set_self h, h, Option.map_some, Option.map_some, same]
  · rw [get_set_ne here]

theorem get_of_map {ys : List α} (view : α → β) (same : ys.map view = xs.map view)
    (h : ys[n]? = some b) : ∃ a, xs[n]? = some a ∧ view a = view b := by
  have column := congrArg (fun zs => zs[n]?) same
  simp only [List.getElem?_map, h, Option.map_some] at column
  cases hx : xs[n]? with
  | none => simp [hx] at column
  | some a => exact ⟨a, rfl, by simpa [hx] using column.symm⟩

theorem unique_of_nodup (p : α → Bool) (key : α → β) (keys : ((xs.filter p).map key).Nodup)
    (h : xs[n]? = some a) (h' : xs[m]? = some b) (holds : p a = true) (holds' : p b = true)
    (same : key a = key b) : n = m := by
  rw [List.Nodup, List.pairwise_map, List.pairwise_filter, List.pairwise_iff_getElem] at keys
  obtain ⟨bound, rfl⟩ := List.getElem?_eq_some_iff.mp h
  obtain ⟨bound', rfl⟩ := List.getElem?_eq_some_iff.mp h'
  rcases Nat.lt_trichotomy n m with less | eq | more
  · exact absurd same (keys n m bound bound' less holds holds')
  · exact eq
  · exact absurd same.symm (keys m n bound' bound more holds' holds)

theorem countP_set (p : α → Bool) (h : xs[n]? = some a) :
    (xs.set n b).countP p + (if p a then 1 else 0) = xs.countP p + if p b then 1 else 0 := by
  obtain ⟨bound, rfl⟩ := List.getElem?_eq_some_iff.mp h
  have old : (if p xs[n] then 1 else 0) ≤ xs.countP p := by
    split
    · rename_i holds
      exact List.countP_pos_iff.mpr ⟨_, List.getElem_mem bound, holds⟩
    · exact Nat.zero_le _
  rw [List.countP_set bound]
  omega

theorem countP_split {p q r : α → Bool}
    (split : ∀ x, (if p x then 1 else 0) = (if q x then 1 else 0) + if r x then 1 else 0) :
    xs.countP p = xs.countP q + xs.countP r := by
  induction xs with
  | nil => rfl
  | cons x xs ih =>
      have here := split x
      simp only [List.countP_cons]
      omega

theorem countP_set_le (p : α → Bool) (h : xs[n]? = some a) (kept : p b = true → p a = true) :
    (xs.set n b).countP p ≤ xs.countP p := by
  have change := countP_set (b := b) p h
  have fewer : (if p b then 1 else 0) ≤ if p a then 1 else 0 := by
    split
    · rename_i holds
      exact Nat.le_of_eq (if_pos (kept holds)).symm
    · exact Nat.zero_le _
  omega

end Rfrp.Slots
