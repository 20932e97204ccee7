/-!
# Concurrent maps

A `DashMap` seen through its linearizable operations: lookup is application, and each insertion or
removal is one step.
-/

namespace Rfrp

abbrev DashMap (κ ν : Type) := κ → Option ν

namespace DashMap

variable {κ ν : Type} {m : DashMap κ ν} {k k' : κ} {v v' : ν}

def empty : DashMap κ ν := fun _ => none

@[simp] theorem empty_apply : (empty : DashMap κ ν) k = none := rfl

variable [DecidableEq κ]

def insert (m : DashMap κ ν) (k : κ) (v : ν) : DashMap κ ν :=
  fun x => if x = k then some v else m x

def remove (m : DashMap κ ν) (k : κ) : DashMap κ ν := fun x => if x = k then none else m x

@[simp] theorem insert_self : m.insert k v k = some v := if_pos rfl
@[simp] theorem remove_self : m.remove k k = none := if_pos rfl
theorem insert_ne (h : k' ≠ k) : m.insert k v k' = m k' := if_neg h
theorem remove_ne (h : k' ≠ k) : m.remove k k' = m k' := if_neg h

theorem insert_eq_some (h : m.insert k v k' = some v') :
    (k' = k ∧ v' = v) ∨ (k' ≠ k ∧ m k' = some v') := by
  unfold insert at h
  split at h
  · rename_i same
    exact Or.inl ⟨same, (Option.some.inj h).symm⟩
  · rename_i other
    exact Or.inr ⟨other, h⟩

theorem insert_isSome (h : (m k').isSome) : (m.insert k v k').isSome := by
  by_cases same : k' = k
  · simp [same]
  · rwa [insert_ne same]

theorem remove_eq_some (h : m.remove k k' = some v') : k' ≠ k ∧ m k' = some v' := by
  unfold remove at h
  split at h
  · cases h
  · rename_i other
    exact ⟨other, h⟩

end DashMap

end Rfrp
