import Rfrp.Lib.Slots
import Rfrp.Lib.DashMap

/-!
# One arena inside another

A component that allocates in an arena shared with others sees its own objects only, and could as
well have an arena to itself. The list of the addresses of its objects, in the order of their
allocation, names them: the `n`-th object of its own stands for the address in position `n`. Two
states correspond if the objects at corresponding places do, references and all.
-/

namespace Rfrp.Naming

variable {α β : Type*}

/-- The own object `n` lives at address `n'`. -/
def Names (addrs : List Nat) (n n' : Nat) : Prop := addrs[n]? = some n'

variable {addrs : List Nat} {n m n' m' : Nat}

namespace Names

theorem mem (names : Names addrs n n') : n' ∈ addrs := List.mem_of_getElem? names

theorem of_mem (mem : n' ∈ addrs) : ∃ n, Names addrs n n' := List.mem_iff_getElem?.mp mem

theorem append (names : Names addrs n n') (a : Nat) : Names (addrs ++ [a]) n n' :=
  Slots.get_append_left names

theorem last (addrs : List Nat) (a : Nat) : Names (addrs ++ [a]) addrs.length a := by
  unfold Names
  exact List.getElem?_concat_length

theorem right_unique (names : Names addrs n n') (names' : Names addrs n m') : n' = m' :=
  Option.some.inj (names.symm.trans names')

theorem left_unique (distinct : addrs.Nodup) (names : Names addrs n n')
    (names' : Names addrs m n') : n = m := by
  apply (List.getElem?_inj (Slots.get_lt names) distinct).mp
  exact names.trans names'.symm

theorem eq_iff (distinct : addrs.Nodup) (names : Names addrs n n') (names' : Names addrs m m') :
    n = m ↔ n' = m' := by
  constructor
  · rintro rfl
    exact names.right_unique names'
  · rintro rfl
    exact names.left_unique distinct names'

end Names

/-- What is marked with the object it came from, marked with the address of that object. -/
def addressed (addrs : List Nat) (x : Nat × β) : Nat × β := (addrs.getD x.1 0, x.2)

theorem addressed_fst {x : Nat × β} (named : Names addrs x.1 n') :
    (addressed addrs x).1 = n' := by
  unfold addressed
  rw [List.getD_eq_getElem?_getD, named, Option.getD_some]

theorem filter_addressed (distinct : addrs.Nodup) {marked : List (Nat × β)}
    (known : ∀ x ∈ marked, ∃ n', Names addrs x.1 n') (named : Names addrs n n') :
    (((marked.map (addressed addrs)).filter fun x => x.1 = n').map Prod.snd) =
      (marked.filter fun x => x.1 = n).map Prod.snd := by
  have same : ∀ x ∈ marked,
      ((fun x : Nat × β => decide (x.1 = n')) ∘ addressed addrs) x = decide (x.1 = n) := by
    intro x mem
    obtain ⟨a, own⟩ := known x mem
    rw [Function.comp_apply, addressed_fst own]
    exact decide_eq_decide.mpr (Names.eq_iff distinct own named).symm
  rw [List.filter_map, List.map_map, List.filter_congr same]
  rfl

/-- The objects of `own` are those of `shared` at `addrs`. -/
structure Embeds (R : α → β → Prop) (addrs : List Nat) (own : List α) (shared : List β) : Prop where
  count : addrs.length = own.length
  distinct : addrs.Nodup
  slot : ∀ n n', Names addrs n n' → ∃ x y, own[n]? = some x ∧ shared[n']? = some y ∧ R x y

namespace Embeds

variable {R S : α → β → Prop} {own : List α} {shared shared' : List β} {x : α} {y : β}

theorem empty : Embeds R [] [] shared where
  count := rfl
  distinct := List.nodup_nil
  slot := fun n n' names => by cases names

theorem names (embeds : Embeds R addrs own shared) (here : own[n]? = some x) :
    ∃ n', Names addrs n n' := by
  have bound : n < addrs.length := embeds.count.symm ▸ Slots.get_lt here
  exact ⟨addrs[n], List.getElem?_eq_getElem bound⟩

theorem get (embeds : Embeds R addrs own shared) (named : Names addrs n n')
    (here : shared[n']? = some y) : ∃ x, own[n]? = some x ∧ R x y := by
  obtain ⟨x, y', there, found, same⟩ := embeds.slot n n' named
  rw [here] at found
  cases found
  exact ⟨x, there, same⟩

theorem get_own (embeds : Embeds R addrs own shared) (named : Names addrs n n')
    (here : own[n]? = some x) : ∃ y, shared[n']? = some y ∧ R x y := by
  obtain ⟨x', y, found, there, same⟩ := embeds.slot n n' named
  rw [here] at found
  cases found
  exact ⟨y, there, same⟩

theorem lt (embeds : Embeds R addrs own shared) (mem : n' ∈ addrs) : n' < shared.length := by
  obtain ⟨n, named⟩ := Names.of_mem mem
  obtain ⟨_, _, _, there, _⟩ := embeds.slot n n' named
  exact Slots.get_lt there

theorem mono (embeds : Embeds R addrs own shared) (weaker : ∀ x y, R x y → S x y) :
    Embeds S addrs own shared where
  count := embeds.count
  distinct := embeds.distinct
  slot := by
    intro n n' named
    obtain ⟨x, y, here, there, same⟩ := embeds.slot n n' named
    exact ⟨x, y, here, there, weaker x y same⟩

/-- What others do elsewhere in the arena. -/
theorem frame (embeds : Embeds R addrs own shared)
    (kept : ∀ n' ∈ addrs, shared'[n']? = shared[n']?) : Embeds R addrs own shared' where
  count := embeds.count
  distinct := embeds.distinct
  slot := by
    intro n n' named
    rw [kept n' named.mem]
    exact embeds.slot n n' named

theorem set (embeds : Embeds R addrs own shared) (named : Names addrs n n') (same : R x y) :
    Embeds R addrs (own.set n x) (shared.set n' y) where
  count := embeds.count.trans List.length_set.symm
  distinct := embeds.distinct
  slot := by
    intro m m' names
    obtain ⟨x', y', here, there, old⟩ := embeds.slot m m' names
    by_cases at' : m = n
    · subst at'
      obtain rfl := names.right_unique named
      exact ⟨x, y, Slots.get_set_self here, Slots.get_set_self there, same⟩
    · have other : m' ≠ n' := fun eq => at' ((Names.eq_iff embeds.distinct names named).mpr eq)
      exact ⟨x', y', (Slots.get_set_ne at').trans here, (Slots.get_set_ne other).trans there, old⟩

theorem modify (embeds : Embeds R addrs own shared) (named : Names addrs n n') {f : α → α}
    {g : β → β} (same : ∀ x y, R x y → R (f x) (g y)) :
    Embeds R addrs (own.modify n f) (shared.modify n' g) where
  count := embeds.count.trans (List.length_modify ..).symm
  distinct := embeds.distinct
  slot := by
    intro m m' names
    obtain ⟨x', y', here, there, old⟩ := embeds.slot m m' names
    rw [List.getElem?_modify, List.getElem?_modify, here, there]
    by_cases at' : n = m
    · have addr : n' = m' := (Names.eq_iff embeds.distinct named names).mp at'
      simp only [at', addr, if_true]
      exact ⟨f x', g y', rfl, rfl, same x' y' old⟩
    · have other : n' ≠ m' := fun eq => at' ((Names.eq_iff embeds.distinct named names).mpr eq)
      simp only [at', other, if_false]
      exact ⟨x', y', rfl, rfl, old⟩

theorem append (embeds : Embeds R addrs own shared) (same : R x y) :
    Embeds R (addrs ++ [shared.length]) (own ++ [x]) (shared ++ [y]) where
  count := by simp [embeds.count]
  distinct := by
    rw [List.nodup_append]
    refine ⟨embeds.distinct, List.pairwise_singleton _ _, ?_⟩
    rintro a mem b new rfl
    have bound := embeds.lt mem
    rw [List.mem_singleton.mp new] at bound
    exact Nat.lt_irrefl _ bound
  slot := by
    intro n n' named
    rcases Slots.get_append named with old | ⟨rfl, rfl⟩
    · obtain ⟨x', y', here, there, same⟩ := embeds.slot n n' old
      exact ⟨x', y', Slots.get_append_left here, Slots.get_append_left there, same⟩
    · refine ⟨x, y, ?_, List.getElem?_concat_length, same⟩
      rw [embeds.count]
      exact List.getElem?_concat_length

/-- A property of some own object, seen at its address. -/
theorem any_iff (embeds : Embeds R addrs own shared) {p : α → Bool} {q : β → Bool}
    (same : ∀ x y, R x y → p x = q y)
    (inside : ∀ n' y, shared[n']? = some y → q y = true → n' ∈ addrs) :
    own.any p = shared.any q := by
  apply Bool.eq_iff_iff.mpr
  rw [List.any_eq_true, List.any_eq_true]
  constructor
  · rintro ⟨x, mem, holds⟩
    obtain ⟨n, here⟩ := List.mem_iff_getElem?.mp mem
    obtain ⟨n', named⟩ := embeds.names here
    obtain ⟨y, there, related⟩ := embeds.get_own named here
    exact ⟨y, List.mem_of_getElem? there, same x y related ▸ holds⟩
  · rintro ⟨y, mem, holds⟩
    obtain ⟨n', there⟩ := List.mem_iff_getElem?.mp mem
    obtain ⟨n, named⟩ := Names.of_mem (inside n' y there holds)
    obtain ⟨x, here, related⟩ := embeds.get named there
    exact ⟨x, List.mem_of_getElem? here, (same x y related).symm ▸ holds⟩

end Embeds

/-! ## Maps of references -/

section maps
variable {κ : Type} {f g : DashMap κ Nat} {k : κ}

/-- The same entries, up to the names of what they refer to. -/
def MapsTo (addrs : List Nat) (f g : DashMap κ Nat) : Prop :=
  ∀ k, Option.Rel (Names addrs) (f k) (g k)

namespace MapsTo

theorem empty : MapsTo addrs (DashMap.empty : DashMap κ Nat) DashMap.empty := fun _ => .none

theorem append (maps : MapsTo addrs f g) (a : Nat) : MapsTo (addrs ++ [a]) f g := by
  intro k
  have rel := maps k
  revert rel
  generalize f k = x, g k = y
  intro rel
  cases rel with
  | none => exact .none
  | some named => exact .some (named.append a)

theorem eq_none (maps : MapsTo addrs f g) (absent : g k = none) : f k = none := by
  have rel := maps k
  rw [absent] at rel
  cases at' : f k with
  | none => rfl
  | some n =>
      rw [at'] at rel
      cases rel

theorem eq_some (maps : MapsTo addrs f g) (entry : g k = some n') :
    ∃ n, f k = some n ∧ Names addrs n n' := by
  have rel := maps k
  rw [entry] at rel
  cases at' : f k with
  | none =>
      rw [at'] at rel
      cases rel
  | some n =>
      rw [at'] at rel
      cases rel with
      | some named => exact ⟨n, rfl, named⟩

variable [DecidableEq κ]

theorem insert (maps : MapsTo addrs f g) (named : Names addrs n n') :
    MapsTo addrs (f.insert k n) (g.insert k n') := by
  intro k'
  unfold DashMap.insert
  by_cases same : k' = k
  · rw [if_pos same, if_pos same]
    exact .some named
  · rw [if_neg same, if_neg same]
    exact maps k'

theorem remove (maps : MapsTo addrs f g) : MapsTo addrs (f.remove k) (g.remove k) := by
  intro k'
  unfold DashMap.remove
  by_cases same : k' = k
  · rw [if_pos same, if_pos same]
    exact .none
  · rw [if_neg same, if_neg same]
    exact maps k'

end MapsTo

end maps

end Rfrp.Naming
