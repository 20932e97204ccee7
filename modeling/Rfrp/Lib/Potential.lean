import Mathlib.Algebra.BigOperators.Group.List.Basic
import Mathlib.Algebra.GroupWithZero.Nat
import Rfrp.Lib.Slots
import Rfrp.Lib.Transition

/-!
# Potentials

A number read off the state that pays for the steps: each step costs something, and what it costs is
taken from the potential or brought along with the step. A run then costs no more than the potential
it starts with and what its steps bring. Steps that bring less than they cost must come to an end.
-/

namespace Rfrp

namespace Transition

variable {σ α : Type*} {step : σ → α → Option σ} {weight : σ → Nat} {costs brings : α → Nat}
  {s t : σ}

/-- `weight` pays for what the steps cost beyond what they bring. -/
def Pays (step : σ → α → Option σ) (weight : σ → Nat) (costs brings : α → Nat) : Prop :=
  ∀ s a t, step s a = some t → weight t + costs a ≤ weight s + brings a

theorem Pays.exec (pays : Pays step weight costs brings) (labels : List α)
    (run : exec step s labels = some t) :
    weight t + (labels.map costs).sum ≤ weight s + (labels.map brings).sum := by
  induction labels generalizing s with
  | nil =>
      cases run
      exact Nat.le_refl _
  | cons a labels ih =>
      obtain ⟨u, move, rest⟩ := Option.bind_eq_some_iff.mp run
      have first := pays s a u move
      have later := ih rest
      rw [List.map_cons, List.map_cons, List.sum_cons, List.sum_cons]
      omega

/-! ## Coming to rest -/

/-- Where every admitted step takes something away, a run has at most so many steps. -/
theorem length_le_of_descends {ok : σ → α → Prop} [∀ s a, Decidable (ok s a)]
    (descends : ∀ s a t, ok s a → step s a = some t → weight t < weight s) (labels : List α)
    (run : exec (guarded step ok) s labels = some t) : labels.length + weight t ≤ weight s := by
  induction labels generalizing s with
  | nil =>
      cases run
      exact Nat.le_of_eq (Nat.zero_add _)
  | cons a labels ih =>
      obtain ⟨u, move, rest⟩ := Option.bind_eq_some_iff.mp run
      obtain ⟨admitted, move⟩ := Option.ite_none_right_eq_some.mp move
      have first := descends s a u admitted move
      have later := ih rest
      rw [List.length_cons]
      omega

/-- And admitted steps lead to a state where none of them can be taken. -/
theorem rests_of_descends {ok : σ → α → Prop}
    (descends : ∀ s a t, ok s a → step s a = some t → weight t < weight s) (s : σ) :
    ∃ t, Run step ok s t ∧ ∀ a, ok t a → step t a = none := by
  have left : ∀ (n : Nat) (s : σ), weight s = n →
      ∃ t, Run step ok s t ∧ ∀ a, ok t a → step t a = none := by
    intro n
    induction n using Nat.strongRecOn with
    | ind n ih =>
        intro s here
        by_cases stuck : ∀ a, ok s a → step s a = none
        · exact ⟨s, Run.refl s, stuck⟩
        · simp only [not_forall] at stuck
          obtain ⟨a, admitted, moves⟩ := stuck
          obtain ⟨u, move⟩ := Option.ne_none_iff_exists'.mp moves
          have less := descends s a u admitted move
          obtain ⟨t, run, rest⟩ := ih (weight u) (by omega) u rfl
          exact ⟨t, ((Run.refl s).tail admitted move).trans run, rest⟩
  exact left (weight s) s rfl

theorem Pays.descends (pays : Pays step weight costs brings) {ok : α → Prop}
    (works : ∀ a, ok a → brings a < costs a) :
    ∀ s a t, ok a → step s a = some t → weight t < weight s := by
  intro s a t admitted move
  have paid := pays s a t move
  have less := works a admitted
  omega

end Transition

namespace Slots

variable {α : Type*} {xs : List α} {a b : α} {n : Nat}

theorem sum_map_set (weight : α → Nat) (h : xs[n]? = some a) :
    ((xs.set n b).map weight).sum + weight a = (xs.map weight).sum + weight b := by
  induction xs generalizing n with
  | nil => simp at h
  | cons x xs ih =>
      cases n with
      | zero =>
          cases h
          simp only [List.set_cons_zero, List.map_cons, List.sum_cons]
          omega
      | succ n =>
          have later := ih (n := n) h
          simp only [List.set_cons_succ, List.map_cons, List.sum_cons]
          omega

end Slots

end Rfrp
