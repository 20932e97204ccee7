import Mathlib.Logic.Relation

/-!
# Runs of a labelled transition function

A system is a step function `σ → α → Option σ`: the label says which task moves and how the
environment answers it. A run may be restricted by a guard on the state before each step and its
label.
-/

namespace Rfrp.Transition

variable {σ τ α β : Type*}

def Step (step : σ → α → Option σ) (ok : σ → α → Prop) (s t : σ) : Prop :=
  ∃ a, ok s a ∧ step s a = some t

/-- A run all of whose steps the guard admits. -/
def Run (step : σ → α → Option σ) (ok : σ → α → Prop) : σ → σ → Prop :=
  Relation.ReflTransGen (Step step ok)

abbrev Reach (step : σ → α → Option σ) : σ → σ → Prop := Run step fun _ _ => True

/-- Follow the labels of a list, if every one of them is enabled in turn. -/
def exec (step : σ → α → Option σ) (s : σ) : List α → Option σ
  | [] => some s
  | a :: as => (step s a).bind fun t => exec step t as

def guarded (step : σ → α → Option σ) (ok : σ → α → Prop) [∀ s a, Decidable (ok s a)]
    (s : σ) (a : α) : Option σ :=
  if ok s a then step s a else none

variable {step : σ → α → Option σ} {ok ok' : σ → α → Prop} {s t u : σ}

theorem Run.refl (s : σ) : Run step ok s s := Relation.ReflTransGen.refl

theorem Run.trans (h₁ : Run step ok s t) (h₂ : Run step ok t u) : Run step ok s u :=
  Relation.ReflTransGen.trans h₁ h₂

theorem Run.tail {a : α} (h : Run step ok s t) (admitted : ok t a) (move : step t a = some u) :
    Run step ok s u :=
  Relation.ReflTransGen.tail h ⟨a, admitted, move⟩

theorem Run.induct {P : σ → Prop} (run : Run step ok s t) (start : P s)
    (preserve : ∀ t a u, Run step ok s t → P t → ok t a → step t a = some u → P u) : P t := by
  induction run with
  | refl => exact start
  | tail previous last ih =>
      obtain ⟨a, admitted, move⟩ := last
      exact preserve _ a _ previous ih admitted move

theorem Run.mono (weaker : ∀ s a, ok s a → ok' s a) (run : Run step ok s t) : Run step ok' s t :=
  run.induct (Run.refl s) fun _ _ _ _ ih admitted move => ih.tail (weaker _ _ admitted) move

theorem Run.reach (run : Run step ok s t) : Reach step s t := run.mono fun _ _ _ => trivial

theorem Run.simulate {step' : τ → β → Option τ} {okT : τ → β → Prop} (f : σ → τ)
    (answer : ∀ s a t, ok s a → step s a = some t → Run step' okT (f s) (f t))
    (run : Run step ok s t) : Run step' okT (f s) (f t) := by
  induction run with
  | refl => exact Run.refl _
  | tail _ last ih =>
      obtain ⟨a, admitted, move⟩ := last
      exact ih.trans (answer _ a _ admitted move)

theorem run_of_exec [∀ s a, Decidable (ok s a)] (labels : List α)
    (h : exec (guarded step ok) s labels = some t) : Run step ok s t := by
  induction labels generalizing s with
  | nil =>
      cases h
      exact Run.refl _
  | cons a as ih =>
      obtain ⟨u, move, rest⟩ := Option.bind_eq_some_iff.mp h
      unfold guarded at move
      split at move
      · rename_i admitted
        exact ((Run.refl s).tail admitted move).trans (ih rest)
      · cases move

theorem reach_of_exec (labels : List α) (h : exec step s labels = some t) : Reach step s t := by
  induction labels generalizing s with
  | nil =>
      cases h
      exact Run.refl _
  | cons a as ih =>
      obtain ⟨u, move, rest⟩ := Option.bind_eq_some_iff.mp h
      exact ((Run.refl s).tail trivial move).trans (ih rest)

theorem exec_snoc (labels : List α) (a : α) :
    exec step s (labels ++ [a]) = (exec step s labels).bind fun t => step t a := by
  induction labels generalizing s with
  | nil => simp [exec]
  | cons b labels ih => simp only [List.cons_append, exec, ih, Option.bind_assoc]

theorem exec_map {step' : τ → α → Option τ} {f : σ → τ} {P : σ → Prop}
    (keeps : ∀ s a t, P s → step s a = some t → P t)
    (commutes : ∀ s a, P s → (step s a).map f = step' (f s) a) (holds : P s) (labels : List α) :
    (exec step s labels).map f = exec step' (f s) labels := by
  induction labels generalizing s with
  | nil => rfl
  | cons a as ih =>
      have move := commutes s a holds
      simp only [exec]
      rw [← move]
      cases taken : step s a with
      | none => rfl
      | some t => exact ih (keeps s a t holds taken)

/-- From every state of one kind some admitted run leads to a state of another. -/
def Leads (step : σ → α → Option σ) (ok : σ → α → Prop) (P Q : σ → Prop) : Prop :=
  ∀ s, P s → ∃ t, Run step ok s t ∧ Q t

namespace Leads

variable {P Q R : σ → Prop}

theorem trans (first : Leads step ok P Q) (second : Leads step ok Q R) : Leads step ok P R := by
  intro s holds
  obtain ⟨t, run, holds⟩ := first s holds
  obtain ⟨u, run', holds⟩ := second t holds
  exact ⟨u, run.trans run', holds⟩

instance : Trans (Leads step ok) (Leads step ok) (Leads step ok) := ⟨trans⟩

theorem of_step (move : ∀ s, P s → ∃ a t, ok s a ∧ step s a = some t ∧ Q t) :
    Leads step ok P Q := by
  intro s holds
  obtain ⟨a, t, admitted, taken, holds⟩ := move s holds
  exact ⟨t, (Run.refl s).tail admitted taken, holds⟩

theorem iterate {P : Nat → σ → Prop} {n : Nat}
    (block : ∀ k, k < n → Leads step ok (P k) (P (k + 1))) : Leads step ok (P 0) (P n) := by
  induction n with
  | zero => exact fun s holds => ⟨s, Run.refl s, holds⟩
  | succ n ih => exact (ih fun k less => block k (by omega)).trans (block n (by omega))

end Leads

end Rfrp.Transition
