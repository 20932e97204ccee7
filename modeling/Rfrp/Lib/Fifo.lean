import Mathlib.Data.List.Basic
import Mathlib.Data.List.Infix
import Mathlib.Data.List.TakeDrop

/-!
# FIFO queues that remember

A queue is everything that was ever put into it and how much of that has been taken out. What is
taken is then by construction a prefix of what was put, so order and losslessness need no
invariant of their own.
-/

namespace Rfrp

structure Fifo (α : Type*) where
  log : List α
  taken : Nat
  taken_le : taken ≤ log.length
deriving DecidableEq, Repr

namespace Fifo

variable {α : Type*} {f g : Fifo α} {a : α}

def empty : Fifo α := ⟨[], 0, Nat.le_refl 0⟩

/-- What is still in the queue, oldest first. -/
def queue (f : Fifo α) : List α := f.log.drop f.taken

/-- What has been taken out, oldest first. -/
def received (f : Fifo α) : List α := f.log.take f.taken

def pushAll (f : Fifo α) (as : List α) : Fifo α :=
  ⟨f.log ++ as, f.taken, by simpa using Nat.le_add_right_of_le f.taken_le⟩

def push (f : Fifo α) (a : α) : Fifo α := f.pushAll [a]

def advance (f : Fifo α) (k : Nat) : Fifo α :=
  ⟨f.log, min (f.taken + k) f.log.length, Nat.min_le_right _ _⟩

def pop (f : Fifo α) : Option (α × Fifo α) :=
  match f.queue with
  | [] => none
  | a :: _ => some (a, f.advance 1)

@[simp] theorem log_empty : (empty : Fifo α).log = [] := rfl
@[simp] theorem received_empty : (empty : Fifo α).received = [] := rfl
@[simp] theorem queue_empty : (empty : Fifo α).queue = [] := rfl
@[simp] theorem log_pushAll (as : List α) : (f.pushAll as).log = f.log ++ as := rfl
@[simp] theorem log_push : (f.push a).log = f.log ++ [a] := rfl
@[simp] theorem log_advance (k : Nat) : (f.advance k).log = f.log := rfl

theorem received_append_queue (f : Fifo α) : f.received ++ f.queue = f.log :=
  List.take_append_drop _ _

theorem received_isPrefix (f : Fifo α) : f.received <+: f.log := List.take_prefix _ _

@[simp] theorem received_pushAll (as : List α) : (f.pushAll as).received = f.received := by
  simp [received, pushAll, List.take_append_of_le_length f.taken_le]

@[simp] theorem received_push : (f.push a).received = f.received := received_pushAll _

@[simp] theorem queue_pushAll (as : List α) : (f.pushAll as).queue = f.queue ++ as := by
  simp [queue, pushAll, List.drop_append_of_le_length f.taken_le]

@[simp] theorem queue_push : (f.push a).queue = f.queue ++ [a] := queue_pushAll _

theorem received_advance (k : Nat) :
    (f.advance k).received = f.received ++ f.queue.take k := by
  have bound := f.taken_le
  rcases Nat.le_total (f.taken + k) f.log.length with h | h
  · simp [received, advance, queue, Nat.min_eq_left h, List.take_add]
  · have rest : f.log.length - f.taken ≤ k := by omega
    have all : (f.log.drop f.taken).take k = f.log.drop f.taken :=
      List.take_of_length_le (by simpa using rest)
    simp only [received, advance, queue, Nat.min_eq_right h, List.take_length, all,
      List.take_append_drop]

theorem queue_advance (k : Nat) : (f.advance k).queue = f.queue.drop k := by
  have bound := f.taken_le
  rcases Nat.le_total (f.taken + k) f.log.length with h | h
  · simp [advance, queue, Nat.min_eq_left h]
  · simp [advance, queue, h]

theorem taken_advance {k : Nat} (most : k ≤ f.queue.length) :
    (f.advance k).taken = f.taken + k := by
  have bound := f.taken_le
  rw [queue, List.length_drop] at most
  exact Nat.min_eq_left (by omega)

theorem received_eq_log (drained : f.queue = []) : f.received = f.log := by
  simpa [drained] using f.received_append_queue

theorem pop_eq_none : f.pop = none ↔ f.queue = [] := by
  unfold pop
  cases f.queue <;> simp

theorem pop_eq_some (h : f.pop = some (a, g)) :
    g.log = f.log ∧ g.received = f.received ++ [a] ∧ f.queue = a :: g.queue := by
  unfold pop at h
  cases hq : f.queue with
  | nil => simp [hq] at h
  | cons b rest =>
      simp only [hq, Option.some.injEq, Prod.mk.injEq] at h
      obtain ⟨rfl, rfl⟩ := h
      simp [received_advance, queue_advance, hq]

theorem exists_pop (ne : f.queue ≠ []) : ∃ a g, f.pop = some (a, g) := by
  cases h : f.pop with
  | none => exact absurd (pop_eq_none.mp h) ne
  | some r => exact ⟨r.1, r.2, rfl⟩

end Fifo

end Rfrp
