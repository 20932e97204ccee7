import Rfrp.Client.Reconnect
import Rfrp.Lib.Transition
import Mathlib.Tactic.IntervalCases

/-!
# Reconnect delays

The delay of the reconnect loop grows with the number of attempts since the start of the program.
It is the delay for the failures since the last established connection exactly when both counts are
at the same stage of the back-off.
-/

namespace Rfrp

def backoff (failures : Nat) : Nat :=
  min (initialReconnectDelay * 2 ^ (failures - 1)) maxReconnectDelay

/-- The delays grow up to the sixth failure. -/
def stage (n : Nat) : Nat := max 1 (min n 6)

theorem backoff_eq_stage (n : Nat) : backoff n = backoff (stage n) := by
  by_cases capped : 6 ≤ n
  · have exponent : 2 ^ 5 ≤ 2 ^ (n - 1) := Nat.pow_le_pow_right (by decide) (by omega)
    have last : stage n = 6 := by simp [stage, capped]
    rw [last]
    unfold backoff initialReconnectDelay maxReconnectDelay
    omega
  · interval_cases n <;> rfl

theorem backoff_eq_iff (n m : Nat) : backoff n = backoff m ↔ stage n = stage m := by
  constructor
  · intro same
    rw [backoff_eq_stage n, backoff_eq_stage m] at same
    have low : 1 ≤ stage n ∧ 1 ≤ stage m := by
      unfold stage
      omega
    have high : stage n ≤ 6 ∧ stage m ≤ 6 := by
      unfold stage
      omega
    generalize stage n = i at *
    generalize stage m = j at *
    obtain ⟨_, _⟩ := low
    obtain ⟨_, _⟩ := high
    interval_cases i <;> interval_cases j <;> revert same <;> decide
  · intro same
    rw [backoff_eq_stage n, same, ← backoff_eq_stage]

theorem backoff_mono {n m : Nat} (le : n ≤ m) : backoff n ≤ backoff m := by
  have power : 2 ^ (n - 1) ≤ 2 ^ (m - 1) := Nat.pow_le_pow_right (by decide) (by omega)
  unfold backoff initialReconnectDelay
  omega

/-- The saturating arithmetic of the code computes the capped exponential for every counter. -/
theorem calcReconnectDelay_eq (attempt : UInt32) :
    calcReconnectDelay attempt = backoff attempt.toNat := by
  have power : 1 ≤ 2 ^ (attempt.toNat - 1) := Nat.one_le_two_pow
  unfold calcReconnectDelay backoff saturating initialReconnectDelay maxReconnectDelay
  omega

def ReconnectAct.isWake : ReconnectAct → Bool
  | .wake => true
  | _ => false

def ReconnectAct.establishes : ReconnectAct → Bool
  | .connected _ | .handshakeFailed => true
  | _ => false

namespace Reconnect

open Transition

variable {s s' t : Reconnect} {a : ReconnectAct} {config : List ClientInfo}
  {labels before after : List ReconnectAct} {d : Nat}

def countFailure (failures : Nat) : ReconnectAct → Nat
  | .connectFailed => failures + 1
  | .connected _ | .handshakeFailed => 0
  | _ => failures

/-- The failed connects since the last established connection. -/
def failures (labels : List ReconnectAct) : Nat := labels.foldl countFailure 0

/-- How often the loop has tried to connect. -/
def attempts (labels : List ReconnectAct) : Nat := labels.countP ReconnectAct.isWake + 1

theorem failures_append (stretch : ∀ a ∈ after, a.establishes = false) :
    failures before ≤ failures (before ++ after) := by
  induction after using List.reverseRecOn with
  | nil => rw [List.append_nil]
  | append_singleton init a ih =>
      have last := stretch a (by simp)
      have less := ih fun a mem => stretch a (by simp [mem])
      rw [← List.append_assoc]
      unfold failures at less ⊢
      rw [List.foldl_append, List.foldl_cons, List.foldl_nil]
      cases a with
      | connected | handshakeFailed => cases last
      | connectFailed => exact Nat.le_succ_of_le less
      | _ => exact less

theorem attempts_cons (a : ReconnectAct) (labels : List ReconnectAct) :
    attempts (a :: labels) = attempts labels + if a.isWake then 1 else 0 := by
  simp only [attempts, List.countP_cons]
  omega

def Slept (s : Reconnect) : Prop := ∀ d, s.loop = .sleeping d → d = calcReconnectDelay s.attempt

theorem loop_of_step (h : s.step a = some s') :
    (a.isWake = true ∧ s'.loop = .connecting ∧ s'.attempt = s.attempt + 1) ∨
      (a.isWake = false ∧ s'.attempt = s.attempt ∧ (s'.loop = s.loop ∨
        (∃ k, s'.loop = .running k) ∨ s'.loop = .sleeping (calcReconnectDelay s.attempt))) := by
  cases a <;> simp only [step] at h
  case connectFailed | handshakeFailed =>
    obtain ⟨-, h⟩ := Option.ite_none_right_eq_some.mp h
    cases h
    exact Or.inr ⟨rfl, rfl, Or.inr (Or.inr rfl)⟩
  case connected =>
    obtain ⟨-, h⟩ := Option.ite_none_right_eq_some.mp h
    cases h
    exact Or.inr ⟨rfl, rfl, Or.inr (Or.inl ⟨_, rfl⟩)⟩
  case returned =>
    split at h
    · obtain ⟨call, -, h⟩ := Option.bind_eq_some_iff.mp h
      split at h
      · cases h
        exact Or.inr ⟨rfl, rfl, Or.inr (Or.inr rfl)⟩
      · cases h
    · cases h
  case wake =>
    split at h
    · cases h
      exact Or.inl ⟨rfl, rfl, rfl⟩
    · cases h
  case call =>
    split at h
    · cases h
    · obtain ⟨call, -, h⟩ := Option.bind_eq_some_iff.mp h
      obtain ⟨w, -, h⟩ := Option.bind_eq_some_iff.mp h
      obtain ⟨c, -, rfl⟩ := Option.map_eq_some_iff.mp h
      exact Or.inr ⟨rfl, rfl, Or.inl rfl⟩
  case writer =>
    obtain ⟨call, -, h⟩ := Option.bind_eq_some_iff.mp h
    obtain ⟨w, -, h⟩ := Option.bind_eq_some_iff.mp h
    obtain ⟨w', -, rfl⟩ := Option.map_eq_some_iff.mp h
    exact Or.inr ⟨rfl, rfl, Or.inl rfl⟩
  case task =>
    obtain ⟨n, -, h⟩ := Option.bind_eq_some_iff.mp h
    obtain ⟨captured, -, h⟩ := Option.bind_eq_some_iff.mp h
    obtain ⟨w, -, h⟩ := Option.bind_eq_some_iff.mp h
    obtain ⟨e, -, rfl⟩ := Option.map_eq_some_iff.mp h
    exact Or.inr ⟨rfl, rfl, Or.inl rfl⟩

theorem Slept.step (slept : s.Slept) (h : s.step a = some s') : s'.Slept := by
  intro d sleeping
  rcases loop_of_step h with ⟨-, loop, -⟩ | ⟨-, attempt, loop | ⟨k, loop⟩ | loop⟩
  · rw [loop] at sleeping
    cases sleeping
  · rw [attempt]
    exact slept d (loop ▸ sleeping)
  · rw [loop] at sleeping
    cases sleeping
  · rw [loop] at sleeping
    cases sleeping
    rw [attempt]

theorem exec_attempt (h : exec step s labels = some t) (slept : s.Slept) :
    t.attempt + 1 = s.attempt + UInt32.ofNat (attempts labels) ∧ t.Slept := by
  induction labels generalizing s with
  | nil =>
      cases h
      exact ⟨rfl, slept⟩
  | cons a labels ih =>
      obtain ⟨u, move, rest⟩ := Option.bind_eq_some_iff.mp h
      obtain ⟨counted, after⟩ := ih rest (slept.step move)
      refine ⟨counted.trans ?_, after⟩
      rw [attempts_cons, UInt32.ofNat_add]
      rcases loop_of_step move with ⟨wake, -, attempt⟩ | ⟨other, attempt, -⟩
      · rw [attempt, if_pos wake, UInt32.add_assoc, UInt32.add_comm 1]
        rfl
      · simp [attempt, other]

theorem delay_of_exec (h : exec step (start config) labels = some s) (sleeping : s.loop = .sleeping d) :
    d = backoff (attempts labels % 2 ^ 32) := by
  have fresh : (start config).Slept := fun d loop => by cases loop
  obtain ⟨counted, slept⟩ := exec_attempt h fresh
  have attempt : s.attempt = UInt32.ofNat (attempts labels) := by
    rw [show (start config).attempt = 1 from rfl, UInt32.add_comm 1] at counted
    exact (UInt32.add_left_inj 1).mp counted
  rw [slept d sleeping, calcReconnectDelay_eq, attempt]
  rfl

/-- In the run that follows `labels`, every delay slept is the back-off for the failed connects
since the last established connection. -/
def BacksOff (config : List ClientInfo) (labels : List ReconnectAct) : Prop :=
  ∀ before s d, before <+: labels → exec step (start config) before = some s →
    s.loop = .sleeping d →
    initialReconnectDelay ≤ d ∧ d ≤ maxReconnectDelay ∧ d = backoff (failures before) ∧
    ∀ after t d', before ++ after <+: labels → (∀ a ∈ after, a.establishes = false) →
      exec step (start config) (before ++ after) = some t → t.loop = .sleeping d' → d ≤ d'

theorem backs_off_iff (config : List ClientInfo) (labels : List ReconnectAct) :
    ((∀ attempt : UInt32, calcReconnectDelay attempt = backoff attempt.toNat ∧
        initialReconnectDelay ≤ calcReconnectDelay attempt ∧
        calcReconnectDelay attempt ≤ maxReconnectDelay) ∧ BacksOff config labels) ↔
      ∀ before s d, before <+: labels → exec step (start config) before = some s →
        s.loop = .sleeping d → stage (attempts before % 2 ^ 32) = stage (failures before) := by
  constructor
  · rintro ⟨-, backs⟩ before s d part run sleeping
    obtain ⟨-, -, same, -⟩ := backs before s d part run sleeping
    rw [delay_of_exec run sleeping] at same
    exact (backoff_eq_iff _ _).mp same
  · intro staged
    have delay : ∀ before s d, before <+: labels → exec step (start config) before = some s →
        s.loop = .sleeping d → d = backoff (failures before) := by
      intro before s d part run sleeping
      rw [delay_of_exec run sleeping]
      exact (backoff_eq_iff _ _).mpr (staged before s d part run sleeping)
    refine ⟨fun attempt => ⟨calcReconnectDelay_eq attempt, calcReconnectDelay_bounds attempt⟩, ?_⟩
    intro before s d part run sleeping
    have bounds := calcReconnectDelay_bounds (UInt32.ofNat (attempts before))
    rw [calcReconnectDelay_eq] at bounds
    refine ⟨?_, ?_, delay before s d part run sleeping, ?_⟩
    · exact bounds.1.trans_eq (delay_of_exec run sleeping).symm
    · exact (delay_of_exec run sleeping).trans_le bounds.2
    · intro after t d' part' stretch run' sleeping'
      rw [delay _ _ _ part run sleeping, delay _ _ _ part' run' sleeping']
      exact backoff_mono (failures_append stretch)

/-- A session that the server accepts and then closes. -/
def lostSession (k : Nat) : List ReconnectAct :=
  [.connected 8, .call k .register, .call k (.exit .eof), .returned]

def sshOnly : List ClientInfo := [⟨"ssh", 22001, "127.0.0.1", 22, "tcp", ""⟩]

theorem second_loss : ¬ ∀ config labels, BacksOff config labels := by
  intro claim
  have slept : (exec step (start sshOnly) (lostSession 0 ++ [.wake] ++ lostSession 1)).map
      (fun s => s.loop) = some (.sleeping 6) := rfl
  obtain ⟨s, run, loop⟩ := Option.map_eq_some_iff.mp slept
  obtain ⟨-, -, delay, -⟩ := claim sshOnly _ _ s 6 List.prefix_rfl run loop
  revert delay
  decide

end Reconnect

end Rfrp
