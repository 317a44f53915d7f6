import Mathlib.Data.Nat.Basic

/-!
# Loops that run until they break

A loop `loop { .. }` repeats a body that goes on with a new state or leaves with a result. Run with a
number of iterations it may use, it ends exactly when that number suffices: if the body goes on
through the states `at 0, at 1, .., at k` and leaves at `at k`, the loop takes `k + 1` iterations
(`loop_of_states`). What each pass keeps holds at the end (`loop_invariant`). `leading` counts how far a test holds from the start, up to a budget.
-/

namespace Loop

variable {σ ρ : Type*}

/-- What one pass of the body comes to. -/
inductive Flow (σ ρ : Type*) where
  | next (s : σ)
  | leave (r : ρ) (s : σ)
deriving Repr, DecidableEq

/-- The loop, with `n` iterations at most: the result and the last state, or `none` if it is still going. -/
def loop (body : σ → Flow σ ρ) : Nat → σ → Option (ρ × σ)
  | 0, _ => none
  | n + 1, s =>
    match body s with
    | .next s => loop body n s
    | .leave r s => some (r, s)

/-- **Exactly `k + 1` iterations.** -/
theorem loop_of_states {body : σ → Flow σ ρ} {k : Nat} {f : Nat → σ} {r : ρ} {last : σ}
    (goes_on : ∀ i < k, body (f i) = .next (f (i + 1))) (leaves : body (f k) = .leave r last) (n : Nat) :
    loop body n (f 0) = if k < n then some (r, last) else none := by
  induction n generalizing k f with
  | zero => simp [loop]
  | succ n ih =>
    cases k with
    | zero => simp [loop, leaves]
    | succ k =>
      have first := goes_on 0 (Nat.succ_pos k)
      have rest := ih (k := k) (f := fun i => f (i + 1))
        (fun i lt => goes_on (i + 1) (Nat.succ_lt_succ lt)) leaves
      rw [loop, first]
      simpa using rest

/-- What every pass of the body keeps, whether it goes on or leaves, holds at the end. -/
theorem loop_invariant {body : σ → Flow σ ρ} {I : σ → Prop} (next : ∀ s s', I s → body s = .next s' → I s')
    (leave : ∀ s r s', I s → body s = .leave r s' → I s') {n : Nat} {s last : σ} {r : ρ} (start : I s)
    (ended : loop body n s = some (r, last)) : I last := by
  induction n generalizing s with
  | zero => cases ended
  | succ n ih =>
    rw [loop] at ended
    cases flow : body s with
    | next s' =>
      rw [flow] at ended
      exact ih (next s s' start flow) ended
    | leave r' s' =>
      rw [flow] at ended
      cases ended
      exact leave s r last start flow

/-- The number of leading indices, of the first `budget`, that pass the test. -/
def leading (test : Nat → Bool) : Nat → Nat
  | 0 => 0
  | budget + 1 => if test 0 then leading (fun i => test (i + 1)) budget + 1 else 0

/-- It is the smaller of the budget and the number of all leading indices that pass: the indices below it
pass, and where it falls short of the budget, the next one does not. -/
theorem leading_spec (test : Nat → Bool) (budget : Nat) :
    leading test budget ≤ budget ∧ (∀ i < leading test budget, test i = true) ∧
      (leading test budget < budget → test (leading test budget) = false) := by
  induction budget generalizing test with
  | zero =>
    refine ⟨Nat.le_refl 0, ?_, ?_⟩
    · intro i lt
      exact absurd lt (Nat.not_lt_zero i)
    · intro lt
      exact absurd lt (Nat.not_lt_zero 0)
  | succ budget ih =>
    obtain ⟨bound, passes, stops⟩ := ih fun i => test (i + 1)
    cases first : test 0 with
    | false =>
      simp only [leading, first, Bool.false_eq_true, if_false]
      refine ⟨Nat.zero_le _, ?_, fun _ => trivial⟩
      intro i lt
      exact absurd lt (Nat.not_lt_zero i)
    | true =>
      simp only [leading, first, if_true]
      refine ⟨by omega, ?_, ?_⟩
      · intro i lt
        cases i with
        | zero => exact first
        | succ i => exact passes i (by omega)
      · intro lt
        exact stops (by omega)

end Loop
