import ServiceMesh.Retry.Basic

/-!
# What `execute` does, for every sequence of outcomes

The loop goes on while the outcome is a retryable error and the budget lasts, and each pass that goes
on invokes, counts and sleeps once. So its states are known in advance (`pass`), and with them the number
of invocations, the sleeps between them, the counter and the result.
-/

namespace ServiceMesh.Retry

open Loop

variable {T E : Type}

/-- Outcome `i` is an error whose lower-cased text is one of the retryable ones. -/
def World.retryable (w : World T E) (i : Nat) : Bool :=
  match w.outcome i with
  | .ok _ => false
  | .error e => isRetryableText (w.toLowercase (w.display e))

/-- The policy after `i` retries. -/
def RetryPolicy.retried (p : RetryPolicy) (i : Nat) : RetryPolicy :=
  { p with attempt := UInt32.ofNat (p.attempt.toNat + i) }

/-- What `k` passes that go on leave in the log: an invocation and a sleep each. -/
def rounds (w : World T E) (p : RetryPolicy) (k : Nat) : List Event :=
  (List.range k).flatMap fun i => [.invoke, .sleep ((p.retried i).nextDelay (w.jitter i))]

/-- The state before pass `i`. -/
def pass (w : World T E) (x : RetryExecutor) (i : Nat) : Execution :=
  { executor := { policy := x.policy.retried i }, log := rounds w x.policy i }

def isSleep : Event → Bool
  | .invoke => false
  | .sleep _ => true

def Execution.sleeps (s : Execution) : Nat := s.log.countP isSleep

theorem rounds_succ (w : World T E) (p : RetryPolicy) (k : Nat) :
    rounds w p (k + 1) = rounds w p k ++ [.invoke, .sleep ((p.retried k).nextDelay (w.jitter k))] := by
  simp [rounds, List.range_succ]

theorem count_invoke_rounds (w : World T E) (p : RetryPolicy) (k : Nat) : (rounds w p k).count .invoke = k := by
  induction k with
  | zero => rfl
  | succ k ih => simp [rounds_succ, ih]

theorem countP_isSleep_rounds (w : World T E) (p : RetryPolicy) (k : Nat) : (rounds w p k).countP isSleep = k := by
  induction k with
  | zero => rfl
  | succ k ih => simp [rounds_succ, ih, isSleep]

section
variable (w : World T E) {x : RetryExecutor} {i : Nat}

theorem pass_invocations : (pass w x i).invocations = i := count_invoke_rounds w x.policy i

/-- Within the budget the counter does not wrap. -/
theorem retried_attempt {p : RetryPolicy} (within : p.attempt.toNat + i ≤ p.config.maxRetries.toNat) :
    (p.retried i).attempt.toNat = p.attempt.toNat + i := by
  have small := p.config.maxRetries.toNat_lt
  simp only [RetryPolicy.retried, UInt32.toNat_ofNat']
  omega

theorem retried_hasRemaining {p : RetryPolicy} (within : p.attempt.toNat + i ≤ p.config.maxRetries.toNat) :
    (p.retried i).hasRemainingRetries = decide (p.attempt.toNat + i < p.config.maxRetries.toNat) := by
  simp only [RetryPolicy.hasRemainingRetries, UInt32.lt_iff_toNat_lt, retried_attempt within]
  rfl

/-- A retry moves on to the next state of the policy. -/
theorem recordRetry_retried {p : RetryPolicy} (within : p.attempt.toNat + i < p.config.maxRetries.toNat) (jitter : ℚ) :
    (p.retried i).recordRetry jitter = (some ((p.retried i).nextDelay jitter), p.retried (i + 1)) := by
  have remaining : (p.retried i).hasRemainingRetries = true := by
    rw [retried_hasRemaining within.le]
    exact decide_eq_true within
  have counted : (p.retried i).attempt + 1 = (p.retried (i + 1)).attempt := by
    simp only [RetryPolicy.retried]
    exact (UInt32.ofNat_add _ 1).symm
  simp only [RetryPolicy.recordRetry, remaining, Bool.not_true, Bool.false_eq_true, if_false]
  rw [counted]
  rfl

/-- **A pass that goes on**: a retryable error within the budget. -/
theorem body_next (within : x.policy.attempt.toNat + i < x.policy.config.maxRetries.toNat)
    (retryable : w.retryable i = true) : body w (pass w x i) = .next (pass w x (i + 1)) := by
  have remaining : (x.policy.retried i).hasRemainingRetries = true := by
    rw [retried_hasRemaining within.le]
    exact decide_eq_true within
  unfold World.retryable at retryable
  unfold body
  simp only [pass_invocations]
  cases outcome : w.outcome i with
  | ok result =>
    rw [outcome] at retryable
    cases retryable
  | error e =>
    rw [outcome] at retryable
    simp only [pass, RetryPolicy.shouldRetryError, remaining, Bool.not_true, Bool.false_eq_true, if_false, if_true,
      retryable, recordRetry_retried within, rounds_succ, List.append_assoc]
    rfl

/-- What the last pass returns. -/
def lastResult (w : World T E) (x : RetryExecutor) (k : Nat) : Except (RetryError E) T :=
  match w.outcome k with
  | .ok result => .ok result
  | .error e => .error { attempts := (x.policy.retried k).attempt + 1, lastError := e }

/-- **The last pass**: a success, an error that is not retryable, or the end of the budget. -/
theorem body_leave (within : x.policy.attempt.toNat + i ≤ x.policy.config.maxRetries.toNat)
    (stops : x.policy.attempt.toNat + i < x.policy.config.maxRetries.toNat → w.retryable i = false) :
    body w (pass w x i) =
      .leave (lastResult w x i) { pass w x i with log := (pass w x i).log ++ [.invoke] } := by
  unfold body lastResult
  simp only [pass_invocations]
  cases outcome : w.outcome i with
  | ok result => rfl
  | error e =>
    have declined : (x.policy.retried i).shouldRetryError w.toLowercase (w.display e) = false := by
      unfold RetryPolicy.shouldRetryError
      rw [retried_hasRemaining within]
      by_cases remaining : x.policy.attempt.toNat + i < x.policy.config.maxRetries.toNat
      · have stopped := stops remaining
        simp only [World.retryable, outcome] at stopped
        simp [stopped]
      · simp [remaining]
    simp only [pass, declined, Bool.false_eq_true, if_false]

end

theorem pass_zero (w : World T E) (x : RetryExecutor) : pass w x 0 = { executor := x, log := [] } := by
  simp [pass, rounds, RetryPolicy.retried]

/-- The number of attempts reported, which does not wrap below `u32::MAX`. -/
theorem retried_attempt_add_one {p : RetryPolicy} {k : Nat} (below : p.config.maxRetries.toNat < 2 ^ 32 - 1)
    (within : p.attempt.toNat + k ≤ p.config.maxRetries.toNat) :
    ((p.retried k).attempt + 1).toNat = p.attempt.toNat + k + 1 := by
  rw [UInt32.toNat_add, retried_attempt within]
  exact Nat.mod_eq_of_lt (by simp only [UInt32.toNat_one]; omega)

theorem lastResult_eq_error {w : World T E} {x : RetryExecutor} {k : Nat} {err : RetryError E} :
    lastResult w x k = .error err ↔
      w.outcome k = .error err.lastError ∧ err.attempts = (x.policy.retried k).attempt + 1 := by
  obtain ⟨attempts, e⟩ := err
  unfold lastResult
  cases w.outcome k with
  | ok v => simp
  | error e' =>
    simp only [Except.error.injEq, RetryError.mk.injEq]
    constructor
    · rintro ⟨rfl, rfl⟩
      exact ⟨rfl, rfl⟩
    · rintro ⟨rfl, rfl⟩
      exact ⟨rfl, rfl⟩

/-- **`execute`, in full.** With a budget of `max_retries - a` retries left, let `k` be the smaller of the
budget and the number of leading retryable errors. Then `execute` returns after `k + 1` iterations and not
before. It has invoked `request_fn` `k + 1` times and slept `k` times, once between consecutive invocations
and never after the last, and it leaves the counter at `a + k`. It returns the value of outcome `k`, or its
error with `attempts = a + k + 1`; on a fresh or reset executor that is the number of invocations, and at
most `max_retries + 1`. -/
theorem execute_spec (w : World T E) (x : RetryExecutor) (below : x.policy.config.maxRetries.toNat < 2 ^ 32 - 1)
    (within : x.policy.attempt ≤ x.policy.config.maxRetries) :
    let a := x.policy.attempt.toNat
    let budget := x.policy.config.maxRetries.toNat - a
    let k := leading w.retryable budget
    (k ≤ budget ∧ (∀ i < k, w.retryable i = true) ∧ (k < budget → w.retryable k = false)) ∧
    ∃ result last, (∀ n, execute w n x = if k < n then some (result, last) else none) ∧
      last.log = rounds w x.policy k ++ [.invoke] ∧ last.invocations = k + 1 ∧ last.sleeps = k ∧
      last.executor.policy.attempt.toNat = a + k ∧ last.executor.policy.config = x.policy.config ∧
      (∀ v, result = .ok v ↔ w.outcome k = .ok v) ∧
      (∀ attempts e, result = .error ⟨attempts, e⟩ ↔ w.outcome k = .error e ∧ attempts.toNat = a + k + 1) ∧
      (a = 0 → ∀ err, result = .error err → err.attempts.toNat = last.invocations ∧
        err.attempts.toNat ≤ x.policy.config.maxRetries.toNat + 1) := by
  intro a budget k
  obtain ⟨bound, passes, stops⟩ := leading_spec w.retryable budget
  have room : a ≤ x.policy.config.maxRetries.toNat := UInt32.le_iff_toNat_le.mp within
  have inside : a + k ≤ x.policy.config.maxRetries.toNat := by omega
  have goes_on : ∀ i < k, body w (pass w x i) = .next (pass w x (i + 1)) := by
    intro i lt
    exact body_next w (by omega) (passes i lt)
  have leaves := body_leave w inside fun short => stops (by omega)
  have attempts_eq : ((x.policy.retried k).attempt + 1).toNat = a + k + 1 := retried_attempt_add_one below inside
  have invoked : Execution.invocations { pass w x k with log := (pass w x k).log ++ [.invoke] } = k + 1 := by
    simp [Execution.invocations, pass, count_invoke_rounds]
  refine ⟨⟨bound, passes, stops⟩, lastResult w x k, { pass w x k with log := (pass w x k).log ++ [.invoke] },
    ?_, rfl, invoked, ?_, retried_attempt inside, rfl, ?_, ?_, ?_⟩
  · intro n
    rw [execute, ← pass_zero w x]
    exact loop_of_states goes_on leaves n
  · simp [Execution.sleeps, pass, countP_isSleep_rounds, isSleep]
  · intro v
    unfold lastResult
    cases w.outcome k <;> simp
  · intro attempts e
    rw [lastResult_eq_error, ← attempts_eq, UInt32.toNat_inj]
  · intro fresh err failed
    obtain ⟨-, eq⟩ := lastResult_eq_error.mp failed
    rw [eq, attempts_eq, invoked]
    omega

/-- A world that is refused a connection twice and then answered. -/
def refusedTwice : World Nat String where
  outcome i := if i < 2 then .error "Connection refused" else .ok 200
  display e := e
  toLowercase := String.toLower
  jitter _ := 1

/-- With two retries the third invocation is reached, and its value returned. -/
theorem execute_spec_refusedTwice :
    let x := RetryExecutor.new { RetryConfig.default with maxRetries := 2 }
    leading refusedTwice.retryable 2 = 2 ∧
    ∃ last, (∀ n, execute refusedTwice n x = if 2 < n then some (.ok 200, last) else none) ∧
      last.invocations = 3 ∧ last.sleeps = 2 := by
  intro x
  have retries : leading refusedTwice.retryable 2 = 2 := by decide +kernel
  obtain ⟨-, result, last, runs, -, invoked, slept, -, -, value, -⟩ :=
    execute_spec refusedTwice x (by decide) (by decide)
  have two : leading refusedTwice.retryable (x.policy.config.maxRetries.toNat - x.policy.attempt.toNat) = 2 := retries
  simp only [two] at runs invoked slept value
  rw [(value 200).mpr rfl] at runs
  exact ⟨retries, last, runs, invoked, slept⟩

end ServiceMesh.Retry
