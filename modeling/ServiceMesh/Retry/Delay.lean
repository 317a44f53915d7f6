import ServiceMesh.Retry.Execute
import ServiceMesh.Logic.Transducer
import Mathlib.Algebra.Order.GroupWithZero.Basic
import Mathlib.Tactic.Linarith
import Mathlib.Tactic.NormNum

/-!
# The delays between retries

The delay is computed in whole milliseconds: both durations are truncated to them, and so is the result
(`follows_law`). The cap comes before the jitter, so a jittered delay can be half as long again as the longest one
(`respects_max_delay_iff`). The exponent is the counter as an `i32`: from the retry `2 ^ 31` on it is negative, and
the backoff starts again from nothing (`never_shrinks_iff`).
-/

namespace ServiceMesh.Retry

open Transducer Loop

/-! ## One delay -/

theorem asU64_le_iff {x : ℚ} {n : Nat} : asU64 x ≤ n ↔ x < n + 1 ∨ 2 ^ 64 - 1 ≤ n := by
  have floor : ⌊x⌋₊ ≤ n ↔ x < n + 1 := by
    rw [← Nat.lt_succ_iff, Nat.floor_lt' (Nat.succ_ne_zero n)]
    push_cast
    rfl
  rw [asU64, min_le_iff, floor]

theorem asU64_mono {x y : ℚ} (le : x ≤ y) : asU64 x ≤ asU64 y := min_le_min_right _ (Nat.floor_mono le)

/-- A delay that `nextDelay` gives is within a duration exactly if its milliseconds are. -/
theorem nextDelay_le_iff (p : RetryPolicy) (jitter : ℚ) (limit : Nat) :
    p.nextDelay jitter ≤ limit ↔
      (if p.config.useJitter then p.cappedDelay * jitter else p.cappedDelay) < (limit / 10 ^ 6 : Nat) + 1 ∨
        2 ^ 64 - 1 ≤ limit / 10 ^ 6 := by
  rw [← asU64_le_iff, Nat.le_div_iff_mul_le (by decide)]
  rfl

theorem cappedDelay_le (p : RetryPolicy) : p.cappedDelay ≤ millis p.config.maxDelay := by
  unfold RetryPolicy.cappedDelay
  split
  · exact le_refl _
  · exact min_le_right _ _

/-! ## The delays of one request -/

/-- What the calls of `record_retry` on a fresh policy return. -/
def delays (config : RetryConfig) (jitters : List ℚ) : List (Option Nat) :=
  trace RetryPolicy.recordRetry (.new config) jitters

/-- The policy of a request after `i` retries. -/
def RetryConfig.policyAt (i : Nat) (config : RetryConfig) : RetryPolicy := (RetryPolicy.new config).retried i

theorem trace_recordRetry (p : RetryPolicy) (jitters : List ℚ) {a i d : Nat}
    (within : p.attempt.toNat + a ≤ p.config.maxRetries.toNat) :
    (trace RetryPolicy.recordRetry (p.retried a) jitters)[i]? = some (some d) ↔
      ∃ jitter, jitters[i]? = some jitter ∧ p.attempt.toNat + (a + i) < p.config.maxRetries.toNat ∧
        d = (p.retried (a + i)).nextDelay jitter := by
  induction jitters generalizing a i with
  | nil => simp
  | cons jitter jitters ih =>
    rw [trace_cons]
    by_cases remaining : p.attempt.toNat + a < p.config.maxRetries.toNat
    · rw [recordRetry_retried remaining]
      cases i with
      | zero => simp [remaining, eq_comm]
      | succ i => rw [List.getElem?_cons_succ, List.getElem?_cons_succ, ih (by omega), Nat.add_right_comm, Nat.add_assoc]
    · have spent : (p.retried a).recordRetry jitter = (none, p.retried a) := by
        rw [RetryPolicy.recordRetry, retried_hasRemaining within, decide_eq_false remaining]
        rfl
      rw [spent]
      cases i with
      | zero => simp [remaining]
      | succ i =>
        rw [List.getElem?_cons_succ, List.getElem?_cons_succ, ih within]
        constructor
        · rintro ⟨jitter, -, remaining', -⟩
          omega
        · rintro ⟨jitter, -, remaining', -⟩
          omega

/-- Call `i` returns the delay of the policy after `i` retries, as long as the budget lasts. -/
theorem delays_getElem? (config : RetryConfig) (jitters : List ℚ) {i d : Nat} :
    (delays config jitters)[i]? = some (some d) ↔
      ∃ jitter, jitters[i]? = some jitter ∧ i < config.maxRetries.toNat ∧ d = (config.policyAt i).nextDelay jitter := by
  have spec := trace_recordRetry (.new config) jitters (a := 0) (i := i) (d := d) (Nat.zero_le _)
  have start : (RetryPolicy.new config).retried 0 = .new config := rfl
  have none : (RetryPolicy.new config).attempt.toNat = 0 := rfl
  rw [start, none, Nat.zero_add, Nat.zero_add] at spec
  exact spec

/-- `attempt as i32`, for the attempt with this number. -/
def exponent (i : Nat) : Int := if i < 2 ^ 31 then i else i - 2 ^ 32

theorem asI32_ofNat {i : Nat} (small : i < 2 ^ 32) : asI32 (UInt32.ofNat i) = exponent i := by
  have same : (UInt32.ofNat i).toNat = i := by
    rw [UInt32.toNat_ofNat', Nat.mod_eq_of_lt small]
  rw [asI32, exponent, same]

/-- The delay of attempt `i` in milliseconds, before the jitter. -/
theorem cappedDelay_policyAt (config : RetryConfig) {i : Nat} (within : i < config.maxRetries.toNat) :
    (config.policyAt i).cappedDelay =
      if config.backoffMultiplier = 0 ∧ 2 ^ 31 ≤ i then millis config.maxDelay
      else min (millis config.baseDelay * config.backoffMultiplier ^ exponent i) (millis config.maxDelay) := by
  have small : i < 2 ^ 32 := within.trans config.maxRetries.toNat_lt
  have power : asI32 (config.policyAt i).attempt = exponent i := by
    rw [← asI32_ofNat small]
    simp [RetryConfig.policyAt, RetryPolicy.retried, RetryPolicy.new]
  have negative : exponent i < 0 ↔ 2 ^ 31 ≤ i := by
    unfold exponent
    split <;> omega
  unfold RetryPolicy.cappedDelay
  simp only [power, negative]
  rfl

/-! ## The cap -/

/-- Every delay is at most `max_delay`: those that `record_retry` returns, and those that `execute` sleeps. -/
def RespectsMaxDelay (config : RetryConfig) : Prop :=
  (∀ jitters : List ℚ, (∀ jitter ∈ jitters, 1 / 2 ≤ jitter ∧ jitter < 3 / 2) →
    ∀ delay, some delay ∈ delays config jitters → delay ≤ config.maxDelay) ∧
  (∀ (T E : Type) (w : World T E) (x : RetryExecutor), x.policy.config = config →
    (∀ i, 1 / 2 ≤ w.jitter i ∧ w.jitter i < 3 / 2) → ∀ n result last, execute w n x = some (result, last) →
      ∀ delay, .sleep delay ∈ last.log → delay ≤ config.maxDelay)

/-- A number that no jitter lifts to `limit`. -/
theorem forall_jitter_iff {c limit : ℚ} (positive : 0 < limit) :
    (∀ jitter, 1 / 2 ≤ jitter → jitter < 3 / 2 → c * jitter < limit) ↔ 3 * c ≤ 2 * limit := by
  constructor
  · intro below
    by_contra above
    -- the jitter that lifts `c` to the limit is less than 3/2
    have high : 0 < c := by linarith
    have lifted : limit / c < 3 / 2 := by
      rw [div_lt_iff₀ high]
      linarith
    have reached := below (max (1 / 2) (limit / c)) (le_max_left _ _) (max_lt (by norm_num) lifted)
    have enough : limit ≤ c * max (1 / 2) (limit / c) := by
      calc limit = c * (limit / c) := (mul_div_cancel₀ limit high.ne').symm
        _ ≤ c * max (1 / 2) (limit / c) := mul_le_mul_of_nonneg_left (le_max_right _ _) high.le
    linarith
  · intro small jitter low high
    rcases le_or_gt c 0 with negative | positive'
    · have down : c * jitter ≤ 0 := mul_nonpos_of_nonpos_of_nonneg negative (by linarith)
      linarith
    · have up : c * jitter < c * (3 / 2) := mul_lt_mul_of_pos_left high positive'
      linarith

/-- What the configuration must meet: no jitter, or a cap too short or too long for it to matter, or a backoff that stays
within two thirds of it. -/
def JitterFits (config : RetryConfig) : Prop :=
  config.useJitter = false ∨ config.maxDelay / 10 ^ 6 ≤ 2 ∨ 2 ^ 64 - 1 ≤ config.maxDelay / 10 ^ 6 ∨
    ∀ i < config.maxRetries.toNat, ¬ (config.backoffMultiplier = 0 ∧ 2 ^ 31 ≤ i) ∧
      3 * (millis config.baseDelay * config.backoffMultiplier ^ exponent i) ≤ 2 * (millis config.maxDelay + 1)

/-- A jittered delay within the cap whatever the jitter is. -/
theorem forall_nextDelay_iff (p : RetryPolicy) (on : p.config.useJitter = true) :
    (∀ jitter, 1 / 2 ≤ jitter → jitter < 3 / 2 → p.nextDelay jitter ≤ p.config.maxDelay) ↔
      3 * p.cappedDelay ≤ 2 * (millis p.config.maxDelay + 1) ∨ 2 ^ 64 - 1 ≤ p.config.maxDelay / 10 ^ 6 := by
  have positive : 0 < millis p.config.maxDelay + 1 := Nat.cast_add_one_pos _
  simp only [nextDelay_le_iff, on, if_true]
  by_cases long : 2 ^ 64 - 1 ≤ p.config.maxDelay / 10 ^ 6
  · simp only [long, or_true, implies_true]
  · simp only [long, or_false]
    exact forall_jitter_iff positive

/-- Attempt `i` under the cap, told by the configuration. -/
theorem cappedDelay_fits_iff (config : RetryConfig) {i : Nat} (within : i < config.maxRetries.toNat) :
    3 * (config.policyAt i).cappedDelay ≤ 2 * (millis config.maxDelay + 1) ↔
      config.maxDelay / 10 ^ 6 ≤ 2 ∨ (¬ (config.backoffMultiplier = 0 ∧ 2 ^ 31 ≤ i) ∧
        3 * (millis config.baseDelay * config.backoffMultiplier ^ exponent i) ≤ 2 * (millis config.maxDelay + 1)) := by
  have short : 3 * millis config.maxDelay ≤ 2 * (millis config.maxDelay + 1) ↔ config.maxDelay / 10 ^ 6 ≤ 2 := by
    unfold millis
    constructor
    · intro le
      have bound : ((config.maxDelay / 10 ^ 6 : Nat) : ℚ) ≤ 2 := by linarith
      exact_mod_cast bound
    · intro le
      have bound : ((config.maxDelay / 10 ^ 6 : Nat) : ℚ) ≤ 2 := by exact_mod_cast le
      linarith
  rw [cappedDelay_policyAt config within]
  by_cases infinite : config.backoffMultiplier = 0 ∧ 2 ^ 31 ≤ i
  · rw [if_pos infinite, short]
    simp only [infinite, and_self, not_true_eq_false, false_and, or_false]
  · rw [if_neg infinite, mul_min_of_nonneg _ _ (by norm_num), min_le_iff, short]
    simp only [infinite, not_false_eq_true, true_and]
    exact or_comm

/-- **One delay** is within the cap if the configuration fits. -/
theorem nextDelay_le {config : RetryConfig} (fits : JitterFits config) {i : Nat} (within : i < config.maxRetries.toNat)
    {jitter : ℚ} (low : 1 / 2 ≤ jitter) (high : jitter < 3 / 2) :
    (config.policyAt i).nextDelay jitter ≤ config.maxDelay := by
  cases on : config.useJitter with
  | false =>
    have off : (config.policyAt i).config.useJitter = false := on
    rw [nextDelay_le_iff, off]
    exact .inl ((cappedDelay_le _).trans_lt (lt_add_one _))
  | true =>
    refine (forall_nextDelay_iff (config.policyAt i) on).mpr ?_ jitter low high
    rcases fits with off | short | long | below
    · rw [on] at off
      cases off
    · exact .inl ((cappedDelay_fits_iff config within).mpr (.inl short))
    · exact .inr long
    · exact .inl ((cappedDelay_fits_iff config within).mpr (.inr (below i within)))

theorem policyAt_attempt (p : RetryPolicy) : p.config.policyAt p.attempt.toNat = p := by
  simp [RetryConfig.policyAt, RetryPolicy.retried, RetryPolicy.new]

/-- What `record_retry` returns, it returns within the budget, and it keeps the configuration. -/
theorem recordRetry_cases (jitter : ℚ) (p : RetryPolicy) :
    (p.recordRetry jitter).2.config = p.config ∧ ∀ delay, (p.recordRetry jitter).1 = some delay →
      p.attempt.toNat < p.config.maxRetries.toNat ∧ delay = p.nextDelay jitter := by
  unfold RetryPolicy.recordRetry
  split
  · refine ⟨rfl, ?_⟩
    intro delay impossible
    cases impossible
  · next remaining =>
    refine ⟨rfl, ?_⟩
    intro delay returned
    cases returned
    have below : p.hasRemainingRetries = true := by simpa using remaining
    exact ⟨UInt32.lt_iff_toNat_lt.mp (of_decide_eq_true below), rfl⟩

theorem recordRetry_le {p : RetryPolicy} (fits : JitterFits p.config) {jitter : ℚ} (low : 1 / 2 ≤ jitter)
    (high : jitter < 3 / 2) {delay : Nat} (returned : (p.recordRetry jitter).1 = some delay) :
    delay ≤ p.config.maxDelay := by
  obtain ⟨within, rfl⟩ := (recordRetry_cases jitter p).2 delay returned
  have bound := nextDelay_le fits within low high
  rwa [policyAt_attempt] at bound

/-- The executor of a configuration, and what it has slept within the cap. -/
structure SleepsWithin (config : RetryConfig) (s : Execution) : Prop where
  same : s.executor.policy.config = config
  sleeps : ∀ delay, .sleep delay ∈ s.log → delay ≤ config.maxDelay

/-- Another invocation in the log is no sleep. -/
theorem SleepsWithin.invoke {config : RetryConfig} {s : Execution} (h : SleepsWithin config s) (p : RetryPolicy)
    (same : p.config = config) : SleepsWithin config { executor := { policy := p }, log := s.log ++ [.invoke] } := by
  refine ⟨same, ?_⟩
  intro delay mem
  rcases List.mem_append.mp mem with mem | mem
  · exact h.sleeps delay mem
  · cases List.mem_singleton.mp mem

/-- **One pass of the loop** sleeps what `record_retry` returns. -/
theorem SleepsWithin.body {T E : Type} {w : World T E} {config : RetryConfig} (fits : JitterFits config)
    (range : ∀ i, 1 / 2 ≤ w.jitter i ∧ w.jitter i < 3 / 2) {s : Execution} (h : SleepsWithin config s) :
    (∀ s', body w s = .next s' → SleepsWithin config s') ∧ (∀ r s', body w s = .leave r s' → SleepsWithin config s') := by
  have keeps := recordRetry_cases (w.jitter s.invocations) s.executor.policy
  have within : ∀ delay, (s.executor.policy.recordRetry (w.jitter s.invocations)).1 = some delay → delay ≤ config.maxDelay := by
    intro delay returned
    obtain ⟨low, high⟩ := range s.invocations
    have bound := recordRetry_le (h.same ▸ fits) low high returned
    rwa [h.same] at bound
  unfold Retry.body
  dsimp only
  cases w.outcome s.invocations with
  | ok result =>
    refine ⟨fun _ flow => (by cases flow), ?_⟩
    intro r s' flow
    cases flow
    exact h.invoke _ h.same
  | error e =>
    dsimp only
    split
    · generalize s.executor.policy.recordRetry (w.jitter s.invocations) = returned at keeps within
      obtain ⟨delay, policy⟩ := returned
      have same : policy.config = config := keeps.1.trans h.same
      cases delay with
      | none =>
        refine ⟨fun _ flow => (by cases flow), ?_⟩
        intro r s' flow
        cases flow
        exact h.invoke policy same
      | some delay =>
        refine ⟨?_, fun _ _ flow => (by cases flow)⟩
        intro s' flow
        cases flow
        refine ⟨same, ?_⟩
        intro slept mem
        rcases List.mem_append.mp mem with mem | mem
        · exact (h.invoke policy same).sleeps slept mem
        · cases List.mem_singleton.mp mem
          exact within _ rfl
    · refine ⟨fun _ flow => (by cases flow), ?_⟩
      intro r s' flow
      cases flow
      exact h.invoke _ h.same

/-- A second of base delay under a cap of a second. -/
theorem jitter_exceeds_max_delay :
    ¬ RespectsMaxDelay { RetryConfig.default with baseDelay := 1000000000, maxDelay := 1000000000 } := by
  rintro ⟨returned, -⟩
  have bound := returned [7 / 5] (by decide +kernel) 1400000000 (by decide +kernel)
  exact absurd bound (by decide)

/-- **When the delays respect `max_delay`**: without jitter; with a `max_delay` of two milliseconds at most, or of all that
a `u64` of milliseconds can hold; or when the backoff of every attempt within the budget, computed and before the cap,
is at most two thirds of `max_delay` (counted in milliseconds, and one more). Otherwise some jitter lifts some delay
above it. -/
theorem respects_max_delay_iff (config : RetryConfig) :
    RespectsMaxDelay config ↔ config.useJitter = false ∨ config.maxDelay / 10 ^ 6 ≤ 2 ∨
      2 ^ 64 - 1 ≤ config.maxDelay / 10 ^ 6 ∨
      ∀ i < config.maxRetries.toNat, ¬ (config.backoffMultiplier = 0 ∧ 2 ^ 31 ≤ i) ∧
        3 * (millis config.baseDelay * config.backoffMultiplier ^ exponent i) ≤ 2 * (millis config.maxDelay + 1) := by
  constructor
  · rintro ⟨returned, -⟩
    by_contra unfit
    simp only [not_or] at unfit
    obtain ⟨on, short, long, above⟩ := unfit
    refine above fun i within => ?_
    have on' : (config.policyAt i).config.useJitter = true := Bool.eq_true_of_not_eq_false on
    have below : ∀ jitter, 1 / 2 ≤ jitter → jitter < 3 / 2 →
        (config.policyAt i).nextDelay jitter ≤ (config.policyAt i).config.maxDelay := by
      intro jitter low high
      refine returned (List.replicate (i + 1) jitter) ?_ _ (List.mem_of_getElem? (i := i) ?_)
      · intro jitter' mem
        rw [(List.mem_replicate.mp mem).2]
        exact ⟨low, high⟩
      · rw [delays_getElem?]
        exact ⟨jitter, by simp, within, rfl⟩
    have fits := ((forall_nextDelay_iff _ on').mp below).resolve_right long
    exact ((cappedDelay_fits_iff config within).mp fits).resolve_left short
  · intro fits
    refine ⟨?_, ?_⟩
    · intro jitters range delay mem
      obtain ⟨i, at_i⟩ := List.mem_iff_getElem?.mp mem
      obtain ⟨jitter, called, within, rfl⟩ := (delays_getElem? config jitters).mp at_i
      obtain ⟨low, high⟩ := range jitter (List.mem_of_getElem? called)
      exact nextDelay_le fits within low high
    · intro T E w x same range n result last ended
      have start : SleepsWithin config { executor := x, log := [] } := by
        refine ⟨same, ?_⟩
        intro delay mem
        cases mem
      exact (loop_invariant (fun s s' h flow => (h.body fits range).1 s' flow)
        (fun s r s' h flow => (h.body fits range).2 r s' flow) start ended).sleeps

/-! ## The law of the backoff -/

theorem millis_nonneg (ns : Nat) : 0 ≤ millis ns := Nat.cast_nonneg _

/-- A number of milliseconds as a `u64`: within one of the number, unless it is past the `u64`s. -/
theorem asU64_cases {x : ℚ} (nonneg : 0 ≤ x) :
    (asU64 x : ℚ) ≤ x ∧ asU64 x ≤ 2 ^ 64 - 1 ∧ (x < asU64 x + 1 ∨ asU64 x = 2 ^ 64 - 1) := by
  have floor := Nat.floor_le nonneg
  have next := Nat.lt_floor_add_one x
  refine ⟨?_, min_le_right _ _, ?_⟩
  · have below : (asU64 x : ℚ) ≤ ⌊x⌋₊ := by exact_mod_cast min_le_left ⌊x⌋₊ (2 ^ 64 - 1)
    exact below.trans floor
  · unfold asU64
    rcases le_total ⌊x⌋₊ (2 ^ 64 - 1) with fits | big
    · rw [min_eq_left fits]
      exact .inl next
    · exact .inr (min_eq_right big)

theorem millis_bounds (ns : Nat) : millis ns * 10 ^ 6 ≤ ns ∧ (ns : ℚ) < (millis ns + 1) * 10 ^ 6 := by
  have split := Nat.div_add_mod ns (10 ^ 6)
  have rest := Nat.mod_lt ns (Nat.pow_pos (n := 6) (Nat.succ_pos 9))
  rw [millis]
  constructor
  · exact_mod_cast (by omega : ns / 10 ^ 6 * 10 ^ 6 ≤ ns)
  · exact_mod_cast (by omega : ns < (ns / 10 ^ 6 + 1) * 10 ^ 6)

/-- `d` whole milliseconds, below three bounds and within one of the smallest: within two in nanoseconds, where the second
bound was truncated. -/
theorem within_two {d x cap limit whole : ℚ} (belowX : d ≤ x) (belowCap : d ≤ cap) (belowWhole : d ≤ whole)
    (near : min x cap < d + 1 ∨ d = whole) (truncated : cap * 10 ^ 6 ≤ limit) (next : limit < (cap + 1) * 10 ^ 6) :
    |d * 10 ^ 6 - min (min (x * 10 ^ 6) limit) (whole * 10 ^ 6)| < 2 * 10 ^ 6 := by
  have above : d * 10 ^ 6 ≤ min (min (x * 10 ^ 6) limit) (whole * 10 ^ 6) := by
    refine le_min (le_min ?_ ?_) ?_ <;> linarith
  have least : min (min (x * 10 ^ 6) limit) (whole * 10 ^ 6) < (d + 2) * 10 ^ 6 := by
    rcases near with near | full
    · refine (min_le_left _ _).trans_lt ?_
      rcases min_lt_iff.mp near with small | small
      · refine (min_le_left _ _).trans_lt ?_
        linarith
      · refine (min_le_right _ _).trans_lt ?_
        linarith
    · refine (min_le_right _ _).trans_lt ?_
      linarith
  rw [abs_lt]
  constructor <;> linarith

/-- Attempt 3 of a base delay of 1.9 ms, ten times as long each time: 1000 ms instead of 1900. -/
theorem base_truncated :
    let p : RetryPolicy := ⟨{ RetryConfig.default with baseDelay := 1900000, backoffMultiplier := 10, useJitter := false }, 3⟩
    p.nextDelay 1 = 1000000000 ∧
      ¬ |(p.nextDelay 1 : ℚ) - min (p.config.baseDelay * p.config.backoffMultiplier ^ p.attempt.toNat) p.config.maxDelay| <
        2000000 := by
  decide +kernel

/-- **The exponential law**, of the whole milliseconds of the base delay and up to what a `u64` of milliseconds can hold:
without jitter every delay is less than two milliseconds off. -/
theorem follows_law (p : RetryPolicy) (off : p.config.useJitter = false) (growing : 1 ≤ p.config.backoffMultiplier)
    (small : p.attempt.toNat < 2 ^ 31) (jitter : ℚ) :
    |(p.nextDelay jitter : ℚ) -
        min (min ((p.config.baseDelay / 10 ^ 6 * 10 ^ 6 : Nat) * p.config.backoffMultiplier ^ p.attempt.toNat)
          p.config.maxDelay) ((2 ^ 64 - 1) * 10 ^ 6 : Nat)| < 2 * 10 ^ 6 := by
  have power : asI32 p.attempt = p.attempt.toNat := if_pos small
  have positive : 0 < p.config.backoffMultiplier := by linarith
  have capped : p.cappedDelay = min (millis p.config.baseDelay * p.config.backoffMultiplier ^ p.attempt.toNat)
      (millis p.config.maxDelay) := by
    rw [RetryPolicy.cappedDelay, if_neg (fun zero => positive.ne' zero.1), power, zpow_natCast]
  have delay : p.nextDelay jitter = asU64 p.cappedDelay * 10 ^ 6 := by
    rw [RetryPolicy.nextDelay, off]
    rfl
  have rising : 0 ≤ p.cappedDelay := by
    rw [capped]
    exact le_min (mul_nonneg (millis_nonneg _) (pow_nonneg positive.le _)) (millis_nonneg _)
  obtain ⟨below, atMost, near⟩ := asU64_cases rising
  have base : ((p.config.baseDelay / 10 ^ 6 * 10 ^ 6 : Nat) : ℚ) = millis p.config.baseDelay * 10 ^ 6 := by
    rw [millis, Nat.cast_mul, Nat.cast_pow, Nat.cast_ofNat]
  rw [delay, base, mul_right_comm, Nat.cast_mul, Nat.cast_mul, Nat.cast_pow, Nat.cast_ofNat]
  generalize asU64 p.cappedDelay = d at below atMost near ⊢
  rw [capped] at below near
  obtain ⟨belowBackoff, belowMax⟩ := le_min_iff.mp below
  obtain ⟨truncated, next⟩ := millis_bounds p.config.maxDelay
  refine within_two belowBackoff belowMax (Nat.cast_le.mpr atMost) ?_ truncated next
  exact near.imp_right fun full => congrArg Nat.cast full

/-- The same attempt against its truncated base. -/
theorem follows_law_truncated :
    let p : RetryPolicy := ⟨{ RetryConfig.default with baseDelay := 1900000, backoffMultiplier := 10, useJitter := false }, 3⟩
    |(p.nextDelay 1 : ℚ) -
        min (min ((p.config.baseDelay / 10 ^ 6 * 10 ^ 6 : Nat) * p.config.backoffMultiplier ^ p.attempt.toNat)
          p.config.maxDelay) ((2 ^ 64 - 1) * 10 ^ 6 : Nat)| < 2 * 10 ^ 6 := by
  intro p
  exact follows_law p rfl (by decide +kernel) (by decide) 1

/-! ## The backoff of one request -/

/-- The delays of a request never get shorter, and stay as they are from the first one that is `max_delay` in whole
milliseconds. -/
def NeverShrinks (config : RetryConfig) : Prop :=
  ∀ (jitters : List ℚ) (i j d d' : Nat), i < j → (delays config jitters)[i]? = some (some d) →
    (delays config jitters)[j]? = some (some d') → d ≤ d' ∧ (config.maxDelay / 10 ^ 6 * 10 ^ 6 ≤ d → d' = d)

section
variable {config : RetryConfig} {i j : Nat}

/-- Attempt `i` without jitter. -/
theorem nextDelay_policyAt (off : config.useJitter = false) (growing : 1 ≤ config.backoffMultiplier)
    (within : i < config.maxRetries.toNat) (jitter : ℚ) :
    (config.policyAt i).nextDelay jitter =
      asU64 (min (millis config.baseDelay * config.backoffMultiplier ^ exponent i) (millis config.maxDelay)) * 10 ^ 6 := by
  have positive : 0 < config.backoffMultiplier := by linarith
  have off' : (config.policyAt i).config.useJitter = false := off
  have capped := cappedDelay_policyAt config within
  rw [if_neg (fun zero => positive.ne' zero.1)] at capped
  rw [RetryPolicy.nextDelay, off', capped]
  simp only [Bool.false_eq_true, if_false]

/-- It is never more than `max_delay`, so a sequence that never shrinks stays where it has reached it. -/
theorem neverShrinks_of_mono (off : config.useJitter = false)
    (mono : ∀ i j, i < j → j < config.maxRetries.toNat → ∀ jitter jitter',
      (config.policyAt i).nextDelay jitter ≤ (config.policyAt j).nextDelay jitter') : NeverShrinks config := by
  intro jitters i j d d' lt at_i at_j
  obtain ⟨jitter, -, -, rfl⟩ := (delays_getElem? config jitters).mp at_i
  obtain ⟨jitter', -, within, rfl⟩ := (delays_getElem? config jitters).mp at_j
  have grows := mono i j lt within jitter jitter'
  refine ⟨grows, ?_⟩
  intro reached
  have off' : (config.policyAt j).config.useJitter = false := off
  have bound : (config.policyAt j).nextDelay jitter' ≤ config.maxDelay / 10 ^ 6 * 10 ^ 6 := by
    rw [nextDelay_le_iff, off', Nat.mul_div_cancel _ (by decide)]
    exact .inl ((cappedDelay_le _).trans_lt (lt_add_one _))
  omega

/-- The exponents of the two halves of the counter, each rising. -/
theorem exponent_mono (le : i ≤ j) (half : j < 2 ^ 31 ∨ 2 ^ 31 ≤ i) : exponent i ≤ exponent j := by
  unfold exponent
  split <;> split <;> omega

theorem least_le_exponent (i : Nat) : -2 ^ 31 ≤ exponent i := by
  unfold exponent
  split <;> omega

/-- **What the backoff meets where the cast is harmless.** -/
def CastFits (config : RetryConfig) : Prop :=
  config.maxRetries.toNat ≤ 2 ^ 31 ∨ config.backoffMultiplier = 1 ∨ config.baseDelay / 10 ^ 6 = 0 ∨
    min (millis config.maxDelay) (2 ^ 64 - 1) ≤ millis config.baseDelay * config.backoffMultiplier ^ (-2 ^ 31 : Int)

/-- A backoff that is never below the smaller of `max_delay` and the largest `u64` is `max_delay` all the time. -/
theorem asU64_of_full {x : ℚ} {cap : Nat} (full : min (cap : ℚ) (2 ^ 64 - 1) ≤ x) :
    asU64 (min x cap) = min cap (2 ^ 64 - 1) := by
  apply le_antisymm
  · refine le_min ?_ (min_le_right _ _)
    exact asU64_le_iff.mpr (.inl ((min_le_right _ _).trans_lt (lt_add_one _)))
  · refine le_min ?_ (min_le_right _ _)
    apply Nat.le_floor
    rw [Nat.cast_min]
    refine le_min (le_trans ?_ full) (min_le_left _ _)
    norm_num

theorem backoff_mono (growing : 1 ≤ config.backoffMultiplier) (fits : CastFits config) (lt : i < j)
    (within : j < config.maxRetries.toNat) :
    asU64 (min (millis config.baseDelay * config.backoffMultiplier ^ exponent i) (millis config.maxDelay)) ≤
      asU64 (min (millis config.baseDelay * config.backoffMultiplier ^ exponent j) (millis config.maxDelay)) := by
  have rises : ∀ {e e' : Int}, e ≤ e' →
      millis config.baseDelay * config.backoffMultiplier ^ e ≤ millis config.baseDelay * config.backoffMultiplier ^ e' :=
    fun le => mul_le_mul_of_nonneg_left (zpow_le_zpow_right₀ growing le) (millis_nonneg _)
  rcases fits with few | constant | nothing | full
  · apply asU64_mono
    exact min_le_min_right _ (rises (exponent_mono lt.le (.inl (by omega))))
  · rw [constant, one_zpow, one_zpow]
  · have zero : millis config.baseDelay = 0 := by rw [millis, nothing, Nat.cast_zero]
    rw [zero, zero_mul, zero_mul]
  · have first := full.trans (rises (least_le_exponent i))
    have second := full.trans (rises (least_le_exponent j))
    exact (asU64_of_full first).trans_le (asU64_of_full second).ge

/-- Call `i` of as many calls as it takes. -/
theorem delays_replicate (config : RetryConfig) (within : i < config.maxRetries.toNat) {n : Nat} (called : i < n) (jitter : ℚ) :
    (delays config (List.replicate n jitter))[i]? = some (some ((config.policyAt i).nextDelay jitter)) := by
  refine (delays_getElem? config _).mpr ⟨jitter, ?_, within, rfl⟩
  rw [List.getElem?_replicate, if_pos called]

/-- What is below a whole number, below the cap and below the largest `u64` is a shorter delay than that number. -/
theorem asU64_lt {x : ℚ} {base cap : Nat} (nonneg : 0 ≤ x) (lowBase : x < base) (low : x < min (cap : ℚ) (2 ^ 64 - 1)) :
    asU64 (min x cap) < asU64 (min (base : ℚ) cap) := by
  obtain ⟨lowCap, lowWhole⟩ := lt_min_iff.mp low
  have below : asU64 (min x cap) < min base (min cap (2 ^ 64 - 1)) := by
    refine (min_le_left _ _).trans_lt ((Nat.floor_lt (le_min nonneg (Nat.cast_nonneg cap))).mpr ?_)
    refine (min_le_left _ _).trans_lt ?_
    rw [Nat.cast_min, Nat.cast_min]
    refine lt_min lowBase (lt_min lowCap ?_)
    rw [Nat.cast_sub (by norm_num), Nat.cast_pow, Nat.cast_ofNat, Nat.cast_one]
    exact lowWhole
  have above : min base (min cap (2 ^ 64 - 1)) ≤ asU64 (min (base : ℚ) cap) := by
    refine le_min (Nat.le_floor (le_min ?_ ?_)) ?_
    · exact Nat.cast_le.mpr (min_le_left _ _)
    · exact Nat.cast_le.mpr ((min_le_right _ _).trans (min_le_left _ _))
    · exact (min_le_right _ _).trans (min_le_right _ _)
  omega

/-- **The drop**: past the largest `i32` the backoff is smaller than at the start. -/
theorem shrinks (off : config.useJitter = false) (growing : 1 < config.backoffMultiplier)
    (many : 2 ^ 31 < config.maxRetries.toNat) (some : config.baseDelay / 10 ^ 6 ≠ 0)
    (low : millis config.baseDelay * config.backoffMultiplier ^ (-2 ^ 31 : Int) < min (millis config.maxDelay) (2 ^ 64 - 1)) :
    ¬ NeverShrinks config := by
  intro never
  have first := delays_replicate config (i := 0) (by omega) (Nat.succ_pos (2 ^ 31)) 1
  have last := delays_replicate config many (Nat.lt_succ_self (2 ^ 31)) 1
  have rises := (never _ 0 (2 ^ 31) _ _ (by omega) first last).1
  rw [nextDelay_policyAt off growing.le (by omega), nextDelay_policyAt off growing.le many] at rises
  have least : exponent (2 ^ 31) = -2 ^ 31 := by
    unfold exponent
    rw [if_neg (lt_irrefl _)]
    norm_num
  have zero : exponent 0 = 0 := rfl
  rw [least, zero, zpow_zero, mul_one] at rises
  have positive : 0 < config.backoffMultiplier := by linarith
  have base : 0 < millis config.baseDelay := Nat.cast_pos.mpr (Nat.pos_of_ne_zero some)
  have lowBase : millis config.baseDelay * config.backoffMultiplier ^ (-2 ^ 31 : Int) < millis config.baseDelay := by
    have shrunk : config.backoffMultiplier ^ (-2 ^ 31 : Int) < 1 := zpow_lt_one_of_neg₀ growing (by norm_num)
    exact (mul_lt_mul_of_pos_left shrunk base).trans_eq (mul_one _)
  have drop := asU64_lt (mul_nonneg base.le (zpow_nonneg positive.le _)) lowBase low
  exact absurd (Nat.le_of_mul_le_mul_right rises (by norm_num)) (not_le.mpr drop)

end

/-- A base of one millisecond, doubled up to two: attempt `2 ^ 31` has no delay at all. -/
theorem restarted_backoff :
    ¬ NeverShrinks { RetryConfig.default with
      maxRetries := 2147483649, baseDelay := 1000000, maxDelay := 2000000, backoffMultiplier := 2, useJitter := false } := by
  apply shrinks rfl
  · show (1 : ℚ) < 2
    norm_num
  · decide
  · decide
  · have base : millis 1000000 = 1 := by decide +kernel
    have cap : millis 2000000 = 2 := by decide +kernel
    show millis 1000000 * 2 ^ (-2 ^ 31 : Int) < min (millis 2000000) (2 ^ 64 - 1)
    rw [base, cap, one_mul]
    have shrunk : (2 : ℚ) ^ (-2 ^ 31 : Int) < 1 := zpow_lt_one_of_neg₀ one_lt_two (by norm_num)
    refine shrunk.trans ?_
    norm_num

/-- **When the backoff never shrinks**, without jitter and with a multiplier of one at least: a budget within the `i32`s; a
multiplier of one; a base delay of less than a millisecond; or a backoff that has reached `max_delay` (or what a `u64` can
hold) even at the smallest exponent. With any other configuration a request retried `2 ^ 31` times and once more starts
over. -/
theorem never_shrinks_iff (config : RetryConfig) (off : config.useJitter = false)
    (growing : 1 ≤ config.backoffMultiplier) :
    NeverShrinks config ↔
      config.maxRetries.toNat ≤ 2 ^ 31 ∨ config.backoffMultiplier = 1 ∨ config.baseDelay / 10 ^ 6 = 0 ∨
        min (millis config.maxDelay) (2 ^ 64 - 1) ≤ millis config.baseDelay * config.backoffMultiplier ^ (-2 ^ 31 : Int) := by
  constructor
  · intro never
    by_contra unfit
    simp only [not_or, not_le] at unfit
    obtain ⟨many, changes, some, low⟩ := unfit
    exact shrinks off (lt_of_le_of_ne growing (Ne.symm changes)) many some low never
  · intro fits
    refine neverShrinks_of_mono off ?_
    intro i j lt within jitter jitter'
    rw [nextDelay_policyAt off growing (lt.trans within), nextDelay_policyAt off growing within]
    exact Nat.mul_le_mul_right _ (backoff_mono growing fits lt within)

/-- The default backoff, without jitter. -/
theorem never_shrinks_iff_default : NeverShrinks { RetryConfig.default with useJitter := false } :=
  (never_shrinks_iff _ rfl (by decide +kernel)).mpr (.inl (by decide))

end ServiceMesh.Retry
