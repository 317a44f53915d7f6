import ServiceMesh.CircuitBreaker.Basic

/-!
# What an open breaker remembers

`last_failure_time` is stale in `Closed` and `HalfOpen` and cleared by `reset`; only in `Open`
is it a fact about the history, and there it is the time of the last `record_failure` of all,
late reports included (`open_remembers`). So a rejection is exactly an open breaker whose
last reported failure is younger than the timeout, and the source's branch for a missing
time is never taken.
-/

namespace ServiceMesh.CircuitBreaker

/-- The time of the most recent `record_failure` of a history. -/
def lastFailure (history : List Call) : Option Nat :=
  (history.filter (·.method = .recordFailure)).getLast?.map (·.now)

theorem lastFailure_append {history later : List Call} (quiet : ∀ c ∈ later, c.method ≠ .recordFailure) :
    lastFailure (history ++ later) = lastFailure history := by
  have none_left : later.filter (·.method = .recordFailure) = [] := by
    apply List.filter_eq_nil_iff.mpr
    intro c member
    simpa using quiet c member
  simp [lastFailure, List.filter_append, none_left]

theorem lastFailure_snoc_failure {history : List Call} {c : Call} (failed : c.method = .recordFailure) :
    lastFailure (history ++ [c]) = some c.now := by
  simp [lastFailure, List.filter_append, failed]

theorem after_snoc (config : CircuitBreakerConfig) (history : List Call) (c : Call) :
    after config (history ++ [c]) = ((after config history).call c).2 := by
  simp [after]

/-- How a call can leave the breaker open: it reported a failure and put its own time on
record, or it found the breaker open and left the time alone. -/
theorem call_open_cases {b : CircuitBreaker} {c : Call} (opened : (b.call c).2.state = .Open) :
    (c.method = .recordFailure ∧ (b.call c).2.lastFailureTime = some c.now) ∨
    (c.method ≠ .recordFailure ∧ b.state = .Open ∧ (b.call c).2.lastFailureTime = b.lastFailureTime) := by
  obtain ⟨now, method⟩ := c
  cases method with
  | allowRequest =>
    refine .inr ⟨by simp, ?_⟩
    cases state : b.state with
    | Open =>
      simp only [call, allowRequest, state] at opened ⊢
      split at opened
      · cases opened
      · next early => simp [early]
    | Closed => simp [call, allowRequest, state] at opened
    | HalfOpen => simp [call, allowRequest, state] at opened
  | recordSuccess =>
    refine .inr ⟨by simp, ?_⟩
    cases state : b.state with
    | Open => simp [call, recordSuccess, state]
    | Closed => simp [call, recordSuccess, state] at opened
    | HalfOpen =>
      simp only [call, recordSuccess, state] at opened
      split at opened <;> cases opened
  | recordFailure =>
    refine .inl ⟨rfl, ?_⟩
    cases state : b.state with
    | Closed =>
      simp only [call, recordFailure, state] at opened ⊢
      split at opened
      · next tripped => simp [tripped]
      · cases opened
    | Open => simp [call, recordFailure, state]
    | HalfOpen => simp [call, recordFailure, state]
  | reset => cases opened

/-- An open breaker holds the time of the last reported failure. -/
theorem open_remembers (config : CircuitBreakerConfig) (history : List Call)
    (opened : (after config history).state = .Open) :
    ∃ t, (after config history).lastFailureTime = some t ∧ lastFailure history = some t := by
  induction history using List.reverseRecOn with
  | nil => cases opened
  | append_singleton history c ih =>
    rw [after_snoc] at opened ⊢
    rcases call_open_cases opened with ⟨failed, time⟩ | ⟨quiet, before, time⟩
    · exact ⟨c.now, time, lastFailure_snoc_failure failed⟩
    · obtain ⟨t, held, last⟩ := ih before
      refine ⟨t, time.trans held, ?_⟩
      rw [lastFailure_append (by simpa using quiet)]
      exact last

/-- **The history law.** In `Open` the time on record is that of the most recent
`record_failure` of the whole history; a request is refused exactly when the breaker is open
and less than `timeout` has passed since then; and with no failure reported later, the breaker
admits from `timeout` after the last failure on, whatever else was called. -/
theorem history_law (config : CircuitBreakerConfig) (history : List Call) :
    ((after config history).state = .Open →
      ∃ t, (after config history).lastFailureTime = some t ∧ lastFailure history = some t) ∧
    (∀ now, ((after config history).allowRequest now).1 = false ↔
      (after config history).state = .Open ∧ ∃ t, lastFailure history = some t ∧ now - t < config.timeout) ∧
    (∀ later, (∀ c ∈ later, c.method ≠ .recordFailure) →
      ∀ now, (∀ t, lastFailure history = some t → t + config.timeout ≤ now) →
        ((after config (history ++ later)).allowRequest now).1 = true) := by
  have refused : ∀ history now, ((after config history).allowRequest now).1 = false ↔
      (after config history).state = .Open ∧ ∃ t, lastFailure history = some t ∧ now - t < config.timeout := by
    intro history now
    rw [allowRequest_eq_false_iff]
    refine and_congr_right fun opened => ?_
    obtain ⟨t, time, last⟩ := open_remembers config history opened
    simp [timeoutElapsed, time, last]
  refine ⟨open_remembers config history, refused history, ?_⟩
  intro later quiet now passed
  rw [← Bool.not_eq_false, refused]
  rintro ⟨-, t, last, early⟩
  rw [lastFailure_append quiet] at last
  have := passed t last
  omega

end ServiceMesh.CircuitBreaker
