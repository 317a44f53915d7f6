import ServiceMesh.CircuitBreaker.Tasks

/-!
# Open with no time on record

`record_failure` stores `Open` and then its time; `reset` stores `Closed` first and clears the time
last. A failure that opens the breaker inside a `reset` loses its time to the clear, and the breaker
is left open with nothing to measure the timeout from: it refuses until another failure is reported
(`reset_wedges`). In every other schedule an open breaker has a time on record, or a
`record_failure` is about to put one there (`Recorded.run`), so between calls it has one.
-/

namespace ServiceMesh.CircuitBreaker

open Conc

/-- Between calls an open breaker has a time on record, and so admits from `timeout` after it. -/
def NeverStuck (config : CircuitBreakerConfig) (labels : List (Label Method)) : Prop :=
  ∀ before after, labels = before ++ after → Idle (shared.run (fresh config) before) →
    (shared.run (fresh config) before).shared.state = .Open →
    ∃ t, (shared.run (fresh config) before).shared.lastFailureTime = some t ∧
      ∀ now, t + config.timeout ≤ now → ((shared.run (fresh config) before).shared.allowRequest now).1 = true

/-- The call is a `record_failure` that will put a time on record. -/
def isDue : Status Pc Reply → Bool
  | .running (.failureClock _) => true
  | .running (.failureStamp _ _) => true
  | _ => false

/-- A `reset` clears the time of an open breaker only while a `record_failure` is about to put one there. -/
def InTime (c : Pool CircuitBreaker Pc Reply) : Label Method → Prop
  | .step i => c.calls[i]? = some (.running .resetClearTime) → c.shared.state = .Open → 0 < c.count isDue
  | .call _ => True
  | .tick _ => True

instance (c : Pool CircuitBreaker Pc Reply) : ∀ l : Label Method, Decidable (InTime c l)
  | .step i => inferInstanceAs (Decidable (c.calls[i]? = some (.running .resetClearTime) → _ → 0 < c.count isDue))
  | .call _ => .isTrue trivial
  | .tick _ => .isTrue trivial

/-- Every clear of the schedule is in time. -/
def ClearsInTime (config : CircuitBreakerConfig) (labels : List (Label Method)) : Prop :=
  shared.Every InTime (fresh config) labels

instance (config : CircuitBreakerConfig) (labels : List (Label Method)) : Decidable (ClearsInTime config labels) :=
  Object.decidableEvery shared InTime (fresh config) labels

/-! ## The wedge -/

/-- For one failure and a timeout of 10: call 0 resets, and has stored `Closed` when call 1 reports a failure, opens
the breaker, puts its time on record and returns; then call 0 goes on and clears the time. -/
def resetRace : List (Label Method) :=
  [.call .reset, .step 0] ++ .call .recordFailure :: List.replicate 7 (.step 1) ++ List.replicate 4 (.step 0)

/-- Both calls have returned, the breaker is open, and no request is admitted at any time. -/
theorem reset_wedges :
    Idle (shared.run (fresh ⟨1, 10, 1⟩) resetRace) ∧
    (∀ now, ((shared.run (fresh ⟨1, 10, 1⟩) resetRace).shared.allowRequest now).1 = false) ∧
    ¬ NeverStuck ⟨1, 10, 1⟩ resetRace := by
  have idle : Idle (shared.run (fresh ⟨1, 10, 1⟩) resetRace) := by decide
  have opened : (shared.run (fresh ⟨1, 10, 1⟩) resetRace).shared.state = .Open := by decide
  have cleared : (shared.run (fresh ⟨1, 10, 1⟩) resetRace).shared.lastFailureTime = none := by decide
  refine ⟨idle, fun now => ?_, fun law => ?_⟩
  · rw [allowRequest_eq_false_iff]
    refine ⟨opened, ?_⟩
    simp only [timeoutElapsed, cleared]
  · obtain ⟨t, time, -⟩ := law resetRace [] (by simp) idle opened
    rw [cleared] at time
    cases time

/-! ## Without the wedge -/

/-- An open breaker has a time on record, or will have one. -/
def Recorded (c : Pool CircuitBreaker Pc Reply) : Prop :=
  c.shared.state = .Open → c.shared.lastFailureTime.isSome = true ∨ 0 < c.count isDue

/-- A call that is due to put a time on record stays due until it has. -/
theorem isDue_step {k : Pc} (not_yet : ∀ seen t, k ≠ .failureStamp seen t) (now : Nat) (b : CircuitBreaker) :
    (isDue (.running k)).toNat ≤ (isDue (k.step now b).2).toNat := by
  cases k with
  | failureClock seen => exact Nat.le_refl _
  | failureStamp seen t => exact absurd rfl (not_yet seen t)
  | _ => exact Nat.zero_le _

/-- **One step** of a call keeps the record, if it is not a clear at the wrong time. -/
theorem Recorded.step {c : Pool CircuitBreaker Pc Reply} (h : Recorded c) {i : Nat} {k : Pc}
    (running : c.calls[i]? = some (.running k))
    (inTime : k = .resetClearTime → c.shared.state = .Open → 0 < c.count isDue) :
    Recorded (shared.exec c (.step i)) := by
  have moves := count_moves running isDue
  unfold Recorded
  rw [shared_after running, Pc.step_state, Pc.step_lastFailureTime]
  intro opened
  have stays := fun not_yet => isDue_step (k := k) not_yet c.clock c.shared
  cases k with
  | failureStamp seen t => exact .inl rfl
  | failureOpen seen =>
    right
    simp only [Pc.step, isDue, Bool.toNat_true, Bool.toNat_false] at moves
    omega
  | resetClearTime =>
    right
    have due := inTime rfl opened
    simp only [Pc.step, isDue, Bool.toNat_false] at moves
    omega
  | allowHalfOpen | successClose | resetClose => cases opened
  | _ =>
    -- neither the state nor the time is stored
    rcases h opened with time | due
    · exact .inl time
    · right
      have kept := stays (by simp)
      omega

/-- A clear at the wrong time leaves the breaker open with no time on record and none due. -/
theorem wedged_of_clear {c : Pool CircuitBreaker Pc Reply} {i : Nat} (running : c.calls[i]? = some (.running .resetClearTime))
    (opened : c.shared.state = .Open) (none_due : c.count isDue = 0) : ¬ Recorded (shared.exec c (.step i)) := by
  have moves : (shared.exec c (.step i)).count isDue + 0 = c.count isDue + 0 := count_moves running isDue
  have after : (shared.exec c (.step i)).shared = { c.shared with lastFailureTime := none } := shared_after running
  intro recorded
  rcases recorded (by rw [after]; exact opened) with time | due
  · rw [after] at time
    cases time
  · omega

/-- **Every schedule** whose clears are in time keeps the record. -/
theorem Recorded.run {config : CircuitBreakerConfig} {labels : List (Label Method)}
    (inTime : ClearsInTime config labels) : Recorded (shared.run (fresh config) labels) := by
  refine Object.Every.run ?_ ?_ ?_ inTime (fun opened => by cases opened)
  · exact fun _ _ before => before
  · intro c method _ before opened
    rcases before opened with time | due
    · exact .inl time
    · right
      rw [count_call]
      omega
  · intro c i k running inTime before
    apply before.step running
    intro clears
    subst clears
    exact inTime running

/-- Between calls nothing is due. -/
theorem Idle.count_isDue {c : Pool CircuitBreaker Pc Reply} (idle : Idle c) : c.count isDue = 0 := by
  apply List.countP_eq_zero.mpr
  intro st mem
  obtain ⟨reply, rfl⟩ := idle st mem
  exact Bool.false_ne_true

/-- **Never stuck open, without the race.** In every schedule in which no `reset` clears the time of an open breaker
while no other time is due, an open breaker with no call in progress has a time on record, and admits a request from
`timeout` after it. -/
theorem never_stuck_of_clears_in_time (config : CircuitBreakerConfig) (labels : List (Label Method))
    (inTime : ClearsInTime config labels) : NeverStuck config labels := by
  intro before after split idle opened
  have recorded : Recorded (shared.run (fresh config) before) := by
    unfold ClearsInTime at inTime
    rw [split, Object.every_append] at inTime
    exact Recorded.run inTime.1
  have time : (shared.run (fresh config) before).shared.lastFailureTime.isSome = true := by
    have none_due := idle.count_isDue
    rcases recorded opened with time | due
    · exact time
    · omega
  obtain ⟨t, time⟩ := Option.isSome_iff_exists.mp time
  refine ⟨t, time, ?_⟩
  intro now passed
  rw [← Bool.not_eq_false, allowRequest_eq_false_iff, Bool.eq_false_iff, ne_eq, timeoutElapsed_of_some time, config_run]
  rintro ⟨-, early⟩
  omega

/-- A `reset`, and then a failure that opens the breaker. -/
def resetThenTrip : List (Label Method) :=
  .call .reset :: List.replicate 4 (.step 0) ++ .call .recordFailure :: List.replicate 7 (.step 1)

/-- The clear of the reset is in time, and the breaker that is open in the end has a time on record. -/
theorem never_stuck_of_clears_in_time_reset :
    ClearsInTime ⟨1, 10, 1⟩ resetThenTrip ∧ (shared.run (fresh ⟨1, 10, 1⟩) resetThenTrip).shared.state = .Open ∧
      NeverStuck ⟨1, 10, 1⟩ resetThenTrip := by
  have inTime : ClearsInTime ⟨1, 10, 1⟩ resetThenTrip := by decide
  exact ⟨inTime, by decide, never_stuck_of_clears_in_time ⟨1, 10, 1⟩ resetThenTrip inTime⟩

end ServiceMesh.CircuitBreaker
