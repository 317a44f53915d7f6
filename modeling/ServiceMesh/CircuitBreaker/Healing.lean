import ServiceMesh.CircuitBreaker.Cooldown

/-!
# No recovery is lost

From a moment at which the breaker is half open and no call is in progress, successes are reported by any number of calls
at once, with requests in between. Several calls may read `HalfOpen` before any of them counts, and one that is late may
count after another has closed the breaker; but each counts once while the breaker is half open, and the one that brings
the count to the threshold is bound to close it (`Progress`). What closes the breaker also clears its failures.
-/

namespace ServiceMesh.CircuitBreaker

open Conc

/-- Requests and successes only. -/
def Healing (method : Method) : Prop := method = .allowRequest ∨ method = .recordSuccess

instance : DecidablePred Healing := fun method =>
  inferInstanceAs (Decidable (method = .allowRequest ∨ method = .recordSuccess))

/-- Where a call can be: not on the branches for `Open`, and on those for `Closed` only if the breaker is closed. -/
def offOpen (state : State) : Status Pc Reply → Prop
  | .running .allowCount | .running .allowRead => True
  | .running .successRead | .running .successAdd | .running .successClose => True
  | .running .successClearFailures | .running .successClearSuccesses | .running .successReset => state = .Closed
  | .running (.ret _ _) | .done _ => True
  | _ => False

/-- The breaker is never open, and once closed it stays so. -/
theorem healing_outline (config : CircuitBreakerConfig) :
    Outline shared ⟨Healing, fun _ _ _ => True⟩ (fun _ b => b.config = config ∧ b.state ≠ .Open)
      (fun _ _ b st => offOpen b.state st) where
  start i now b method called _ := by
    rcases called with rfl | rfl <;> trivial
  own i now b k _ inv mine := by
    obtain ⟨same, shut⟩ := inv
    rw [show shared.step now b k = k.step now b from rfl, Pc.step_state, Pc.step_config, and_assoc]
    refine ⟨same, ?_⟩
    cases k with
    | allowCount | successClearSuccesses | successReset | ret _ _ => exact ⟨shut, trivial⟩
    | successClearFailures => exact ⟨shut, mine⟩
    | successClose => exact ⟨by simp [Pc.stateStored], rfl⟩
    | allowRead =>
      refine ⟨shut, ?_⟩
      cases state : b.state with
      | Open => exact absurd state shut
      | Closed | HalfOpen => simp only [Pc.step, state]; trivial
    | successRead =>
      refine ⟨shut, ?_⟩
      cases state : b.state with
      | Open => exact absurd state shut
      | HalfOpen => simp only [Pc.step, state]; trivial
      | Closed => simp only [Pc.step, state]; exact rfl
    | successAdd =>
      refine ⟨shut, ?_⟩
      simp only [Pc.step]
      split <;> trivial
    | _ => exact mine.elim
  other i j now b k st _ _ inv mine theirs := by
    rw [show shared.step now b k = k.step now b from rfl, Pc.step_state]
    cases k with
    | successClose =>
      rcases st with ⟨k'⟩ | ⟨reply⟩
      · cases k' <;> first | exact theirs | rfl
      · trivial
    | allowHalfOpen | failureOpen _ | resetClose => exact mine.elim
    | _ => exact theirs
  tick _ _ _ inv := inv
  tickLoc _ _ _ _ _ _ mine := mine

/-! ## What has been counted -/

/-- A `record_success`. -/
abbrev isSuccess : Status Pc Reply → Bool := isCallOf .recordSuccess

/-- A `record_success` past the place where it counts itself in `success_count`, if it read `HalfOpen`. -/
def isCounted : Status Pc Reply → Bool
  | .running .successRead | .running .successAdd => false
  | st => isSuccess st

/-- A call that is about to close the breaker. -/
def isClosing : Status Pc Reply → Bool
  | .running .successClose => true
  | _ => false

/-- A call that has closed the breaker and is about to clear the failures. -/
def isClearing : Status Pc Reply → Bool
  | .running .successClearFailures => true
  | _ => false

/-- The counters against the calls, `base` of which are from before, with `success_count` at `s` then: while the breaker is
half open each call that has counted is in `success_count`, and at the threshold a call is about to close it; what closes it
are enough successes; and when it is closed its failures are cleared, or about to be. -/
structure Progress (config : CircuitBreakerConfig) (s base : Nat) (c : Pool CircuitBreaker Pc Reply) : Prop where
  grown : base ≤ c.count isCounted
  exact : c.shared.state = .HalfOpen → c.shared.successCount.toNat + base = s + c.count isCounted
  closing : c.shared.state = .HalfOpen → base < c.count isCounted →
    config.successThreshold.toNat + base ≤ s + c.count isCounted → 0 < c.count isClosing
  enough : c.shared.state = .Closed ∨ 0 < c.count isClosing →
    base < c.count isSuccess ∧ config.successThreshold.toNat + base ≤ s + c.count isSuccess
  cleared : c.shared.state = .Closed → c.shared.failureCount = 0 ∨ 0 < c.count isClearing

variable {config : CircuitBreakerConfig} {s base : Nat} {c : Pool CircuitBreaker Pc Reply} {i : Nat}

theorem isCounted_le_isSuccess (c : Pool CircuitBreaker Pc Reply) : c.count isCounted ≤ c.count isSuccess := by
  apply List.countP_mono_left
  intro st _ counted
  rcases st with ⟨k⟩ | ⟨reply⟩
  · cases k <;> first | exact counted | cases counted
  · exact counted

/-- A step that leaves the state and both counters alone, and takes the call across none of the counts. -/
theorem Progress.quiet (h : Progress config s base c) {k : Pc} (running : c.calls[i]? = some (.running k))
    (stays : (k.step c.clock c.shared).1.state = c.shared.state ∧
      (k.step c.clock c.shared).1.successCount = c.shared.successCount ∧
      (k.step c.clock c.shared).1.failureCount = c.shared.failureCount)
    (counts : isCounted (k.step c.clock c.shared).2 = isCounted (.running k) ∧
      isClosing (k.step c.clock c.shared).2 = isClosing (.running k) ∧
      isClearing (k.step c.clock c.shared).2 = isClearing (.running k)) :
    Progress config s base (shared.exec c (.step i)) := by
  rw [← shared_after running] at stays
  obtain ⟨state, successes, failures⟩ := stays
  have counted := count_stays running counts.1
  have closing := count_stays running counts.2.1
  have clearing := count_stays running counts.2.2
  refine ⟨counted ▸ h.grown, ?_, ?_, ?_, ?_⟩
  · rw [state, successes, counted]; exact h.exact
  · rw [state, counted, closing]; exact h.closing
  · rw [state, closing, count_isCallOf_step running]; exact h.enough
  · rw [state, failures, clearing]; exact h.cleared

/-- A closed breaker, closed by enough successes. -/
theorem Progress.of_closed (closed : c.shared.state = .Closed) (grown : base ≤ c.count isCounted)
    (enough : base < c.count isSuccess ∧ config.successThreshold.toNat + base ≤ s + c.count isSuccess)
    (cleared : c.shared.failureCount = 0 ∨ 0 < c.count isClearing) : Progress config s base c := by
  refine ⟨grown, ?_, ?_, fun _ => enough, fun _ => cleared⟩
  · rw [closed]
    intro half
    cases half
  · rw [closed]
    intro half
    cases half

/-- The call that counts: the count goes up by one, and at the threshold the call is about to close the breaker. -/
theorem Progress.add (h : Progress config s base c) (same : c.shared.config = config) (shut : c.shared.state ≠ .Open)
    (few : s + c.count isSuccess < 2 ^ 64 + base) (running : c.calls[i]? = some (.running .successAdd)) :
    Progress config s base (shared.exec c (.step i)) := by
  have after : (shared.exec c (.step i)).shared = { c.shared with successCount := c.shared.successCount + 1 } :=
    shared_after running
  have either : ∀ (p : Status Pc Reply → Bool) (b : Bool), p (.running .successClose) = b →
      p (.running (.ret .recordSuccess none)) = b →
      (shared.exec c (.step i)).count p + (p (.running .successAdd)).toNat = c.count p + b.toNat := by
    intro p b closes returns
    rw [count_moves running p]
    simp only [Pc.step]
    split
    · rw [closes]
    · rw [returns]
  have successes : (shared.exec c (.step i)).count isSuccess = c.count isSuccess := count_isCallOf_step running _
  have counted : (shared.exec c (.step i)).count isCounted = c.count isCounted + 1 := either isCounted true rfl rfl
  have clearing : (shared.exec c (.step i)).count isClearing = c.count isClearing := either isClearing false rfl rfl
  have closing := count_moves running isClosing
  have bound := isCounted_le_isSuccess (shared.exec c (.step i))
  have grown := h.grown
  cases state : c.shared.state with
  | Open => exact absurd state shut
  | Closed =>
    have enough := h.enough (.inl state)
    refine .of_closed (by rw [after]; exact state) (by omega) (by omega) ?_
    rw [after, clearing]
    exact h.cleared state
  | HalfOpen =>
    have before := h.exact state
    have value : (c.shared.successCount + 1).toNat = c.shared.successCount.toNat + 1 := by
      rw [UInt64.toNat_add, UInt64.toNat_one]
      omega
    have threshold : c.shared.successCount + 1 ≥ c.shared.config.successThreshold ↔
        config.successThreshold.toNat ≤ c.shared.successCount.toNat + 1 := by
      rw [ge_iff_le, UInt64.le_iff_toNat_le, value, same]
    refine ⟨by omega, ?_, ?_, ?_, ?_⟩
    · simp only [after, value]
      omega
    · intro _ _ reached
      simp only [Pc.step, if_pos (threshold.mpr (by omega)), isClosing, Bool.toNat_true, Bool.toNat_false] at closing
      omega
    · simp only [after, state]
      rintro (closed | about)
      · cases closed
      · simp only [Pc.step] at closing
        split at closing
        · next reached =>
          rw [threshold] at reached
          omega
        · simp only [isClosing, Bool.toNat_false, Nat.add_zero] at closing
          have enough := h.enough (.inr (by omega))
          omega
    · simp only [after, state]
      intro closed
      cases closed

/-- The breaker closes. -/
theorem Progress.close (h : Progress config s base c) (running : c.calls[i]? = some (.running .successClose)) :
    Progress config s base (shared.exec c (.step i)) := by
  have after : (shared.exec c (.step i)).shared = { c.shared with state := .Closed } := shared_after running
  have counted : (shared.exec c (.step i)).count isCounted + 1 = c.count isCounted + 1 := count_moves running isCounted
  have closing : (shared.exec c (.step i)).count isClosing + 1 = c.count isClosing := count_moves running isClosing
  have clearing : (shared.exec c (.step i)).count isClearing = c.count isClearing + 1 := count_moves running isClearing
  have enough := h.enough (.inr (by omega))
  have grown := h.grown
  refine .of_closed (by rw [after]) (by omega) ?_ (.inr (by omega))
  rw [count_isCallOf_step running]
  exact enough

/-- **One step** keeps the progress. -/
theorem Progress.step (h : Progress config s base c) (same : c.shared.config = config) (shut : c.shared.state ≠ .Open)
    (few : s + c.count isSuccess < 2 ^ 64 + base) {k : Pc} (running : c.calls[i]? = some (.running k))
    (place : offOpen c.shared.state (.running k)) : Progress config s base (shared.exec c (.step i)) := by
  -- a step on a closed breaker that has no more to say than that its failures stay cleared
  have closed : c.shared.state = .Closed → (shared.exec c (.step i)).shared.state = .Closed →
      c.count isCounted ≤ (shared.exec c (.step i)).count isCounted →
      ((shared.exec c (.step i)).shared.failureCount = 0 ∨ 0 < (shared.exec c (.step i)).count isClearing) →
      Progress config s base (shared.exec c (.step i)) := by
    intro before after counted cleared
    have grown := h.grown
    refine .of_closed after (by omega) ?_ cleared
    rw [count_isCallOf_step running]
    exact h.enough (.inl before)
  cases k with
  | successAdd => exact h.add same shut few running
  | successClose => exact h.close running
  | allowCount | ret _ _ => exact h.quiet running ⟨rfl, rfl, rfl⟩ ⟨rfl, rfl, rfl⟩
  | allowRead =>
    have stays : (Pc.allowRead.step c.clock c.shared).1 = c.shared := by
      simp only [Pc.step]
      split <;> rfl
    refine h.quiet running (by rw [stays]; exact ⟨rfl, rfl, rfl⟩) ?_
    simp only [Pc.step]
    split <;> exact ⟨rfl, rfl, rfl⟩
  | successRead =>
    cases state : c.shared.state with
    | Open => exact absurd state shut
    | HalfOpen =>
      have next : Pc.successRead.step c.clock c.shared = (c.shared, .running .successAdd) := by
        simp only [Pc.step, state]
      refine h.quiet running ?_ ?_ <;> rw [next] <;> exact ⟨rfl, rfl, rfl⟩
    | Closed =>
      have next : Pc.successRead.step c.clock c.shared = (c.shared, .running .successReset) := by
        simp only [Pc.step, state]
      have after : (shared.exec c (.step i)).shared = c.shared := by rw [shared_after running, next]
      have counted := count_moves running isCounted
      have clearing := count_moves running isClearing
      rw [next] at counted clearing
      have more : (shared.exec c (.step i)).count isCounted = c.count isCounted + 1 := counted
      have still : (shared.exec c (.step i)).count isClearing = c.count isClearing := clearing
      refine closed state (by rw [after]; exact state) (by omega) ?_
      rw [after, still]
      exact h.cleared state
  | successClearFailures =>
    have after : (shared.exec c (.step i)).shared = { c.shared with failureCount := 0 } := shared_after running
    have counted : (shared.exec c (.step i)).count isCounted + 1 = c.count isCounted + 1 := count_moves running isCounted
    exact closed place (by rw [after]; exact place) (by omega) (.inl (by rw [after]))
  | successClearSuccesses =>
    have after : (shared.exec c (.step i)).shared = { c.shared with successCount := 0 } := shared_after running
    have counted : (shared.exec c (.step i)).count isCounted + 1 = c.count isCounted + 1 := count_moves running isCounted
    have clearing : (shared.exec c (.step i)).count isClearing = c.count isClearing := count_moves running isClearing
    refine closed place (by rw [after]; exact place) (by omega) ?_
    rw [after, clearing]
    exact h.cleared place
  | successReset =>
    have after : (shared.exec c (.step i)).shared = { c.shared with failureCount := 0 } := shared_after running
    have counted : (shared.exec c (.step i)).count isCounted + 1 = c.count isCounted + 1 := count_moves running isCounted
    exact closed place (by rw [after]; exact place) (by omega) (.inl (by rw [after]))
  | _ => exact place.elim

/-- A call that begins has counted nothing. -/
theorem Progress.call (h : Progress config s base c) {method : Method} (called : Healing method) :
    Progress config s base (shared.exec c (.call method)) := by
  have nothing : isCounted (.running (shared.start method)) = false ∧ isClosing (.running (shared.start method)) = false ∧
      isClearing (.running (shared.start method)) = false := by
    rcases called with rfl | rfl <;> exact ⟨rfl, rfl, rfl⟩
  obtain ⟨counted, closing, clearing⟩ := nothing
  refine ⟨?_, ?_, ?_, ?_, ?_⟩ <;> simp only [count_call, counted, closing, clearing, Bool.toNat_false, Nat.add_zero]
  · exact h.grown
  · exact h.exact
  · exact h.closing
  · intro closed
    have enough := h.enough closed
    omega
  · exact h.cleared

/-! ## Runs -/

/-- Between calls every `record_success` has counted, and none is about to close the breaker or to clear it. -/
theorem Idle.healed (idle : Idle c) :
    c.count isCounted = c.count isSuccess ∧ c.count isClosing = 0 ∧ c.count isClearing = 0 := by
  refine ⟨List.countP_congr ?_, List.countP_eq_zero.mpr ?_, List.countP_eq_zero.mpr ?_⟩
  · intro st mem
    obtain ⟨reply, rfl⟩ := idle st mem
    rfl
  · intro st mem
    obtain ⟨reply, rfl⟩ := idle st mem
    exact Bool.false_ne_true
  · intro st mem
    obtain ⟨reply, rfl⟩ := idle st mem
    exact Bool.false_ne_true

/-- A half-open breaker between calls starts with what it has counted. -/
theorem progress_idle (idle : Idle c) (half : c.shared.state = .HalfOpen) :
    Progress config c.shared.successCount.toNat (c.count isSuccess) c := by
  obtain ⟨counted, closing, -⟩ := idle.healed
  refine ⟨by omega, fun _ => by omega, fun _ more => by omega, ?_, ?_⟩
  · rintro (closed | about)
    · rw [half] at closed
      cases closed
    · omega
  · rw [half]
    intro closed
    cases closed

theorem offOpen_idle (idle : Idle c) (half : c.shared.state = .HalfOpen) :
    Holds (fun _ b => b.config = c.shared.config ∧ b.state ≠ .Open) (fun _ _ b st => offOpen b.state st) c := by
  refine ⟨⟨rfl, by simp [half]⟩, fun i st at_i => ?_⟩
  obtain ⟨reply, rfl⟩ := idle st (List.mem_of_getElem? at_i)
  trivial

/-- **Every schedule** of requests and fewer than `2 ^ 64` successes keeps the progress. -/
theorem progress_run (idle : Idle c) (half : c.shared.state = .HalfOpen) {labels : List (Label Method)}
    (only : ∀ method, .call method ∈ labels → Healing method)
    (few : c.shared.successCount.toNat + labels.count (.call .recordSuccess) < 2 ^ 64) :
    Progress c.shared.config c.shared.successCount.toNat (c.count isSuccess) (shared.run c labels) := by
  have total : (shared.run c labels).count isSuccess = c.count isSuccess + labels.count (.call .recordSuccess) :=
    count_isCallOf_run c labels _
  -- the number of successes only grows, so it has been small enough all along
  refine (healing_outline c.shared.config).keeps
    (I := fun d => c.shared.successCount.toNat + d.count isSuccess < 2 ^ 64 + c.count isSuccess →
      Progress c.shared.config c.shared.successCount.toNat (c.count isSuccess) d) ?_ ?_ ?_
    (offOpen_idle idle half) (fun _ => progress_idle idle half) (Object.along_calls only) (by omega)
  · intro d t before few
    have progress := before few
    exact ⟨progress.grown, progress.exact, progress.closing, progress.enough, progress.cleared⟩
  · intro d method called before few
    rw [count_call] at few
    exact (before (by omega)).call called
  · intro d i k running holds before few
    rw [count_isCallOf_step running] at few
    exact (before few).step holds.1.1 holds.1.2 few running (holds.2 i _ running)

/-- **No recovery is lost.** From a moment at which the breaker is half open and no call is in progress, however `n` calls of
`record_success` and any number of `allow_request` overlap: once all have returned, the breaker is closed, with its failures
cleared, if there was one and the successes counted before and these come to the threshold; else it is half open and has
counted them all. -/
theorem no_lost_recovery (c : Pool CircuitBreaker Pc Reply) (labels : List (Label Method)) (n : Nat) (idle : Idle c)
    (half : c.shared.state = .HalfOpen) (only : ∀ method, .call method ∈ labels → Healing method)
    (successes : labels.count (.call .recordSuccess) = n) (few : c.shared.successCount.toNat + n < 2 ^ 64)
    (returned : Idle (shared.run c labels)) :
    let after := (shared.run c labels).shared
    after.state = (if 0 < n ∧ c.shared.config.successThreshold.toNat ≤ c.shared.successCount.toNat + n then State.Closed
      else State.HalfOpen) ∧
    (after.state = .Closed → after.failureCount = 0) ∧
    (after.state = .HalfOpen → after.successCount.toNat = c.shared.successCount.toNat + n) := by
  subst successes
  intro after
  have progress := progress_run idle half only few
  have place := (healing_outline c.shared.config).run (offOpen_idle idle half) (Object.along_calls only)
  obtain ⟨counted, closing, clearing⟩ := returned.healed
  have total : (shared.run c labels).count isSuccess = c.count isSuccess + labels.count (.call .recordSuccess) :=
    count_isCallOf_run c labels _
  refine ⟨?_, fun closed => ?_, fun half => ?_⟩
  · cases state : after.state with
    | Open => exact absurd state place.1.2
    | Closed =>
      have enough := progress.enough (.inl state)
      exact (if_pos (by omega)).symm
    | HalfOpen =>
      have short : ¬ (0 < labels.count (.call .recordSuccess) ∧ c.shared.config.successThreshold.toNat ≤
          c.shared.successCount.toNat + labels.count (.call .recordSuccess)) := by
        rintro ⟨some, reached⟩
        have about := progress.closing state (by omega) (by omega)
        omega
      exact (if_neg short).symm
  · have cleared := progress.cleared closed
    exact cleared.resolve_right (by omega)
  · have counts := progress.exact half
    show (shared.run c labels).shared.successCount.toNat = _
    omega

/-- A trip, and the request that finds the timeout elapsed. -/
def probed : List (Label Method) :=
  .call .recordFailure :: List.replicate 7 (.step 0) ++ .tick 10 :: .call .allowRequest :: List.replicate 6 (.step 1)

/-- Two successes that both read `HalfOpen` before either counts, with a request in between, under a threshold of two. -/
theorem no_lost_recovery_overlap :
    (shared.run (shared.run (fresh ⟨1, 10, 2⟩) probed) ([.call .recordSuccess, .call .recordSuccess, .step 2, .step 3,
      .call .allowRequest] ++ List.replicate 5 (.step 2) ++ List.replicate 5 (.step 3) ++ List.replicate 4 (.step 4))).shared.state =
      .Closed :=
  (no_lost_recovery (shared.run (fresh ⟨1, 10, 2⟩) probed) _ 2 (by decide) (by decide) (by intro method; cases method <;> decide)
    (by decide) (by decide) (by decide)).1

end ServiceMesh.CircuitBreaker
