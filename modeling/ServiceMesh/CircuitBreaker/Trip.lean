import ServiceMesh.CircuitBreaker.Cooldown
import ServiceMesh.Logic.Wrapping

/-!
# No trip is lost

Failures are reported by any number of calls at once, and `allow_request` never finds the timeout
elapsed. Several calls may read `Closed` before any of them counts; each that does counts once, and the
one that brings the count to the threshold is bound to open the breaker (`Tally`). So once all calls have
returned, the breaker is open exactly when enough failures were reported.
-/

namespace ServiceMesh.CircuitBreaker

open Conc

/-- Requests and failures only, and every test of the elapsed time finds less than `timeout`. -/
def Early : Object.Env CircuitBreaker Method Pc where
  calls := Cooling
  steps now b k := k = .allowCheck → b.timeoutElapsed now = false

instance : DecidablePred Early.calls := inferInstanceAs (DecidablePred Cooling)

instance (now : Nat) (b : CircuitBreaker) (k : Pc) : Decidable (Early.steps now b k) :=
  inferInstanceAs (Decidable (k = .allowCheck → b.timeoutElapsed now = false))

/-! ## Where the calls can be -/

/-- No call is on the branches for `HalfOpen`. -/
def onPath : Status Pc Reply → Bool
  | .running .allowCount | .running .allowRead | .running .allowCheck => true
  | .running .failureCount | .running .failureRead | .running .failureAdd => true
  | .running (.failureOpen seen) | .running (.failureClock seen) | .running (.failureStamp seen _) => seen ≠ .HalfOpen
  | .running (.ret _ _) => true
  | .done _ => true
  | _ => false

/-- The breaker is never half open. -/
theorem path_outline (config : CircuitBreakerConfig) :
    Outline shared Early (fun _ b => b.config = config ∧ b.state ≠ .HalfOpen) (fun _ _ _ st => onPath st = true) where
  start i now b method called _ := by
    rcases called with rfl | rfl <;> rfl
  own i now b k early inv mine := by
    obtain ⟨same, closed⟩ := inv
    rw [show shared.step now b k = k.step now b from rfl, Pc.step_state, Pc.step_config, and_assoc]
    refine ⟨same, ?_⟩
    cases k with
    | allowRead | failureRead =>
      refine ⟨closed, ?_⟩
      cases state : b.state with
      | HalfOpen => exact absurd state closed
      | Closed | Open => simp only [Pc.step, state]; rfl
    | allowCheck =>
      refine ⟨closed, ?_⟩
      simp only [Pc.step, early rfl]
      rfl
    | failureAdd =>
      refine ⟨closed, ?_⟩
      simp only [Pc.step]
      split <;> rfl
    | failureOpen seen => exact ⟨by simp [Pc.stateStored], mine⟩
    | failureStamp seen t =>
      refine ⟨closed, ?_⟩
      cases seen with
      | HalfOpen => cases mine
      | Closed => rfl
      | Open => rfl
    | allowCount | failureCount | failureClock _ | ret _ _ => exact ⟨closed, mine⟩
    | _ => cases mine
  other _ _ _ _ _ _ _ _ _ _ theirs := theirs
  tick _ _ _ closed := closed
  tickLoc _ _ _ _ _ _ mine := mine

/-! ## What has been counted -/

/-- A `record_failure`. -/
def isFailure (st : Status Pc Reply) : Bool := callMethod st = .recordFailure

/-- A `record_failure` that has counted itself in `total_failures`. -/
def isTotalled : Status Pc Reply → Bool
  | .running .failureCount => false
  | st => isFailure st

/-- A `record_failure` past the place where it counts itself in `failure_count`, if it read `Closed`. -/
def isAdded : Status Pc Reply → Bool
  | .running .failureRead | .running .failureAdd => false
  | st => isTotalled st

/-- A call that is about to open the breaker. -/
def isOpening : Status Pc Reply → Bool
  | .running (.failureOpen _) => true
  | _ => false

/-- The number of failures that opens the breaker. -/
def tripCount (config : CircuitBreakerConfig) : Nat := max 1 config.failureThreshold.toNat

/-- The counters against the calls: `failure_count` never exceeds the calls that have counted, and is their number
while the breaker is closed; at the threshold a call is about to open it; and what opens it are enough failures. -/
structure Tally (config : CircuitBreakerConfig) (c : Pool CircuitBreaker Pc Reply) : Prop where
  total : Wraps c.shared.totalFailures (c.count isTotalled)
  below : c.shared.failureCount.toNat ≤ c.count isAdded
  exact : c.shared.state = .Closed → c.shared.failureCount.toNat = c.count isAdded
  opening : c.shared.state = .Closed → tripCount config ≤ c.count isAdded → 0 < c.count isOpening
  enough : c.shared.state = .Open ∨ 0 < c.count isOpening → tripCount config ≤ c.count isFailure

variable {config : CircuitBreakerConfig} {c : Pool CircuitBreaker Pc Reply}

theorem tally_fresh : Tally config (fresh config) where
  total := Wraps.zero
  below := Nat.le_refl 0
  exact _ := rfl
  opening _ reached := absurd reached (by simp [tripCount, fresh, Pool.count])
  enough opened := by rcases opened with opened | opened <;> cases opened

theorem isAdded_le_isFailure (c : Pool CircuitBreaker Pc Reply) : c.count isAdded ≤ c.count isFailure := by
  apply List.countP_mono_left
  intro st _ added
  rcases st with ⟨k⟩ | ⟨reply⟩
  · cases k <;> first | exact added | cases added
  · exact added

/-- Fewer than `2 ^ 64` calls have counted, so the counter does not wrap. -/
theorem Tally.next_value (h : Tally config c) (few : c.count isAdded + 1 < 2 ^ 64) :
    (c.shared.failureCount + 1).toNat = c.shared.failureCount.toNat + 1 := by
  have below := h.below
  rw [UInt64.toNat_add, UInt64.toNat_one]
  omega

/-- The call that counts: the count goes up by one, and at the threshold the call is about to open the breaker. -/
theorem Tally.add (h : Tally config c) (same : c.shared.config = config) (few : c.count isFailure < 2 ^ 64) {i : Nat}
    (running : c.calls[i]? = some (.running .failureAdd)) : Tally config (shared.exec c (.step i)) := by
  have after : (shared.exec c (.step i)).shared = { c.shared with failureCount := c.shared.failureCount + 1 } :=
    shared_after running
  have either : ∀ p : Status Pc Reply → Bool, p (.running (.failureOpen .Closed)) = true →
      p (.running (.ret .recordFailure none)) = true →
      (shared.exec c (.step i)).count p + (p (.running .failureAdd)).toNat = c.count p + 1 := by
    intro p opens returns
    rw [count_moves running p]
    simp only [Pc.step]
    split
    · rw [opens, Bool.toNat_true]
    · rw [returns, Bool.toNat_true]
  have failures : (shared.exec c (.step i)).count isFailure + 1 = c.count isFailure + 1 := either isFailure rfl rfl
  have totalled : (shared.exec c (.step i)).count isTotalled + 1 = c.count isTotalled + 1 := either isTotalled rfl rfl
  have added : (shared.exec c (.step i)).count isAdded = c.count isAdded + 1 := either isAdded rfl rfl
  have opening := count_moves running isOpening
  have bound := isAdded_le_isFailure (shared.exec c (.step i))
  have below := h.below
  have value := h.next_value (by omega)
  have threshold : c.shared.failureCount + 1 ≥ c.shared.config.failureThreshold ↔
      config.failureThreshold.toNat ≤ c.shared.failureCount.toNat + 1 := by
    rw [ge_iff_le, UInt64.le_iff_toNat_le, value, same]
  refine ⟨?_, ?_, ?_, ?_, ?_⟩
  · rw [after, show (shared.exec c (.step i)).count isTotalled = c.count isTotalled by omega]
    exact h.total
  · simp only [after, value]
    omega
  · simp only [after, value]
    intro closed
    have counted := h.exact closed
    omega
  · simp only [after, tripCount]
    intro closed reached
    have counted := h.exact closed
    simp only [Pc.step, if_pos (threshold.mpr (by omega)), isOpening, Bool.toNat_true, Bool.toNat_false] at opening
    omega
  · simp only [after]
    intro opened
    simp only [Pc.step] at opening
    split at opening
    · next reached =>
      rw [threshold] at reached
      rw [tripCount]
      omega
    · simp only [isOpening, Bool.toNat_false, Nat.add_zero] at opening
      rw [opening] at opened
      have before := h.enough opened
      omega

/-- The step takes the call across none of the counts. -/
structure SameCounts (before after : Status Pc Reply) : Prop where
  failure : isFailure before = isFailure after
  totalled : isTotalled before = isTotalled after
  added : isAdded before = isAdded after
  opening : isOpening before = isOpening after

/-- A step that moves no counter and takes the call across no count. -/
theorem Tally.quiet (h : Tally config c) {i : Nat} {k : Pc} (running : c.calls[i]? = some (.running k))
    (counts : SameCounts (.running k) (k.step c.clock c.shared).2)
    (state : (k.step c.clock c.shared).1.state = c.shared.state)
    (failures : (k.step c.clock c.shared).1.failureCount = c.shared.failureCount)
    (total : (k.step c.clock c.shared).1.totalFailures = c.shared.totalFailures) :
    Tally config (shared.exec c (.step i)) := by
  have same : ∀ p : Status Pc Reply → Bool, p (.running k) = p (k.step c.clock c.shared).2 →
      (shared.exec c (.step i)).count p = c.count p := by
    intro p equal
    have moved := count_moves running p
    rw [equal] at moved
    omega
  rw [← shared_after running] at state failures total
  refine ⟨?_, ?_, ?_, ?_, ?_⟩
  · rw [total, same _ counts.totalled]; exact h.total
  · rw [failures, same _ counts.added]; exact h.below
  · rw [state, failures, same _ counts.added]; exact h.exact
  · rw [state, same _ counts.added, same _ counts.opening]; exact h.opening
  · rw [state, same _ counts.opening, same _ counts.failure]; exact h.enough

/-- A call counts itself in `total_failures`. -/
theorem Tally.total_step (h : Tally config c) {i : Nat} (running : c.calls[i]? = some (.running .failureCount)) :
    Tally config (shared.exec c (.step i)) := by
  have after : (shared.exec c (.step i)).shared = { c.shared with totalFailures := c.shared.totalFailures + 1 } :=
    shared_after running
  have failures : (shared.exec c (.step i)).count isFailure + 1 = c.count isFailure + 1 := count_moves running isFailure
  have totalled : (shared.exec c (.step i)).count isTotalled = c.count isTotalled + 1 := count_moves running isTotalled
  have added : (shared.exec c (.step i)).count isAdded = c.count isAdded := count_moves running isAdded
  have opening : (shared.exec c (.step i)).count isOpening = c.count isOpening := count_moves running isOpening
  refine ⟨?_, ?_, ?_, ?_, ?_⟩
  · rw [after, totalled]; exact h.total.add_one
  · rw [after, added]; exact h.below
  · rw [after, added]; exact h.exact
  · rw [after, added, opening]; exact h.opening
  · rw [after, opening, show (shared.exec c (.step i)).count isFailure = c.count isFailure by omega]; exact h.enough

/-- A call that reads `Open` will not count itself in `failure_count`; the breaker is open already. -/
theorem Tally.read_open (h : Tally config c) {i : Nat} (running : c.calls[i]? = some (.running .failureRead))
    (opened : c.shared.state = .Open) : Tally config (shared.exec c (.step i)) := by
  have next : Pc.failureRead.step c.clock c.shared = (c.shared, .running (.failureClock .Open)) := by
    simp only [Pc.step, opened]
  have after : (shared.exec c (.step i)).shared = c.shared := by rw [shared_after running, next]
  have failures := count_moves running isFailure
  have totalled := count_moves running isTotalled
  have added := count_moves running isAdded
  rw [next] at failures totalled added
  simp only [isFailure, isTotalled, isAdded, callMethod, Pc.method, decide_true, Bool.toNat_true, Bool.toNat_false]
    at failures totalled added
  have below := h.below
  refine ⟨?_, ?_, ?_, ?_, ?_⟩
  · rw [after, show (shared.exec c (.step i)).count isTotalled = c.count isTotalled by omega]
    exact h.total
  · rw [after]
    omega
  · rw [after, opened]
    intro closed
    cases closed
  · rw [after, opened]
    intro closed
    cases closed
  · intro _
    have enough := h.enough (.inl opened)
    omega

/-- The breaker opens. -/
theorem Tally.open_step (h : Tally config c) {i : Nat} {seen : State}
    (running : c.calls[i]? = some (.running (.failureOpen seen))) : Tally config (shared.exec c (.step i)) := by
  have after : (shared.exec c (.step i)).shared = { c.shared with state := .Open } := shared_after running
  have failures : (shared.exec c (.step i)).count isFailure + 1 = c.count isFailure + 1 := count_moves running isFailure
  have totalled : (shared.exec c (.step i)).count isTotalled + 1 = c.count isTotalled + 1 := count_moves running isTotalled
  have added : (shared.exec c (.step i)).count isAdded + 1 = c.count isAdded + 1 := count_moves running isAdded
  have opening : (shared.exec c (.step i)).count isOpening + 1 = c.count isOpening := count_moves running isOpening
  have below := h.below
  have enough := h.enough (.inr (by omega))
  refine ⟨?_, ?_, ?_, ?_, ?_⟩
  · rw [after, show (shared.exec c (.step i)).count isTotalled = c.count isTotalled by omega]
    exact h.total
  · rw [after]
    show c.shared.failureCount.toNat ≤ _
    omega
  · rw [after]
    intro closed
    cases closed
  · rw [after]
    intro closed
    cases closed
  · intro _
    omega

/-- **One step** keeps the tally. -/
theorem Tally.step (h : Tally config c) (same : c.shared.config = config) (few : c.count isFailure < 2 ^ 64)
    {i : Nat} {k : Pc} (running : c.calls[i]? = some (.running k)) (path : onPath (.running k) = true)
    (state : c.shared.state ≠ .HalfOpen) : Tally config (shared.exec c (.step i)) := by
  cases k with
  | failureAdd => exact h.add same few running
  | allowCount | failureClock _ | ret _ _ => exact h.quiet running ⟨rfl, rfl, rfl, rfl⟩ rfl rfl rfl
  | allowRead =>
    have stays : (Pc.allowRead.step c.clock c.shared).1 = c.shared := by
      simp only [Pc.step]
      split <;> rfl
    refine h.quiet running ?_ (by rw [stays]) (by rw [stays]) (by rw [stays])
    simp only [Pc.step]
    split <;> exact ⟨rfl, rfl, rfl, rfl⟩
  | allowCheck =>
    have stays : (Pc.allowCheck.step c.clock c.shared).1 = c.shared := by
      simp only [Pc.step]
      split <;> rfl
    refine h.quiet running ?_ (by rw [stays]) (by rw [stays]) (by rw [stays])
    simp only [Pc.step]
    split <;> exact ⟨rfl, rfl, rfl, rfl⟩
  | failureStamp seen t =>
    refine h.quiet running ?_ rfl rfl rfl
    cases seen with
    | HalfOpen => cases path
    | Closed => exact ⟨rfl, rfl, rfl, rfl⟩
    | Open => exact ⟨rfl, rfl, rfl, rfl⟩
  | failureCount => exact h.total_step running
  | failureRead =>
    cases seen : c.shared.state with
    | HalfOpen => exact absurd seen state
    | Closed =>
      have next : Pc.failureRead.step c.clock c.shared = (c.shared, .running .failureAdd) := by
        simp only [Pc.step, seen]
      refine h.quiet running ?_ ?_ ?_ ?_ <;> rw [next]
      exact ⟨rfl, rfl, rfl, rfl⟩
    | Open => exact h.read_open running seen
  | failureOpen seen => exact h.open_step running
  | _ => cases path

/-- A call that begins has counted nothing. -/
theorem Tally.call (h : Tally config c) {method : Method} (called : Cooling method) :
    Tally config (shared.exec c (.call method)) := by
  have nothing : isTotalled (.running (shared.start method)) = false ∧ isAdded (.running (shared.start method)) = false ∧
      isOpening (.running (shared.start method)) = false := by
    rcases called with rfl | rfl <;> exact ⟨rfl, rfl, rfl⟩
  obtain ⟨totalled, added, opening⟩ := nothing
  refine ⟨?_, ?_, ?_, ?_, ?_⟩ <;> simp only [count_call, totalled, added, opening, Bool.toNat_false, Nat.add_zero]
  · exact h.total
  · exact h.below
  · exact h.exact
  · exact h.opening
  · intro opened
    have enough := h.enough opened
    omega

/-! ## Runs -/

/-- A step makes no failure of another call. -/
theorem failures_step {i : Nat} {k : Pc} (running : c.calls[i]? = some (.running k)) :
    (shared.exec c (.step i)).count isFailure = c.count isFailure :=
  count_isCallOf_step running .recordFailure

/-- The calls of `record_failure` are those of the schedule. -/
theorem failures_run (config : CircuitBreakerConfig) (labels : List (Label Method)) :
    (shared.run (fresh config) labels).count isFailure = labels.count (.call .recordFailure) := by
  have made := count_isCallOf_run (fresh config) labels .recordFailure
  rw [show (fresh config).count (isCallOf .recordFailure) = 0 from rfl, Nat.zero_add] at made
  exact made

theorem path_fresh (config : CircuitBreakerConfig) :
    Holds (fun _ b => b.config = config ∧ b.state ≠ .HalfOpen) (fun _ _ _ st => onPath st = true) (fresh config) := by
  refine .of_no_calls ⟨rfl, ?_⟩
  simp [new]

/-- **Every early schedule** of fewer than `2 ^ 64` failures keeps the tally. -/
theorem tally_run {labels : List (Label Method)} (early : shared.Along Early (fresh config) labels)
    (few : labels.count (.call .recordFailure) < 2 ^ 64) : Tally config (shared.run (fresh config) labels) := by
  rw [← failures_run config] at few
  -- the number of failures only grows, so it has been below `2 ^ 64` all along
  refine (path_outline config).keeps (I := fun c => c.count isFailure < 2 ^ 64 → Tally config c) ?_ ?_ ?_
    (path_fresh config) (fun _ => tally_fresh) early few
  · intro c d before few
    have tally := before few
    exact ⟨tally.total, tally.below, tally.exact, tally.opening, tally.enough⟩
  · intro c method called before few
    rw [count_call] at few
    exact (before (by omega)).call called
  · intro c i k running path before few
    rw [failures_step running] at few
    exact (before few).step path.1.1 few running (path.2 i _ running) path.1.2

/-- Between calls every `record_failure` has counted, and none is about to open the breaker. -/
theorem Idle.counted (idle : Idle c) :
    c.count isTotalled = c.count isFailure ∧ c.count isAdded = c.count isFailure ∧ c.count isOpening = 0 := by
  refine ⟨List.countP_congr ?_, List.countP_congr ?_, List.countP_eq_zero.mpr ?_⟩
  · intro st mem
    obtain ⟨reply, rfl⟩ := idle st mem
    rfl
  · intro st mem
    obtain ⟨reply, rfl⟩ := idle st mem
    rfl
  · intro st mem
    obtain ⟨reply, rfl⟩ := idle st mem
    exact Bool.false_ne_true

/-- **No trip is lost.** However `n` calls of `record_failure` and any number of `allow_request` overlap on a fresh
breaker, if no test of the elapsed time finds the timeout passed, then once all have returned the breaker is open when
`n` is at least the threshold (and one), closed when it is less, and `total_failures` is `n`. -/
theorem no_lost_trip (config : CircuitBreakerConfig) (labels : List (Label Method)) (n : Nat)
    (failures : labels.count (.call .recordFailure) = n) (few : n < 2 ^ 64)
    (early : shared.Along Early (fresh config) labels) (returned : Idle (shared.run (fresh config) labels)) :
    (shared.run (fresh config) labels).shared.state =
        (if max 1 config.failureThreshold.toNat ≤ n then State.Open else State.Closed) ∧
      (shared.run (fresh config) labels).shared.totalFailures.toNat = n := by
  subst failures
  have tally := tally_run early few
  have path := (path_outline config).run (path_fresh config) early
  obtain ⟨totalled, added, opening⟩ := returned.counted
  rw [failures_run] at totalled added
  constructor
  · cases state : (shared.run (fresh config) labels).shared.state with
    | HalfOpen => exact absurd state path.1.2
    | Open =>
      have enough := tally.enough (.inl state)
      rw [failures_run] at enough
      exact (if_pos enough).symm
    | Closed =>
      have short : ¬ tripCount config ≤ labels.count (.call .recordFailure) := by
        intro reached
        have bound := tally.opening state (by omega)
        omega
      exact (if_neg short).symm
  · rw [← totalled] at few ⊢
    exact tally.total.exact few

/-- Two failures that both read `Closed` before either counts, with a request in between, under a threshold of two. -/
theorem no_lost_trip_overlap :
    (shared.run (fresh ⟨2, 10, 1⟩) ([.call .recordFailure, .call .recordFailure, .step 0, .step 1, .step 0, .step 1,
      .call .allowRequest] ++ List.replicate 5 (.step 0) ++ List.replicate 5 (.step 1) ++ List.replicate 4 (.step 2))).shared.state =
      .Open :=
  (no_lost_trip ⟨2, 10, 1⟩ _ 2 (by decide) (by decide) (by decide) (by decide)).1

end ServiceMesh.CircuitBreaker
