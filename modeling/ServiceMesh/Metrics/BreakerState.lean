import ServiceMesh.Metrics.Basic

/-!
# The gauge of the circuit breakers (`metrics.rs`)

`circuit_breaker_state` is a family of gauges whose labels name the upstream and the state. Recording a state sets the
gauge of that state and touches no other, so the gauges of earlier states stay with the values they had: the family
shows every state that an upstream was ever recorded in (`series_iff`), and the current one only where there was no
other (`shows_current_state_iff`).
-/

namespace ServiceMesh

/-- `CircuitBreakerLabels`. -/
structure CircuitBreakerLabels where
  upstream : String
  state : String
deriving Repr, DecidableEq

/-- The metrics that the states of circuit breakers are recorded in; a gauge is an `i64`. -/
structure BreakerMetrics where
  circuitBreakerState : Family CircuitBreakerLabels Int
  circuitBreakerTripsTotal : Family CircuitBreakerLabels UInt64
deriving Repr, DecidableEq

/-- The arguments of `Metrics::record_circuit_breaker_state`. -/
structure StateRecord where
  upstream : String
  state : String
  isTrip : Bool
deriving Repr, DecidableEq

def StateRecord.labels (r : StateRecord) : CircuitBreakerLabels := { upstream := r.upstream, state := r.state }

/-- The value of a gauge for a state. -/
def stateValue (state : String) : Int :=
  if state = "closed" then 0
  else if state = "open" then 1
  else if state = "half_open" then 2
  else 0

namespace BreakerMetrics

def new : BreakerMetrics := { circuitBreakerState := [], circuitBreakerTripsTotal := [] }

/-- `record_circuit_breaker_state`; the lock is not poisoned. -/
def recordCircuitBreakerState (m : BreakerMetrics) (r : StateRecord) : BreakerMetrics :=
  let m := { m with circuitBreakerState := m.circuitBreakerState.update r.labels 0 fun _ => stateValue r.state }
  if r.isTrip then { m with circuitBreakerTripsTotal := m.circuitBreakerTripsTotal.inc r.labels } else m

/-- The metrics after a sequence of records. -/
def recorded (records : List StateRecord) : BreakerMetrics := records.foldl recordCircuitBreakerState new

end BreakerMetrics

/-- The state most recently recorded for an upstream. -/
def currentState (upstream : String) (records : List StateRecord) : Option String :=
  ((records.filter fun r => r.upstream = upstream).getLast?).map StateRecord.state

/-- Every exported series of an upstream has the value and the label of the state most recently recorded for it. -/
def ShowsCurrentState (records : List StateRecord) : Prop :=
  ∀ series ∈ (BreakerMetrics.recorded records).circuitBreakerState,
    ∃ state, currentState series.1.upstream records = some state ∧ series.2 = stateValue state ∧ series.1.state = state

namespace Family

variable {L V : Type} [DecidableEq L]

/-- Setting a gauge makes its series, or gives it the value. -/
theorem mem_set (labels : L) (fresh value : V) (family : Family L V) :
    (labels, value) ∈ family.update labels fresh fun _ => value := by
  induction family with
  | nil => exact List.mem_singleton_self _
  | cons series rest ih =>
    obtain ⟨l, v⟩ := series
    unfold update
    split
    · next found =>
      subst found
      exact List.mem_cons_self
    · exact List.mem_cons_of_mem _ ih

/-- It makes no other series. -/
theorem of_mem_set {labels : L} {fresh value : V} {family : Family L V} {series : L × V}
    (mem : series ∈ family.update labels fresh fun _ => value) : series = (labels, value) ∨ series ∈ family := by
  induction family with
  | nil => exact .inl (List.mem_singleton.mp mem)
  | cons first rest ih =>
    obtain ⟨l, v⟩ := first
    unfold update at mem
    split at mem
    · next found =>
      subst found
      exact (List.mem_cons.mp mem).imp_right (List.mem_cons_of_mem _)
    · rcases List.mem_cons.mp mem with same | mem
      · exact .inr (same ▸ List.mem_cons_self)
      · exact (ih mem).imp_right (List.mem_cons_of_mem _)

/-- It leaves the series with other labels as they are. -/
theorem mem_set_of_ne {labels : L} {fresh value : V} {family : Family L V} {series : L × V} (mem : series ∈ family)
    (other : series.1 ≠ labels) : series ∈ family.update labels fresh fun _ => value := by
  induction family with
  | nil => cases mem
  | cons first rest ih =>
    obtain ⟨l, v⟩ := first
    unfold update
    rcases List.mem_cons.mp mem with same | mem
    · subst same
      rw [if_neg other]
      exact List.mem_cons_self
    · split
      · exact List.mem_cons_of_mem _ mem
      · exact List.mem_cons_of_mem _ (ih mem)

end Family

namespace BreakerMetrics

theorem recorded_append (records : List StateRecord) (r : StateRecord) :
    recorded (records ++ [r]) = (recorded records).recordCircuitBreakerState r := by
  rw [recorded, List.foldl_append]
  rfl

theorem circuitBreakerState_record (m : BreakerMetrics) (r : StateRecord) :
    (m.recordCircuitBreakerState r).circuitBreakerState =
      m.circuitBreakerState.update r.labels 0 fun _ => stateValue r.state := by
  unfold recordCircuitBreakerState
  dsimp only
  split <;> rfl

end BreakerMetrics

/-- **The series exported** are those of all the states ever recorded, each with the value of its own state. -/
theorem series_iff (records : List StateRecord) (series : CircuitBreakerLabels × Int) :
    series ∈ (BreakerMetrics.recorded records).circuitBreakerState ↔
      ∃ r ∈ records, series = (r.labels, stateValue r.state) := by
  induction records using List.reverseRecOn with
  | nil =>
    constructor
    · intro mem
      cases mem
    · rintro ⟨r, mem, -⟩
      cases mem
  | append_singleton records r ih =>
    rw [BreakerMetrics.recorded_append, BreakerMetrics.circuitBreakerState_record]
    constructor
    · intro mem
      rcases Family.of_mem_set mem with same | old
      · exact ⟨r, List.mem_append_right _ (List.mem_singleton_self r), same⟩
      · obtain ⟨r', mem', same⟩ := ih.mp old
        exact ⟨r', List.mem_append_left _ mem', same⟩
    · rintro ⟨r', mem', rfl⟩
      rcases List.mem_append.mp mem' with old | new
      · by_cases same : r'.labels = r.labels
        · have state : r'.state = r.state := congrArg CircuitBreakerLabels.state same
          rw [same, state]
          exact Family.mem_set _ _ _ _
        · exact Family.mem_set_of_ne (ih.mpr ⟨r', old, rfl⟩) same
      · rw [List.mem_singleton.mp new]
        exact Family.mem_set _ _ _ _

/-- An upstream that was recorded has a most recent state, one that it was recorded in. -/
theorem exists_currentState {records : List StateRecord} {r : StateRecord} (mem : r ∈ records) :
    ∃ last ∈ records, last.upstream = r.upstream ∧ currentState r.upstream records = some last.state := by
  have mine : r ∈ records.filter fun q => q.upstream = r.upstream := List.mem_filter.mpr ⟨mem, decide_eq_true rfl⟩
  have ends := List.getLast?_eq_some_getLast (List.ne_nil_of_mem mine)
  obtain ⟨recorded, same⟩ := List.mem_filter.mp (List.getLast_mem (List.ne_nil_of_mem mine))
  refine ⟨_, recorded, of_decide_eq_true same, ?_⟩
  rw [currentState, ends]
  rfl

/-- The breaker of an upstream trips and is probed: the gauge of the open state still shows 1. -/
theorem stale_series :
    ¬ ShowsCurrentState [⟨"http://upstream:8080", "open", true⟩, ⟨"http://upstream:8080", "half_open", false⟩] := by
  intro shows
  obtain ⟨state, current, -, label⟩ := shows (⟨"http://upstream:8080", "open"⟩, 1) (by decide)
  have last : currentState "http://upstream:8080"
      [⟨"http://upstream:8080", "open", true⟩, ⟨"http://upstream:8080", "half_open", false⟩] = some "half_open" := by decide
  rw [last] at current
  cases current
  exact absurd label (by decide)

/-- **When the gauge shows the current states**: no upstream is recorded in two different ones. -/
theorem shows_current_state_iff (records : List StateRecord) :
    ShowsCurrentState records ↔ ∀ r ∈ records, ∀ r' ∈ records, r.upstream = r'.upstream → r.state = r'.state := by
  constructor
  · intro shows r mem r' mem' same
    obtain ⟨state, current, -, label⟩ := shows _ ((series_iff records _).mpr ⟨r, mem, rfl⟩)
    obtain ⟨state', current', -, label'⟩ := shows _ ((series_iff records _).mpr ⟨r', mem', rfl⟩)
    have one : some state = some state' := by
      rw [← current, ← current']
      exact congrArg (currentState · records) same
    calc r.state = state := label
      _ = state' := Option.some.inj one
      _ = r'.state := label'.symm
  · intro single series exported
    obtain ⟨r, mem, rfl⟩ := (series_iff records series).mp exported
    obtain ⟨last, mem', same, current⟩ := exists_currentState mem
    have state := single r mem last mem' same.symm
    exact ⟨last.state, current, congrArg stateValue state, state⟩

end ServiceMesh
