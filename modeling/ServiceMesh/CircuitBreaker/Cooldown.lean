import ServiceMesh.CircuitBreaker.Tasks

/-!
# Admission during the cool-down

Tasks call `allow_request` and `record_failure` only. A `record_failure` that returns with the
breaker open should be followed by refusals until `timeout` has passed. `allow_request` tests
the time under one lock and stores `HalfOpen` under another, and nothing repeats the test:
a failure reported in between is forgotten (`race_admits`). The law holds in every schedule in
which each `HalfOpen` is stored while the time on record is still old enough, and the time on
record never goes back (`cools_down_of_orderly`).
-/

namespace ServiceMesh.CircuitBreaker

open Conc

/-- Step `i` is the return of a `record_failure` call, and the breaker is open then. -/
structure ReturnsOpen (c : Pool CircuitBreaker Pc Reply) (i : Nat) : Prop where
  running : ∃ k, c.calls[i]? = some (.running k)
  returned : (shared.exec c (.step i)).calls[i]? = some (.done ⟨.recordFailure, none⟩)
  state : (shared.exec c (.step i)).shared.state = .Open

/-- From `c` on, every `allow_request` that begins and has ended while the clock is short of
`since + timeout` answered `false`. -/
def RefusedFrom (c : Pool CircuitBreaker Pc Reply) (later : List (Label Method)) (since timeout : Nat) : Prop :=
  ∀ before after, later = before ++ .call .allowRequest :: after →
    ∀ answer, (shared.run c later).calls[(shared.run c before).calls.length]? =
        some (.done ⟨.allowRequest, some answer⟩) →
      (shared.run c later).clock < since + timeout → answer = false

/-- No admission during the cool-down: after each `record_failure` that returns at time `t` with
the breaker open, every `allow_request` that begins later and ends before `t + timeout` is refused. -/
def CoolsDown (config : CircuitBreakerConfig) (labels : List (Label Method)) : Prop :=
  ∀ before i later, labels = before ++ .step i :: later →
    ReturnsOpen (shared.run (fresh config) before) i →
    RefusedFrom (shared.exec (shared.run (fresh config) before) (.step i)) later
      (shared.run (fresh config) before).clock config.timeout

/-- The same law, counted from the time `u` that the return leaves on record. -/
def CoolsDownFromRecord (config : CircuitBreakerConfig) (labels : List (Label Method)) : Prop :=
  ∀ before i later u, labels = before ++ .step i :: later →
    ReturnsOpen (shared.run (fresh config) before) i →
    (shared.exec (shared.run (fresh config) before) (.step i)).shared.lastFailureTime = some u →
    RefusedFrom (shared.exec (shared.run (fresh config) before) (.step i)) later u config.timeout

/-- Only the two methods of the law are called. -/
def Cooling (method : Method) : Prop := method = .allowRequest ∨ method = .recordFailure

instance : DecidablePred Cooling := fun method =>
  inferInstanceAs (Decidable (method = .allowRequest ∨ method = .recordFailure))

/-! ## The race -/

/-- The schedule of the race, for one failure and a timeout of 10: call 0 trips the breaker at
time 0; at time 10 call 1 finds the timeout elapsed; call 2 reports a failure at time 10 and
returns with the breaker open; call 1 stores `HalfOpen`; call 3 is admitted at time 10. -/
def race : List (Label Method) :=
  .call .recordFailure :: List.replicate 7 (.step 0) ++
  .tick 10 :: .call .allowRequest :: List.replicate 3 (.step 1) ++
  .call .recordFailure :: List.replicate 4 (.step 2) ++
  .step 2 :: .step 1 ::
  .call .allowRequest :: List.replicate 3 (.step 3)

/-- Call 3 is admitted at time 10, though call 2 returned at time 10 with the breaker open. -/
theorem race_admits :
    (∀ method, .call method ∈ race → Cooling method) ∧ ¬ CoolsDown ⟨1, 10, 1⟩ race := by
  refine ⟨by intro method; cases method <;> decide, fun law => ?_⟩
  have returned : ReturnsOpen (shared.run (fresh ⟨1, 10, 1⟩) (race.take 18)) 2 :=
    ⟨⟨.ret .recordFailure none, by decide⟩, by decide, by decide⟩
  have refused := law (race.take 18) 2 (race.drop 19) (by decide) returned
  have answer := refused [.step 1] (List.replicate 3 (.step 3)) (by decide) true (by decide) (by decide)
  cases answer

/-! ## The law without the race -/

/-- A step takes neither of the two wrong turns: `HalfOpen` is stored while the time on record
passes the test it was admitted by, and a stamp is no older than the time it replaces. -/
def Orderly : Object.Env CircuitBreaker Method Pc where
  calls := Cooling
  steps now b k :=
    (k.stateStored = some .HalfOpen → b.timeoutElapsed now = true) ∧
    ∀ t ∈ k.timeStored.join, ∀ u ∈ b.lastFailureTime, u ≤ t

/-- A `record_failure` that returns with the breaker open returns at the time on record. -/
def Prompt : Object.Env CircuitBreaker Method Pc where
  calls := Cooling
  steps now b k := k = .ret .recordFailure none → b.state = .Open → ∃ u ∈ b.lastFailureTime, now ≤ u

instance : DecidablePred Orderly.calls := inferInstanceAs (DecidablePred Cooling)
instance : DecidablePred Prompt.calls := inferInstanceAs (DecidablePred Cooling)

instance (now : Nat) (b : CircuitBreaker) (k : Pc) : Decidable (Orderly.steps now b k) :=
  inferInstanceAs (Decidable (_ ∧ ∀ t ∈ k.timeStored.join, ∀ u ∈ b.lastFailureTime, u ≤ t))

instance (now : Nat) (b : CircuitBreaker) (k : Pc) : Decidable (Prompt.steps now b k) :=
  inferInstanceAs (Decidable (k = .ret .recordFailure none → b.state = .Open → ∃ u ∈ b.lastFailureTime, now ≤ u))

/-- Times on record, and times about to go on record, are clock readings of the past. -/
theorem recorded_outline (P : Method → Prop) : Outline shared ⟨P, fun _ _ _ => True⟩
    (fun now b => ∀ u ∈ b.lastFailureTime, u ≤ now)
    (fun _ now _ st => ∀ seen t, st = .running (.failureStamp seen t) → t ≤ now) where
  start i now b method _ _ := by
    intro seen t h
    cases method <;> cases h
  own i now b k _ past stamp := by
    constructor
    · intro u recorded
      rw [show shared.step now b k = k.step now b from rfl, Pc.step_lastFailureTime] at recorded
      cases k with
      | failureStamp seen t =>
        cases recorded
        exact stamp seen _ rfl
      | resetClearTime => cases recorded
      | _ => exact past u recorded
    · intro seen t next
      exact Nat.le_of_eq (Pc.step_stamp next)
  other _ _ _ _ _ _ _ _ _ _ theirs := theirs
  tick now d b past := fun u recorded => Nat.le_trans (past u recorded) (Nat.le_add_right now d)
  tickLoc i now d b st _ stamp := fun seen t h => Nat.le_trans (stamp seen t h) (Nat.le_add_right now d)

/-- What a call that began after the failure at `u` may be doing while the cool-down lasts: it
has not been admitted. -/
def Refusing : Status Pc Reply → Prop
  | .running .allowHalfOpen | .running .allowClear => False
  | .running (.ret .allowRequest answer) => answer = some false
  | .done ⟨.allowRequest, answer⟩ => answer = some false
  | _ => True

/-- From a state in which the breaker is open with `u` on record, orderly steps keep it open and
the record at `u` or later until `u + timeout`, and calls numbered from `n` on are not admitted. -/
theorem cooling_outline (config : CircuitBreakerConfig) (u n : Nat) : Outline shared Orderly
    (fun now b => u ≤ now ∧ b.config = config ∧ (∃ v, u ≤ v ∧ b.lastFailureTime = some v) ∧
      (now < u + config.timeout → b.state = .Open))
    (fun i now _ st => Cooling (callMethod st) ∧ (n ≤ i → now < u + config.timeout → Refusing st)) where
  start i now b method cooling _ := by
    refine ⟨by cases method <;> exact cooling, ?_⟩
    intro _ _
    cases method <;> trivial
  own i now b k orderly inv mine := by
    obtain ⟨past, same, ⟨v, since, time⟩, opened⟩ := inv
    obtain ⟨cooling, refusing⟩ := mine
    rw [show shared.step now b k = k.step now b from rfl]
    refine ⟨⟨past, (Pc.step_config now b k).trans same, ?_, fun early => ?_⟩,
      (Pc.step_method now b k).symm ▸ cooling, fun late early => ?_⟩
    · rw [Pc.step_lastFailureTime]
      cases k with
      | failureStamp seen t => exact ⟨t, Nat.le_trans since (orderly.2 t rfl v time), rfl⟩
      | resetClearTime => rcases cooling with h | h <;> cases h
      | _ => exact ⟨v, since, time⟩
    · rw [Pc.step_state]
      cases k with
      | allowHalfOpen =>
        have elapsed := (timeoutElapsed_of_some time).mp (orderly.1 rfl)
        rw [same] at elapsed
        omega
      | failureOpen _ => rfl
      | successClose | resetClose => rcases cooling with h | h <;> cases h
      | _ => exact opened early
    · have refused := refusing late early
      cases k with
      | allowRead => simp only [Pc.step, opened early]; trivial
      | allowCheck =>
        have young : ¬ b.timeoutElapsed now = true := by
          rw [timeoutElapsed_of_some time, same]
          omega
        simp only [Pc.step, if_neg young]
        rfl
      | allowHalfOpen | allowClear => exact refused.elim
      | ret method answer => cases method <;> exact refused
      | successRead | failureRead => simp only [Pc.step]; split <;> trivial
      | successAdd | failureAdd => simp only [Pc.step]; split <;> trivial
      | failureStamp seen t => cases seen <;> trivial
      | _ => trivial
  other _ _ _ _ _ _ _ _ _ _ theirs := theirs
  tick now d b inv := by
    obtain ⟨past, same, recorded, opened⟩ := inv
    exact ⟨by omega, same, recorded, fun early => opened (by omega)⟩
  tickLoc i now d b st _ mine := ⟨mine.1, fun late early => mine.2 late (by omega)⟩

theorem RefusedFrom.earlier {c : Pool CircuitBreaker Pc Reply} {later : List (Label Method)} {since u timeout : Nat}
    (refused : RefusedFrom c later u timeout) (le : since ≤ u) : RefusedFrom c later since timeout := by
  intro before after split answer ended early
  exact refused before after split answer ended (by omega)

theorem from_record_of_orderly {config : CircuitBreakerConfig} {labels : List (Label Method)}
    (orderly : shared.Along Orderly (fresh config) labels) : CoolsDownFromRecord config labels := by
  intro before i later u split returned time first rest again answer ended early
  subst split
  have along := Object.along_append.mp orderly
  have cooling : shared.Along ⟨Cooling, fun _ _ _ => True⟩ (fresh config) before := by
    refine Object.Along.mono ?_ ?_ along.1
    · exact fun _ called => called
    · exact fun _ _ _ _ => trivial
  have made : shared.Along ⟨Cooling, fun _ _ _ => True⟩ (fresh config) (before ++ [.step i]) :=
    Object.along_append.mpr ⟨cooling, fun _ _ => trivial, trivial⟩
  have past := (recorded_outline Cooling).run (c := fresh config) (.of_no_calls (by simp [new])) made
  have frame := (frame_outline Cooling config).run (c := fresh config) (.of_no_calls rfl) made
  rw [Object.run_append] at past frame
  -- the calls that begin from here on are numbered past those already made
  have cooled := (cooling_outline config u
      (shared.exec (shared.run (fresh config) before) (.step i)).calls.length).run
    ⟨⟨past.1 u time, frame.1, ⟨u, Nat.le_refl u, time⟩, fun _ => returned.state⟩,
      fun j st at_j => ⟨frame.2 j st at_j, fun late _ =>
        absurd (List.getElem?_eq_some_iff.mp at_j).1 (Nat.not_lt.mpr late)⟩⟩ along.2.2
  have refusing := (cooled.2 _ _ ended).2 (Object.length_le_run shared _ first) early
  exact Option.some.inj refusing

theorem CoolsDownFromRecord.prompt {config : CircuitBreakerConfig} {labels : List (Label Method)}
    (law : CoolsDownFromRecord config labels) (prompt : shared.Along Prompt (fresh config) labels) :
    CoolsDown config labels := by
  intro before i later split returned
  obtain ⟨k, running⟩ := returned.running
  have ended := returned.returned
  rw [Object.status_exec running] at ended
  have last : k = .ret .recordFailure none := Pc.step_done (Option.some.inj ended)
  subst last
  have opened := returned.state
  rw [shared_after running] at opened
  rw [split] at prompt
  have permitted := (Object.along_append.mp prompt).2.1
  obtain ⟨u, time, reached⟩ := permitted _ running rfl opened
  refine (law before i later u split returned ?_).earlier reached
  rw [shared_after running]
  exact time

/-- **The cool-down law without the race.** In every schedule of orderly steps, an open breaker
that a returning `record_failure` leaves with `u` on record refuses every later `allow_request`
that ends before `u + timeout`; and if each such return happens at the time on record, that is
the law counted from the return. -/
theorem cools_down_of_orderly (config : CircuitBreakerConfig) (labels : List (Label Method))
    (orderly : shared.Along Orderly (fresh config) labels) :
    CoolsDownFromRecord config labels ∧ (shared.Along Prompt (fresh config) labels → CoolsDown config labels) := by
  have law := from_record_of_orderly orderly
  exact ⟨law, law.prompt⟩

/-- A trip at time 0 and a request at time 9 under a timeout of 10. -/
theorem cools_down_of_orderly_trip :
    shared.Along Orderly (fresh ⟨1, 10, 1⟩)
      (.call .recordFailure :: List.replicate 7 (.step 0) ++ .tick 9 :: .call .allowRequest :: List.replicate 4 (.step 1)) ∧
    CoolsDown ⟨1, 10, 1⟩
      (.call .recordFailure :: List.replicate 7 (.step 0) ++ .tick 9 :: .call .allowRequest :: List.replicate 4 (.step 1)) :=
  ⟨by decide, (cools_down_of_orderly _ _ (by decide)).2 (by decide)⟩

/-! ## From a moment when nobody is inside -/

/-- What a call may be doing while the breaker rests: it has not been admitted, it stores no state, and what it puts on
record is no older than `u`. -/
def Resting (u : Nat) : Status Pc Reply → Prop
  | .running .allowCount | .running .allowRead | .running .allowCheck => True
  | .running .successRead => True
  | .running .failureCount | .running .failureRead | .running (.failureClock .Open) => True
  | .running (.failureStamp .Open t) => u ≤ t
  | .running (.ret method answer) | .done ⟨method, answer⟩ => method = .allowRequest → answer = some false
  | _ => False

/-- **An open breaker rests**: calls that find it open leave it open, until `timeout` after the time on record. -/
theorem resting_outline (timeout u : Nat) : Outline shared ⟨(· ≠ .reset), fun _ _ _ => True⟩
    (fun now b => u ≤ now ∧ b.config.timeout = timeout ∧
      (now < u + timeout → b.state = .Open ∧ ∃ v, u ≤ v ∧ b.lastFailureTime = some v))
    (fun _ now _ st => now < u + timeout → Resting u st) where
  start i now b method called _ _ := by
    cases method with
    | reset => exact absurd rfl called
    | _ => trivial
  own i now b k _ inv mine := by
    obtain ⟨past, same, rests⟩ := inv
    rw [show shared.step now b k = k.step now b from rfl]
    refine ⟨⟨past, (congrArg (·.timeout) (Pc.step_config now b k)).trans same, fun early => ?_⟩, fun early => ?_⟩
    · obtain ⟨opened, v, since, time⟩ := rests early
      have resting := mine early
      rw [Pc.step_state, Pc.step_lastFailureTime]
      cases k with
      | allowCount | allowRead | allowCheck | successRead | failureCount | failureRead | failureClock _ | ret _ _ =>
        exact ⟨opened, v, since, time⟩
      | failureStamp seen t =>
        cases seen with
        | Open => exact ⟨opened, t, resting, rfl⟩
        | Closed | HalfOpen => exact resting.elim
      | _ => exact resting.elim
    · obtain ⟨opened, v, since, time⟩ := rests early
      have resting := mine early
      cases k with
      | allowCount | failureCount => trivial
      | allowRead | failureRead =>
        simp only [Pc.step, opened]
        trivial
      | allowCheck =>
        have young : ¬ b.timeoutElapsed now = true := by
          rw [timeoutElapsed_of_some time, same]
          omega
        simp only [Pc.step, if_neg young]
        exact fun _ => rfl
      | successRead =>
        simp only [Pc.step, opened]
        exact fun impossible => by cases impossible
      | failureClock seen =>
        cases seen with
        | Open => exact past
        | Closed | HalfOpen => exact resting.elim
      | failureStamp seen t =>
        cases seen with
        | Open => exact fun impossible => by cases impossible
        | Closed | HalfOpen => exact resting.elim
      | ret method answer => exact resting
      | _ => exact resting.elim
  other _ _ _ _ _ _ _ _ _ _ theirs := theirs
  tick now d b inv := by
    obtain ⟨past, same, rests⟩ := inv
    exact ⟨by omega, same, fun early => rests (by omega)⟩
  tickLoc i now d b st _ mine := fun early => mine (by omega)

end ServiceMesh.CircuitBreaker
