import ServiceMesh.CircuitBreaker.Tasks
import ServiceMesh.Logic.Stale

/-!
# Which state changes can happen when calls overlap

The module documents four changes of the state. Each method reads the state under one lock and
stores under another, so the store may land on a state that the method did not read. For
`record_failure` that does no harm: `Open` may follow `Closed` and `HalfOpen` alike. An
`allow_request` that read `Open` may store `HalfOpen` over `Closed`, and a `record_success` that
read `HalfOpen` may store `Closed` over `Open` (`late_close`); those are the schedules in which
another call's store falls between the read and the store (`transitions_documented_iff`).
-/

namespace ServiceMesh.CircuitBreaker

open Conc

/-- The documented graph: which method changes the state, from which and to which. -/
def documented : List (Method × State × State) :=
  [(.recordFailure, .Closed, .Open), (.recordFailure, .HalfOpen, .Open), (.allowRequest, .Open, .HalfOpen),
    (.recordSuccess, .HalfOpen, .Closed)]

/-- Every step of the schedule that changes the state is one of the documented changes. -/
def TransitionsDocumented (config : CircuitBreakerConfig) (labels : List (Label Method)) : Prop :=
  ∀ before i after k, labels = before ++ .step i :: after →
    (shared.run (fresh config) before).calls[i]? = some (.running k) →
    (shared.run (fresh config) (before ++ [.step i])).shared.state ≠ (shared.run (fresh config) before).shared.state →
    (k.method, (shared.run (fresh config) before).shared.state,
      (shared.run (fresh config) (before ++ [.step i])).shared.state) ∈ documented

/-- The state that a call has read and is to replace. -/
def Pc.decided : Pc → Option State
  | allowCheck | allowHalfOpen => some .Open
  | successAdd | successClose => some .HalfOpen
  | failureAdd => some .Closed
  | failureOpen seen => some seen
  | _ => none

theorem decides : Decides shared (·.state) Pc.stateStored Pc.decided where
  start method := by cases method <;> rfl
  cell_step := Pc.step_state
  step now b k k' v next holds := by
    cases k with
    | allowRead | successRead | failureRead =>
      simp only [shared, Pc.step] at next
      split at next <;> (cases next; cases holds; try exact ⟨rfl, .inr ‹_›⟩)
    | allowCheck | successAdd | failureAdd =>
      simp only [shared, Pc.step] at next
      split at next <;> (cases next; cases holds; try exact ⟨rfl, .inl rfl⟩)
    | failureStamp seen t => cases seen <;> cases next <;> cases holds
    | ret _ _ => cases next
    | _ => cases next; cases holds

/-- In the schedule a call stores `late`, having read `read`, and the store before that, made since the read, was
another call's store of `newer`. -/
def Raced (config : CircuitBreakerConfig) (labels : List (Label Method)) (read newer late : State) : Prop :=
  ∃ before j between i after, labels = before ++ .step j :: between ++ .step i :: after ∧
    Overtaken shared Pc.stateStored Pc.decided (fresh config) before j between i read newer ∧
    ∃ k, (shared.run (fresh config) (before ++ .step j :: between)).calls[i]? = some (.running k) ∧
      k.decided = some read ∧ k.stateStored = some late

/-- An `allow_request` that read `Open` stores `HalfOpen` right after another call's `Closed`, or a
`record_success` that read `HalfOpen` stores `Closed` right after another call's `Open`. -/
def RacedPast (config : CircuitBreakerConfig) (labels : List (Label Method)) : Prop :=
  Raced config labels .Open .Closed .HalfOpen ∨ Raced config labels .HalfOpen .Open .Closed

/-! ## A late store -/

/-- For one failure, one success and a timeout of 10: call 0 trips the breaker at time 0; call 1 is the probe at time
10; call 2 reports a success and has reached its threshold when call 3 reports a failure and stores `Open`; then
call 2 stores `Closed`. -/
def lateStore : List (Label Method) :=
  .call .recordFailure :: List.replicate 7 (.step 0) ++
  .tick 10 :: .call .allowRequest :: List.replicate 6 (.step 1) ++
  .call .recordSuccess :: List.replicate 2 (.step 2) ++
  .call .recordFailure :: List.replicate 3 (.step 3) ++ [.step 2]

/-- The last step takes the breaker from `Open` to `Closed`. -/
theorem late_close :
    (∀ method, .call method ∈ lateStore → method ≠ .reset) ∧ ¬ TransitionsDocumented ⟨1, 10, 1⟩ lateStore := by
  refine ⟨by intro method; cases method <;> decide, fun law => ?_⟩
  have edge := law lateStore.dropLast 2 [] .successClose (by decide) (by decide) (by decide)
  exact absurd edge (by decide)

/-! ## Exactly the late stores -/

/-- A store that changes the state otherwise than documented is an `allow_request` over `Closed`, or a
`record_success` over `Open`. -/
theorem undocumented_cases {k : Pc} {now : Nat} {b : CircuitBreaker} (method : k.method ≠ .reset)
    (changed : (k.step now b).1.state ≠ b.state)
    (bad : (k.method, b.state, (k.step now b).1.state) ∉ documented) :
    (k.decided = some .Open ∧ b.state = .Closed ∧ k.stateStored = some .HalfOpen) ∨
    (k.decided = some .HalfOpen ∧ b.state = .Open ∧ k.stateStored = some .Closed) := by
  rw [Pc.step_state] at changed bad
  cases k with
  | allowHalfOpen =>
    left
    cases state : b.state with
    | Closed => exact ⟨rfl, rfl, rfl⟩
    | Open => rw [state] at bad; exact absurd (by decide) bad
    | HalfOpen => rw [state] at changed; exact absurd rfl changed
  | successClose =>
    right
    cases state : b.state with
    | Closed => rw [state] at changed; exact absurd rfl changed
    | Open => exact ⟨rfl, rfl, rfl⟩
    | HalfOpen => rw [state] at bad; exact absurd (by decide) bad
  | failureOpen seen =>
    cases state : b.state with
    | Open => rw [state] at changed; exact absurd rfl changed
    | Closed | HalfOpen =>
      rw [state] at bad
      exact absurd (by simp [Pc.method, Pc.stateStored, documented]) bad
  | resetClose => exact absurd rfl method
  | _ => exact absurd rfl changed

/-- The decision that such a store acts on was overtaken. -/
theorem raced_of_stale {config : CircuitBreakerConfig} {first after : List (Label Method)} {i : Nat} {k : Pc}
    {read newer late : State} (running : (shared.run (fresh config) first).calls[i]? = some (.running k))
    (decided : k.decided = some read) (state : (shared.run (fresh config) first).shared.state = newer)
    (stale : read ≠ newer) (stored : k.stateStored = some late) :
    Raced config (first ++ .step i :: after) read newer late := by
  rcases decides.current_or_overtaken rfl first running decided with current | ⟨before, j, rest, w, rfl, overtaken⟩
  · exact absurd (current.symm.trans state) stale
  · have last : w = newer := (decides.cell_overtaken overtaken).symm.trans state
    subst last
    exact ⟨before, j, rest, i, after, rfl, overtaken, k, running, decided, stored⟩

/-- A stale store of `late` over `newer` changes the state accordingly. -/
theorem Raced.change {config : CircuitBreakerConfig} {labels : List (Label Method)} {read newer late : State}
    (raced : Raced config labels read newer late) :
    ∃ first i after k, labels = first ++ .step i :: after ∧
      (shared.run (fresh config) first).calls[i]? = some (.running k) ∧
      (shared.run (fresh config) first).shared.state = newer ∧
      (shared.run (fresh config) (first ++ [.step i])).shared.state = late := by
  obtain ⟨before, j, between, i, after, rfl, overtaken, k, running, -, stored⟩ := raced
  refine ⟨before ++ .step j :: between, i, after, k, rfl, running, decides.cell_overtaken overtaken, ?_⟩
  rw [Object.run_append, Object.run_cons, Object.run_nil]
  exact (decides.cell_exec running).trans (by rw [stored, Option.getD_some])

/-- **The documented graph, exactly.** However calls of `allow_request`, `record_success` and
`record_failure` overlap, every change of the state is documented, if and only if no call stores its answer to
a state that another call has since replaced by one it does not lead on from. -/
theorem transitions_documented_iff (config : CircuitBreakerConfig) (labels : List (Label Method))
    (calls : ∀ method, .call method ∈ labels → method ≠ .reset) :
    TransitionsDocumented config labels ↔ ¬ RacedPast config labels := by
  constructor
  · intro law raced
    rcases raced with raced | raced
    · obtain ⟨first, i, after, k, split, running, closed, half⟩ := raced.change
      have edge := law first i after k split running (by rw [closed, half]; decide)
      rw [closed, half] at edge
      revert edge
      cases k.method <;> decide
    · obtain ⟨first, i, after, k, split, running, opened, closed⟩ := raced.change
      have edge := law first i after k split running (by rw [opened, closed]; decide)
      rw [opened, closed] at edge
      revert edge
      cases k.method <;> decide
  · intro unraced before i after k split running changed
    by_contra bad
    apply unraced
    have called : k.method ≠ .reset := by
      refine method_of_running (fun method mem => calls method ?_) running
      rw [split]
      exact List.mem_append_left _ mem
    have step : (shared.run (fresh config) (before ++ [.step i])).shared =
        (k.step (shared.run (fresh config) before).clock (shared.run (fresh config) before).shared).1 := by
      rw [Object.run_append, Object.run_cons, Object.run_nil]
      exact shared_after running
    rw [step] at changed bad
    rw [split]
    rcases undocumented_cases called changed bad with ⟨decided, state, stored⟩ | ⟨decided, state, stored⟩
    · exact .inl (raced_of_stale running decided state (by decide) stored)
    · exact .inr (raced_of_stale running decided state (by decide) stored)

/-- A trip and a probe. -/
theorem transitions_documented_iff_probe :
    TransitionsDocumented ⟨1, 10, 1⟩ (lateStore.take 16) ↔ ¬ RacedPast ⟨1, 10, 1⟩ (lateStore.take 16) :=
  transitions_documented_iff _ _ (by intro method; cases method <;> decide)

end ServiceMesh.CircuitBreaker
