import ServiceMesh.Transport.Clusters
import ServiceMesh.Logic.Component
import ServiceMesh.CircuitBreaker.Cooldown
import ServiceMesh.CircuitBreaker.Wedged

/-!
# The breakers of the endpoints

An endpoint's breaker is reached by the reports to the endpoint, by its `allow_request` and by the `select` calls that ask
it, and by nothing else: whatever goes on in the transport, each breaker runs as a breaker of its own under some schedule
of `allow_request`, `record_success` and `record_failure` (`component`). Nothing calls `reset`; so what a `reset` can do to
a breaker, leaving it open with nothing to measure the timeout from, does not happen to an endpoint.
-/

namespace ServiceMesh.Transport

open Conc

/-- The breaker's method that a call is in at the endpoint `e`. -/
def inBreaker (e : Nat) : Pc → Option CircuitBreaker.Pc
  | .select _ (.ask x k _ _) => if x = e then some k else none
  | .on x (.breaker _ k) => if x = e then some k else none
  | _ => none

/-- What the transport asks of breakers. -/
abbrev Used (method : CircuitBreaker.Method) : Prop := method ≠ .reset

section
variable {e : Nat}

theorem entered_of_none {st : Status Pc Reply} (outside : ∀ k, st = .running k → inBreaker e k = none) :
    Entered CircuitBreaker.shared Used (inBreaker e) st := by
  intro k' into
  cases st with
  | running k =>
    rw [Status.inProgress, Option.bind_some, outside k rfl] at into
    cases into
  | done r => cases into

/-- A `select` asks a breaker from the start. -/
theorem ask_starts {now : Nat} {s : LoadBalancer.Shared 64 Nat} {k : LoadBalancer.Pc Nat} {x : Nat}
    {inner : CircuitBreaker.Pc} {address : String} {rest : List Nat}
    (next : (k.step now s).2 = .running (.ask x inner address rest)) :
    inner = .allowCount ∨ ∃ before, k = .ask x before address rest := by
  have chosen : ∀ (heap : Endpoints Nat) healthy choice, LoadBalancer.Pc.ofChoice heap healthy choice = .ask x inner address rest →
      inner = .allowCount := by
    intro heap healthy choice same
    cases choice <;> cases same
    rfl
  cases k with
  | filter sample healthy rest =>
    cases rest <;> simp only [LoadBalancer.Pc.step] at next <;> (try split at next) <;> cases next
  | choose sample healthy =>
    simp only [LoadBalancer.Pc.step] at next
    split at next
    · exact .inl (chosen _ _ _ (Status.running.inj next))
    · split at next <;> cases next
    · exact .inl (chosen _ _ _ (Status.running.inj next))
    · exact .inl (chosen _ _ _ (Status.running.inj next))
  | least healthy best connections rest =>
    cases rest with
    | nil => exact .inl (chosen _ _ _ (Status.running.inj next))
    | cons y rest =>
      simp only [LoadBalancer.Pc.step] at next
      split at next <;> cases next
  | ask y before address' rest' =>
    simp only [LoadBalancer.Pc.step] at next
    split at next
    · cases next
      exact .inr ⟨before, rfl⟩
    · split at next <;> cases next
  | scan address' rest' =>
    cases rest' with
    | nil => cases next
    | cons y rest' =>
      simp only [LoadBalancer.Pc.step] at next
      split at next
      · cases next
        exact .inl rfl
      · cases next
  | _ => cases next

/-- An endpoint's method comes to its breaker at the start. -/
theorem breaker_starts {now : Nat} {ep : Endpoint} {k : Endpoint.Pc} {method : Endpoint.Method} {inner : CircuitBreaker.Pc}
    (next : (k.step now ep).2 = .running (.breaker method inner)) :
    (∃ called, Used called ∧ inner = CircuitBreaker.shared.start called) ∨ ∃ before, k = .breaker method before := by
  cases k with
  | successTime responseTime =>
    cases next
    exact .inl ⟨.recordSuccess, by decide, rfl⟩
  | failureCount =>
    cases next
    exact .inl ⟨.recordFailure, by decide, rfl⟩
  | breaker method' before =>
    simp only [Endpoint.Pc.step] at next
    split at next
    · cases next
      exact .inr ⟨before, rfl⟩
    · cases next
  | _ => cases next

/-- Outside the breaker of `e`, a step leads at most to its door. -/
theorem entered_step (now : Nat) (t : Transport) {k : Pc} (outside : inBreaker e k = none) :
    Entered CircuitBreaker.shared Used (inBreaker e) (k.step now t).2 := by
  cases k with
  | begin method =>
    cases method with
    | selectEndpoint cluster sample =>
      simp only [Pc.step]
      split <;> exact entered_of_none fun k same => by cases same <;> rfl
    | select b sample =>
      simp only [Pc.step]
      split <;> exact entered_of_none fun k same => by cases same <;> rfl
    | endpoint x method =>
      simp only [Pc.step]
      split
      · cases method with
        | allowRequest =>
          intro k' into
          simp only [Status.inProgress, Option.bind_some, Endpoint.Pc.start, inBreaker] at into
          split at into
          · cases into
            exact ⟨.allowRequest, by decide, rfl⟩
          · cases into
        | _ => exact entered_of_none fun k same => by cases same; rfl
      · exact entered_of_none fun k same => by cases same
    | _ => exact entered_of_none fun k same => by cases same
  | select b k =>
    simp only [Pc.step]
    split
    · next lb at_b =>
      intro k' into
      cases status : (k.step now (t.view lb)).2 with
      | done r =>
        rw [status] at into
        cases into
      | running next =>
        rw [status, Status.inProgress, Option.bind_some] at into
        cases next with
        | ask x inner address rest =>
          rw [inBreaker] at into
          split at into
          · next here =>
            cases into
            rcases ask_starts status with rfl | ⟨before, rfl⟩
            · exact ⟨.allowRequest, by decide, rfl⟩
            · rw [inBreaker, if_pos here] at outside
              cases outside
          · cases into
        | _ => cases into
    · exact entered_of_none fun k same => by cases same
  | on x k =>
    intro k' into
    simp only [Pc.step] at into
    cases status : (k.step now (t.heap x)).2 with
    | done r =>
      rw [status] at into
      cases into
    | running next =>
      rw [status, Status.inProgress, Option.bind_some] at into
      cases next with
      | breaker method inner =>
        rw [inBreaker] at into
        split at into
        · next here =>
          cases into
          rcases breaker_starts status with starts | ⟨before, rfl⟩
          · exact starts
          · rw [inBreaker, if_pos here] at outside
            cases outside
        · cases into
      | _ => cases into

/-- An endpoint's method leaves the breaker alone until it comes to it. -/
theorem step_circuitBreaker (now : Nat) (ep : Endpoint) {k : Endpoint.Pc} (outside : ∀ method inner, k ≠ .breaker method inner) :
    (k.step now ep).1.circuitBreaker = ep.circuitBreaker := by
  cases k with
  | breaker method inner => exact absurd rfl (outside method inner)
  | _ => rfl

theorem circuitBreaker_addCluster {t : Transport} (sound : Sound t) (name : String) (endpoints : List String)
    (policy : LoadBalancingPolicy) (e : Nat) :
    ((t.addCluster name endpoints policy).heap e).circuitBreaker = (t.heap e).circuitBreaker := by
  simp only [addCluster, fromAddresses]
  split
  · next later =>
    rw [sound.unmade e later]
    cases endpoints[e - t.allocated]? <;> rfl
  · rfl

/-- **Each breaker is a component** of the transport, that nobody resets. -/
theorem component (e : Nat) : Component shared CircuitBreaker.shared Used (fun t => (t.heap e).circuitBreaker) (inBreaker e)
    (fun _ t => Sound t) (fun _ _ t st => Stands t st) where
  start _ := entered_of_none fun k same => by cases same; rfl
  without i now t k sound stands outside := by
    refine ⟨?_, entered_step now t outside⟩
    change ((k.step now t).1.heap e).circuitBreaker = _
    rcases step_cases sound now (stands k rfl) with ⟨name, endpoints, policy, -, next⟩ | ⟨-, heap⟩
    · rw [next]
      exact circuitBreaker_addCluster sound name endpoints policy e
    · rcases heap with ⟨b, x, inner, address, rest, rfl, -, -, heap⟩ | ⟨x, k, rfl, -, -, heap⟩ | ⟨-, -, heap⟩
      · have elsewhere : e ≠ x := by
          rintro rfl
          rw [inBreaker, if_pos rfl] at outside
          cases outside
        rw [heap, Function.update_of_ne elsewhere]
      · rw [heap]
        by_cases mine : e = x
        · subst mine
          rw [Function.update_self]
          refine step_circuitBreaker now _ fun method k' => ?_
          rintro rfl
          rw [inBreaker, if_pos rfl] at outside
          cases outside
        · rw [Function.update_of_ne mine]
      · rw [heap]
  within i now t k k' sound stands inside := by
    have placed := stands k rfl
    change ((k.step now t).1.heap e).circuitBreaker = _ ∧ _
    cases k with
    | begin method => cases inside
    | select b k =>
      cases k with
      | ask x inner address rest =>
        rw [inBreaker] at inside
        split at inside
        · next here =>
          cases inside
          subst here
          obtain ⟨lb, at_b, -⟩ := placed
          have heap : ((Pc.select b (.ask x k' address rest)).step now t).1.heap =
              Function.update t.heap x { t.heap x with circuitBreaker := (k'.step now (t.heap x).circuitBreaker).1 } := by
            simp only [Pc.step, at_b, put, view, LoadBalancer.Pc.step, LoadBalancer.Shared.setBreaker, LoadBalancer.share]
          refine ⟨by rw [heap, Function.update_self]; rfl, ?_⟩
          change ((Pc.select b (.ask x k' address rest)).step now t).2.inProgress.bind _ =
            (k'.step now (t.heap x).circuitBreaker).2.inProgress ∨ (k'.step now (t.heap x).circuitBreaker).2.inProgress = none ∧
              Entered _ _ _ ((Pc.select b (.ask x k' address rest)).step now t).2
          simp only [Pc.step, at_b, LoadBalancer.Pc.step, view, LoadBalancer.share]
          cases (k'.step now (t.heap x).circuitBreaker).2 with
          | running next => exact .inl (if_pos rfl)
          | done reply =>
            refine .inr ⟨rfl, entered_of_none fun k same => ?_⟩
            by_cases admitted : reply.answer = some true
            · simp only [if_pos admitted] at same
              cases same
              rfl
            · simp only [if_neg admitted] at same
              cases same
              rfl
        · cases inside
      | _ => cases inside
    | on x k =>
      cases k with
      | breaker method inner =>
        rw [inBreaker] at inside
        split at inside
        · next here =>
          cases inside
          subst here
          refine ⟨by simp only [Pc.step, Function.update_self, Endpoint.Pc.step]; rfl, ?_⟩
          change ((Pc.on x (.breaker method k')).step now t).2.inProgress.bind _ =
            (k'.step now (t.heap x).circuitBreaker).2.inProgress ∨ (k'.step now (t.heap x).circuitBreaker).2.inProgress = none ∧
              Entered _ _ _ ((Pc.on x (.breaker method k')).step now t).2
          simp only [Pc.step, Endpoint.Pc.step]
          cases (k'.step now (t.heap x).circuitBreaker).2 with
          | running next => exact .inl (if_pos rfl)
          | done reply => exact .inr ⟨rfl, entered_of_none fun k same => by cases same⟩
        · cases inside
      | _ => cases inside

end

/-! ## What follows for an endpoint -/

/-- A breaker of its own that is where the breaker of `e` is. -/
structure Shadows (e : Nat) (c : Tasks) (b : Pool CircuitBreaker CircuitBreaker.Pc CircuitBreaker.Reply) : Prop where
  clock : b.clock = c.clock
  state : b.shared = (c.shared.heap e).circuitBreaker
  inside : (c.inside (inBreaker e)).Perm b.inProgress

/-- Before anything is made, each breaker is new. -/
theorem shadows_fresh (now e : Nat) :
    Shadows e (fresh now) (CircuitBreaker.shared.run (CircuitBreaker.fresh .default) [.tick now]) :=
  ⟨Nat.zero_add now, rfl, List.Perm.refl []⟩

/-- Whatever the transport does next, the breaker of its own can follow. -/
theorem Shadows.run {e : Nat} {c : Tasks} {b : Pool CircuitBreaker CircuitBreaker.Pc CircuitBreaker.Reply}
    (h : Shadows e c b) (holds : Holds (fun _ t => Sound t) (fun _ _ t st => Stands t st) c) (ls : List (Label Method)) :
    ∃ ls' : List (Label CircuitBreaker.Method), (∀ m, .call m ∈ ls' → m ≠ .reset) ∧
      Shadows e (shared.run c ls) (CircuitBreaker.shared.run b ls') := by
  obtain ⟨ls', used, projects⟩ := (component e).run outline holds ⟨h.clock, h.state, h.inside⟩
    (Object.along_calls fun m (_ : .call m ∈ ls) => trivial)
  exact ⟨ls', used, projects.clock, projects.shared, projects.calls⟩

theorem shadows_run (now : Nat) (ls : List (Label Method)) (e : Nat) :
    ∃ ls' : List (Label CircuitBreaker.Method), (∀ m, .call m ∈ ls' → m ≠ .reset) ∧
      Shadows e (shared.run (fresh now) ls) (CircuitBreaker.shared.run (CircuitBreaker.fresh .default) ls') := by
  obtain ⟨ls', used, shadows⟩ := (shadows_fresh now e).run (.of_no_calls sound_new) ls
  refine ⟨.tick now :: ls', fun m called => ?_, shadows⟩
  rcases List.mem_cons.mp called with first | later
  · cases first
  · exact used m later

/-- Where nothing resets, no clear of the time is out of time. -/
theorem clearsInTime_of_used {ls : List (Label CircuitBreaker.Method)} (used : ∀ m, .call m ∈ ls → m ≠ .reset) :
    CircuitBreaker.ClearsInTime .default ls := by
  refine Object.every_iff_splits.mpr fun before l after split => ?_
  cases l with
  | call m => trivial
  | tick d => trivial
  | step i =>
    intro running
    have called : ∀ m, .call m ∈ before → m ≠ .reset := fun m mem => used m (split ▸ List.mem_append_left _ mem)
    exact absurd rfl (CircuitBreaker.method_of_running called running)

/-- **Every breaker is on its own**: in every interleaving of all methods of the transport, of balancers and of endpoints, the
breaker of an endpoint is at the state, with the calls in progress, of a default breaker after a schedule of its own methods,
without `reset`; and that schedule goes on with the transport's, wherever that goes. -/
theorem breakers_run_alone (now : Nat) (ls : List (Label Method)) (e : Nat) :
    ∃ ls' : List (Label CircuitBreaker.Method), (∀ m, .call m ∈ ls' → m ≠ .reset) ∧
      Shadows e (shared.run (fresh now) ls) (CircuitBreaker.shared.run (CircuitBreaker.fresh .default) ls') ∧
      ∀ ks : List (Label Method), ∃ ks' : List (Label CircuitBreaker.Method), (∀ m, .call m ∈ ks' → m ≠ .reset) ∧
        Shadows e (shared.run (fresh now) (ls ++ ks)) (CircuitBreaker.shared.run (CircuitBreaker.fresh .default) (ls' ++ ks')) := by
  obtain ⟨ls', used, shadows⟩ := shadows_run now ls e
  refine ⟨ls', used, shadows, fun ks => ?_⟩
  obtain ⟨ks', used', shadows'⟩ := shadows.run (stands_run now ls) ks
  refine ⟨ks', used', ?_⟩
  rw [Object.run_append, Object.run_append]
  exact shadows'

/-- **No endpoint is refused for good**: whatever the tasks have done, an open breaker of an endpoint that no call is inside
of has the time of a failure on record, and lets a request in from thirty seconds after it. -/
theorem endpoint_never_stuck (now : Nat) (ls : List (Label Method)) (e : Nat)
    (nobody : (shared.run (fresh now) ls).inside (inBreaker e) = [])
    (opened : ((shared.run (fresh now) ls).shared.heap e).circuitBreaker.state = .Open) :
    ∃ t ≤ (shared.run (fresh now) ls).clock,
      ((shared.run (fresh now) ls).shared.heap e).circuitBreaker.lastFailureTime = some t ∧
      ∀ later, t + 30 * 10 ^ 9 ≤ later →
        (((shared.run (fresh now) ls).shared.heap e).circuitBreaker.allowRequest later).1 = true := by
  obtain ⟨ls', used, clock, state, inside⟩ := shadows_run now ls e
  rw [nobody] at inside
  rw [← state] at opened ⊢
  rw [← clock]
  have idle : CircuitBreaker.Idle (CircuitBreaker.shared.run (CircuitBreaker.fresh .default) ls') := by
    intro st mem
    cases st with
    | done reply => exact ⟨reply, rfl⟩
    | running k =>
      have running : k ∈ (CircuitBreaker.shared.run (CircuitBreaker.fresh .default) ls').inProgress :=
        List.mem_filterMap.mpr ⟨_, mem, rfl⟩
      rw [← inside.mem_iff] at running
      cases running
  have recorded := CircuitBreaker.Recorded.run (clearsInTime_of_used used)
  have time : (CircuitBreaker.shared.run (CircuitBreaker.fresh .default) ls').shared.lastFailureTime.isSome = true := by
    have none_due := idle.count_isDue
    rcases recorded opened with time | due
    · exact time
    · omega
  obtain ⟨t, time⟩ := Option.isSome_iff_exists.mp time
  have past := ((CircuitBreaker.recorded_outline fun _ => True).run (c := CircuitBreaker.fresh .default)
    (.of_no_calls fun _ none => by cases none) (Object.along_calls fun m (_ : .call m ∈ ls') => trivial)).1
  refine ⟨t, past t time, time, fun later passed => ?_⟩
  rw [← Bool.not_eq_false, CircuitBreaker.allowRequest_eq_false_iff, Bool.eq_false_iff, ne_eq,
    CircuitBreaker.timeoutElapsed_of_some time, CircuitBreaker.config_run]
  rintro ⟨-, early⟩
  have timeout : CircuitBreakerConfig.default.timeout = 30 * 10 ^ 9 := rfl
  omega

/-- An endpoint that five failures have opened, each reported by a call of its own. -/
def opening : List (Label Method) :=
  [.call (.addCluster "api" ["a"] .RoundRobin), .step 0, .tick 7] ++
    (List.range' 1 5).flatMap fun i => .call (.endpoint 0 .recordFailure) :: List.replicate 10 (.step i)

theorem endpoint_never_stuck_opened :
    ∃ t ≤ (shared.run (fresh 0) opening).clock,
      ((shared.run (fresh 0) opening).shared.heap 0).circuitBreaker.lastFailureTime = some t ∧
      ∀ later, t + 30 * 10 ^ 9 ≤ later →
        (((shared.run (fresh 0) opening).shared.heap 0).circuitBreaker.allowRequest later).1 = true :=
  endpoint_never_stuck 0 opening 0 (by decide +kernel) (by decide +kernel)

end ServiceMesh.Transport
