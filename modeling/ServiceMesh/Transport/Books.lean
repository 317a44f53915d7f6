import ServiceMesh.Transport.Clusters
import ServiceMesh.Logic.Accounts

/-!
# The books of the endpoints

The counters of an endpoint against the calls that were made on it, whatever else goes on in the transport. Each counter is
the sum of what the calls on the endpoint have added so far (`tally_run`, by `Priced.balance`); so between two reports the
counters agree with each other and with the reports that have come in, and in the middle of one they are off by the calls
that stand between two of its operations. All of it is modulo `2 ^ 64`, as the counters are.
-/

namespace ServiceMesh.Transport

open Conc

/-- What a call has added to a counter of the endpoint `e`. -/
def added (price : Status Endpoint.Pc Endpoint.Reply → UInt64) (e : Nat) : Status Pc Reply → UInt64
  | .running (.on x k) => if x = e then price (.running k) else 0
  | .done (.report x reply) => if x = e then price (.done reply) else 0
  | _ => 0

section
variable {counter : Endpoint → UInt64} {price : Status Endpoint.Pc Endpoint.Reply → UInt64}

/-- A call that is in no method of an endpoint has added nothing, and adds nothing by its next step. -/
theorem added_outside (T : Endpoint.Tally counter price) (e now : Nat) (t : Transport) {k : Pc} (outside : ∀ x inner, k ≠ .on x inner) :
    added price e (.running k) = 0 ∧ added price e (k.step now t).2 = 0 := by
  cases k with
  | on x inner => exact absurd rfl (outside x inner)
  | begin method =>
    refine ⟨rfl, ?_⟩
    cases method with
    | endpoint x method =>
      simp only [Pc.step]
      split
      · simp only [added, T.start, ite_self]
      · rfl
    | selectEndpoint cluster sample =>
      simp only [Pc.step]
      split <;> rfl
    | select b sample =>
      simp only [Pc.step]
      split <;> rfl
    | _ => rfl
  | select b k =>
    refine ⟨rfl, ?_⟩
    simp only [Pc.step]
    split
    · split <;> rfl
    · rfl

/-- What a step in a method of `x` adds to the counter of `e`. -/
theorem added_on (e x now : Nat) (t : Transport) (inner : Endpoint.Pc) :
    added price e ((Pc.on x inner).step now t).2 - added price e (.running (.on x inner)) =
      if x = e then price (inner.step now (t.heap x)).2 - price (.running inner) else 0 := by
  simp only [Pc.step]
  by_cases mine : x = e
  · cases (inner.step now (t.heap x)).2 <;> simp only [added, if_pos mine]
  · cases (inner.step now (t.heap x)).2 <;> simp only [added, if_neg mine, sub_self]

/-- A new endpoint starts at nothing, and so does what is not made. -/
theorem counter_addCluster (T : Endpoint.Tally counter price) {t : Transport} (sound : Sound t) (name : String)
    (endpoints : List String) (policy : LoadBalancingPolicy) (e : Nat) :
    counter ((t.addCluster name endpoints policy).heap e) = counter (t.heap e) := by
  simp only [addCluster, fromAddresses]
  split
  · next later =>
    rw [sound.unmade e later]
    cases endpoints[e - t.allocated]? with
    | none => rfl
    | some address => exact (T.new address).trans (T.new "").symm
  · rfl

/-- **What a step costs** the counter is what its call is charged. -/
theorem priced (T : Endpoint.Tally counter price) (e : Nat) : Priced shared (fun _ t => -counter (t.heap e))
    (Holds (fun _ t => Sound t) fun _ _ t st => Stands t st) (added price e) where
  keep c l holds := outline.exec holds (by
    cases l with
    | step i => exact fun _ _ => trivial
    | _ => trivial)
  start _ := rfl
  step c i k holds running := by
    have placed := holds.2 i _ running k rfl
    change -counter (c.shared.heap e) - -counter ((k.step c.clock c.shared).1.heap e) =
      added price e (k.step c.clock c.shared).2 - added price e (.running k)
    rw [neg_sub_neg]
    rcases step_cases holds.1 c.clock placed with ⟨name, endpoints, policy, rfl, next⟩ | ⟨-, heap⟩
    · rw [next, counter_addCluster T holds.1]
      exact (sub_self _).trans (sub_self _).symm
    · rcases heap with ⟨b, x, inner, address, rest, rfl, allowing, -, heap⟩ | ⟨x, inner, rfl, matched, -, heap⟩ |
        ⟨-, outside, heap⟩
      · obtain ⟨before, after⟩ := added_outside T e c.clock c.shared
          (k := .select b (.ask x inner address rest)) fun _ _ => by simp
        rw [before, after, heap, sub_self]
        by_cases mine : e = x
        · subst mine
          rw [Function.update_self, T.admits, sub_self]
          rcases allowing with inside | ⟨answer, rfl⟩
          · cases inner <;> first | rfl | exact absurd inside (Nat.lt_irrefl 0)
          · rfl
        · rw [Function.update_of_ne mine, sub_self]
      · rw [heap, added_on]
        by_cases mine : x = e
        · subst mine
          rw [Function.update_self, if_pos rfl]
          exact T.step c.clock _ inner matched
        · rw [Function.update_of_ne (Ne.symm mine), if_neg mine, sub_self]
      · obtain ⟨before, after⟩ := added_outside T e c.clock c.shared outside
        rw [heap, before, after, sub_self, sub_self]

/-- **Every counter** of every endpoint is what the calls have added to it. -/
theorem tally_run (T : Endpoint.Tally counter price) (now : Nat) (ls : List (Label Method)) (e : Nat) :
    counter ((shared.run (fresh now) ls).shared.heap e) = ((shared.run (fresh now) ls).calls.map (added price e)).sum := by
  have balanced := (priced T e).balance (fun _ _ _ => rfl) (c := fresh now) (.of_no_calls sound_new) ls
  have nothing : counter ((fresh now).shared.heap e) = 0 := T.new ""
  rw [nothing, neg_zero, zero_add, show ((fresh now).calls.map (added price e)).sum = 0 from rfl] at balanced
  exact (neg_add_eq_zero.mp balanced)

end

/-! ## The calls on an endpoint -/

/-- The methods of `e` that have returned, in the order of their calls. -/
def finished (e : Nat) (c : Tasks) : List Endpoint.Method :=
  c.calls.filterMap fun
    | .done (.report x reply) => if x = e then some reply.method else none
    | _ => none

/-- No method of `e` is in progress. -/
def Quiet (e : Nat) (c : Tasks) : Prop := ∀ k, .running (.on e k) ∉ c.calls

/-- What a method of `e` that has returned has added. -/
def settled (amount : Endpoint.Method → UInt64) (e : Nat) : Status Pc Reply → UInt64
  | .done (.report x reply) => if x = e then amount reply.method else 0
  | _ => 0

theorem sum_settled (amount : Endpoint.Method → UInt64) (e : Nat) (c : Tasks) :
    (c.calls.map (settled amount e)).sum = ((finished e c).map amount).sum := by
  unfold finished
  induction c.calls with
  | nil => rfl
  | cons st calls ih =>
    rw [List.map_cons, List.sum_cons, ih, List.filterMap_cons]
    cases st with
    | running k => exact zero_add _
    | done reply =>
      cases reply with
      | report x reply =>
        by_cases mine : x = e
        · simp [settled, mine]
        · simp [settled, mine]
      | _ => exact zero_add _

/-- While no method of `e` is in progress, what has been added is what the returned ones have added. -/
theorem added_of_quiet {price : Status Endpoint.Pc Endpoint.Reply → UInt64} {amount : Endpoint.Method → UInt64}
    (whole : ∀ reply, price (.done reply) = amount reply.method) {e : Nat} {c : Tasks} (quiet : Quiet e c) :
    (c.calls.map (added price e)).sum = ((finished e c).map amount).sum := by
  rw [← sum_settled]
  refine congrArg List.sum (List.map_congr_left fun st mem => ?_)
  cases st with
  | running k =>
    cases k with
    | on x k =>
      have elsewhere : x ≠ e := by
        rintro rfl
        exact quiet k mem
      simp [added, settled, elsewhere]
    | _ => rfl
  | done reply =>
    cases reply with
    | report x reply => simp [added, settled, whole]
    | _ => rfl

/-- A report to `e` that has counted its request, and not yet whether it was a success. -/
def halfway (e : Nat) : Status Pc Reply → Bool
  | .running (.on x (.successCount _)) | .running (.on x .failureCount) => decide (x = e)
  | _ => false

/-- A report of a failure to `e` that its breaker has not counted yet. -/
def untold (e : Nat) : Status Pc Reply → Bool
  | .running (.on x (.breaker _ .failureCount)) => decide (x = e)
  | _ => false

/-- Charges that differ by one for the calls of a kind differ by their number. -/
theorem sum_of_kind {c : Tasks} {f g : Status Pc Reply → UInt64} {kind : Status Pc Reply → Bool}
    (each : ∀ st ∈ c.calls, f st = g st + if kind st = true then 1 else 0) :
    (c.calls.map f).sum = (c.calls.map g).sum + UInt64.ofNat (c.count kind) := by
  unfold Pool.count
  generalize c.calls = calls at each
  induction calls with
  | nil => rfl
  | cons st calls ih =>
    have others := ih fun st mem => each st (List.mem_cons_of_mem _ mem)
    rw [List.map_cons, List.sum_cons, each st List.mem_cons_self, others, List.map_cons, List.sum_cons, List.countP_cons,
      UInt64.ofNat_add]
    have one : UInt64.ofNat (if kind st = true then 1 else 0) = if kind st = true then 1 else 0 := by
      split <;> rfl
    rw [one]
    abel

/-- A request that is counted is a success, a failure or a report that is halfway. -/
theorem added_requests (e : Nat) (st : Status Pc Reply) :
    added (Endpoint.price Endpoint.Method.requests fun
      | .successCount _ | .successTime _ | .failureCount => 1
      | _ => 0) e st =
    (added (Endpoint.price Endpoint.Method.successes fun
      | .successTime _ => 1
      | _ => 0) e st + added (Endpoint.price Endpoint.Method.failures fun _ => 0) e st) +
      if halfway e st = true then 1 else 0 := by
  have whole : ∀ method : Endpoint.Method, method.requests = method.successes + method.failures := by
    intro method
    cases method <;> rfl
  cases st with
  | running k =>
    cases k with
    | on x k =>
      by_cases mine : x = e
      · cases k <;> simp [added, halfway, Endpoint.price, mine, whole]
      · cases k <;> simp [added, halfway, mine]
    | _ => rfl
  | done reply =>
    cases reply with
    | report x reply =>
      by_cases mine : x = e
      · simp [added, halfway, Endpoint.price, mine, whole]
      · simp [added, halfway, mine]
    | _ => rfl

/-- A failure that is counted, the breaker has counted or will count. -/
theorem failures_told {method : Endpoint.Method} {k : CircuitBreaker.Pc} (matched : method.breaker = some k.method) :
    method.failures = Endpoint.failuresSeen (.running (.breaker method k)) + if k = .failureCount then 1 else 0 := by
  have whole : method.failures = if k.method = .recordFailure then 1 else 0 := by
    cases method with
    | recordFailure => rw [← Option.some.inj matched]; rfl
    | recordSuccess _ => rw [← Option.some.inj matched]; rfl
    | allowRequest => rw [← Option.some.inj matched]; rfl
    | _ => cases matched
  by_cases first : k = .failureCount
  · subst first
    simp [Endpoint.failuresSeen, whole, CircuitBreaker.Pc.method]
  · simp [Endpoint.failuresSeen, whole, first]

theorem added_failures {e : Nat} {t : Transport} {st : Status Pc Reply} (stands : Stands t st) :
    added (Endpoint.price Endpoint.Method.failures fun _ => 0) e st =
      added Endpoint.failuresSeen e st + if untold e st = true then 1 else 0 := by
  cases st with
  | running k =>
    cases k with
    | on x k =>
      have matched := (stands _ rfl).2
      by_cases mine : x = e
      · cases k with
        | breaker method k =>
          have told := failures_told (show method.breaker = some k.method from matched)
          subst mine
          by_cases first : k = .failureCount
          · subst first
            simpa [added, untold, Endpoint.price] using told
          · have not_due : untold x (.running (.on x (.breaker method k))) = false := by
              cases k <;> first | rfl | exact absurd rfl first
            simpa [added, not_due, Endpoint.price, first] using told
        | _ => simp [added, untold, Endpoint.price, Endpoint.failuresSeen, mine]
      · have not_due : untold e (.running (.on x k)) = false := by
          unfold untold
          split <;> simp_all
        simp [added, not_due, mine]
    | _ => rfl
  | done reply =>
    cases reply with
    | report x reply =>
      by_cases mine : x = e
      · simp [added, untold, Endpoint.price, Endpoint.failuresSeen, mine]
      · simp [added, untold, mine]
    | _ => rfl

/-- A connection is counted in one step. -/
theorem added_connections {e : Nat} {t : Transport} {st : Status Pc Reply} (stands : Stands t st) :
    added (Endpoint.price Endpoint.Method.connections fun _ => 0) e st = settled Endpoint.Method.connections e st := by
  cases st with
  | running k =>
    cases k with
    | on x k =>
      have matched := (stands _ rfl).2
      cases k with
      | breaker method k =>
        have matched : method.breaker = some k.method := matched
        have none : method.connections = 0 := by
          cases method <;> first | rfl | cases matched
        simp [added, settled, Endpoint.price, none]
      | _ => simp [added, settled, Endpoint.price]
    | _ => rfl
  | done reply => cases reply <;> rfl

/-- **The books of every endpoint**, in every interleaving of all methods of the transport, of balancers and of endpoints,
modulo `2 ^ 64`. Requests are successes, failures and reports that stand between the two counts; failures are those that the
breaker has counted and those that it is about to; connections are those acquired less those released, and the statistics
of the transport add them up over the endpoints in its map. While no method of the endpoint is in progress, each counter
is the sum over the methods that have returned. -/
theorem endpoint_books (now : Nat) (ls : List (Label Method)) (e : Nat) :
    let c := shared.run (fresh now) ls
    let ep := c.shared.heap e
    let calls := finished e c
    ep.totalRequests = ep.successfulRequests + ep.failedRequests + UInt64.ofNat (c.count (halfway e)) ∧
    ep.failedRequests = ep.circuitBreaker.totalFailures + UInt64.ofNat (c.count (untold e)) ∧
    ep.activeConnections = (calls.map Endpoint.Method.connections).sum ∧
    c.shared.stats.activeConnections = ((c.shared.clusters.flatMap fun cluster => c.shared.endpoints cluster.2).map fun x =>
      ((finished x c).map Endpoint.Method.connections).sum).sum ∧
    (Quiet e c →
      ep.totalRequests = (calls.map Endpoint.Method.requests).sum ∧
      ep.successfulRequests = (calls.map Endpoint.Method.successes).sum ∧
      ep.failedRequests = (calls.map Endpoint.Method.failures).sum ∧
      ep.circuitBreaker.totalFailures = (calls.map Endpoint.Method.failures).sum ∧
      ep.totalResponseTimeUs = (calls.map Endpoint.Method.responseTimeUs).sum) := by
  intro c ep calls
  have stands : ∀ st ∈ c.calls, Stands c.shared st := by
    intro st mem
    obtain ⟨i, at_i⟩ := List.getElem?_of_mem mem
    exact (stands_run now ls).2 i st at_i
  have requests : ep.totalRequests = _ := tally_run Endpoint.tally_requests now ls e
  have successes : ep.successfulRequests = _ := tally_run Endpoint.tally_successes now ls e
  have failures : ep.failedRequests = _ := tally_run Endpoint.tally_failures now ls e
  have seen : ep.circuitBreaker.totalFailures = _ := tally_run Endpoint.tally_failuresSeen now ls e
  have times : ep.totalResponseTimeUs = _ := tally_run Endpoint.tally_responseTime now ls e
  have connections : ∀ x, (c.shared.heap x).activeConnections = ((finished x c).map Endpoint.Method.connections).sum :=
    fun x => (tally_run Endpoint.tally_connections now ls x).trans
      ((congrArg List.sum (List.map_congr_left fun st mem => added_connections (stands st mem))).trans (sum_settled _ x c))
  refine ⟨?_, ?_, connections e, ?_, fun quiet => ?_⟩
  · rw [requests, successes, failures, ← List.sum_map_add]
    exact sum_of_kind fun st _ => added_requests e st
  · rw [failures, seen]
    exact sum_of_kind fun st mem => added_failures (stands st mem)
  · exact congrArg List.sum (List.map_congr_left fun x _ => connections x)
  · exact ⟨requests.trans (added_of_quiet (fun _ => rfl) quiet), successes.trans (added_of_quiet (fun _ => rfl) quiet),
      failures.trans (added_of_quiet (fun _ => rfl) quiet), seen.trans (added_of_quiet (fun _ => rfl) quiet),
      times.trans (added_of_quiet (fun _ => rfl) quiet)⟩

end ServiceMesh.Transport
