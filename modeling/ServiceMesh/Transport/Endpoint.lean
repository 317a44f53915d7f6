import ServiceMesh.CircuitBreaker.Tasks
import ServiceMesh.Transport.Stats

/-!
# An endpoint, one shared operation at a time

The methods of `Endpoint` as control states of a shared object: one step is one atomic operation, one write under the lock
of `healthy`, or one step of the breaker's method, which `record_success`, `record_failure` and `allow_request` end with.
Without interleaving they are the sequential methods (`solo_call`). Every counter is kept by the control states alone
(`Tally`): what a method has added to it so far can be read off where the call stands.
-/

namespace ServiceMesh.Endpoint

open Conc

/-- The methods of `Endpoint` that change it; `response_time` is in nanoseconds. -/
inductive Method where
  | setWeight (weight : UInt64)
  | acquireConnection
  | releaseConnection
  | setHealthy (healthy : Bool)
  | recordSuccess (responseTime : Nat)
  | recordFailure
  | allowRequest
deriving Repr, DecidableEq

/-- Where a call stands. `breaker` is inside the breaker's method that `method` ends with. -/
inductive Pc where
  | setWeight (weight : UInt64)
  | acquireConnection
  | releaseConnection
  | setHealthy (healthy : Bool)
  | successTotal (responseTime : Nat)
  | successCount (responseTime : Nat)
  | successTime (responseTime : Nat)
  | failureTotal
  | failureCount
  | breaker (method : Method) (k : CircuitBreaker.Pc)
deriving Repr, DecidableEq

/-- A finished call: its method and what it returned. -/
structure Reply where
  method : Method
  answer : Option Bool
deriving Repr, DecidableEq

def Pc.start : Method → Pc
  | .setWeight weight => .setWeight weight
  | .acquireConnection => .acquireConnection
  | .releaseConnection => .releaseConnection
  | .setHealthy healthy => .setHealthy healthy
  | .recordSuccess responseTime => .successTotal responseTime
  | .recordFailure => .failureTotal
  | .allowRequest => .breaker .allowRequest .allowCount

def Pc.step (now : Nat) (e : Endpoint) : Pc → Endpoint × Status Pc Reply
  | setWeight weight => ({ e with weight }, .done ⟨.setWeight weight, none⟩)
  | acquireConnection => ({ e with activeConnections := e.activeConnections + 1 }, .done ⟨.acquireConnection, none⟩)
  | releaseConnection => ({ e with activeConnections := e.activeConnections - 1 }, .done ⟨.releaseConnection, none⟩)
  | setHealthy healthy => ({ e with healthy }, .done ⟨.setHealthy healthy, none⟩)
  | successTotal responseTime => ({ e with totalRequests := e.totalRequests + 1 }, .running (successCount responseTime))
  | successCount responseTime =>
    ({ e with successfulRequests := e.successfulRequests + 1 }, .running (successTime responseTime))
  | successTime responseTime =>
    ({ e with totalResponseTimeUs := e.totalResponseTimeUs + UInt64.ofNat (responseTime / 1000) },
      .running (breaker (.recordSuccess responseTime) .successRead))
  | failureTotal => ({ e with totalRequests := e.totalRequests + 1 }, .running failureCount)
  | failureCount => ({ e with failedRequests := e.failedRequests + 1 }, .running (breaker .recordFailure .failureCount))
  | breaker method k =>
    ({ e with circuitBreaker := (k.step now e.circuitBreaker).1 },
      match (k.step now e.circuitBreaker).2 with
      | .running k => .running (breaker method k)
      | .done reply => .done ⟨method, reply.answer⟩)

/-- The endpoint as an object that any number of tasks share. -/
def shared : Object Endpoint Method Pc Reply where
  start := Pc.start
  step := Pc.step

/-- A call that nothing interrupts. -/
def call (now : Nat) (e : Endpoint) : Method → Option Bool × Endpoint
  | .setWeight weight => (none, { e with weight })
  | .acquireConnection => (none, { e with activeConnections := e.activeConnections + 1 })
  | .releaseConnection => (none, { e with activeConnections := e.activeConnections - 1 })
  | .setHealthy healthy => (none, { e with healthy })
  | .recordSuccess responseTime => (none, e.recordSuccess responseTime)
  | .recordFailure => (none, e.recordFailure now)
  | .allowRequest => (some (e.allowRequest now).1, (e.allowRequest now).2)

/-- The breaker's call runs inside. -/
theorem solo_breaker {now : Nat} {b b' : CircuitBreaker} {k : CircuitBreaker.Pc} {reply : CircuitBreaker.Reply}
    (method : Method) (inner : Solo CircuitBreaker.shared now b k b' reply) {e : Endpoint} (mine : e.circuitBreaker = b) :
    Solo shared now e (.breaker method k) { e with circuitBreaker := b' } ⟨method, reply.answer⟩ := by
  induction inner generalizing e with
  | @ret b b' k reply step =>
    have step : k.step now b = (b', .done reply) := step
    exact .ret (by simp only [shared, Pc.step, mine, step])
  | @next b b' b'' k k' reply step _ ih =>
    have step : k.step now b = (b', .running k') := step
    have outer : shared.step now e (.breaker method k) = ({ e with circuitBreaker := b' }, .running (.breaker method k')) := by
      simp only [shared, Pc.step, mine, step]
    exact .next outer (ih rfl)

/-- **No interleaving, no difference**: a call alone computes the sequential method. -/
theorem solo_call (now : Nat) (e : Endpoint) (method : Method) :
    Solo shared now e (shared.start method) (e.call now method).2 ⟨method, (e.call now method).1⟩ := by
  cases method with
  | setWeight weight => exact .ret rfl
  | acquireConnection => exact .ret rfl
  | releaseConnection => exact .ret rfl
  | setHealthy healthy => exact .ret rfl
  | recordSuccess responseTime =>
    refine .next rfl (.next rfl (.next rfl ?_))
    exact solo_breaker _ (CircuitBreaker.solo_recordSuccess now e.circuitBreaker) rfl
  | recordFailure =>
    refine .next rfl (.next rfl ?_)
    exact solo_breaker _ (CircuitBreaker.solo_recordFailure now e.circuitBreaker) rfl
  | allowRequest => exact solo_breaker _ (CircuitBreaker.solo_allowRequest now e.circuitBreaker) rfl

/-! ## The breaker's part of a method -/

/-- The breaker's method that a method ends with. -/
def Method.breaker : Method → Option CircuitBreaker.Method
  | .recordSuccess _ => some .recordSuccess
  | .recordFailure => some .recordFailure
  | .allowRequest => some .allowRequest
  | _ => none

/-- A call inside the breaker is inside the method that it ends with. -/
def Matched : Status Pc Reply → Prop
  | .running (.breaker method k) => method.breaker = some k.method
  | _ => True

theorem matched_start (method : Method) : Matched (.running (Pc.start method)) := by
  cases method <;> trivial

/-- What the breaker's step leads to. -/
theorem step_breaker (now : Nat) (e : Endpoint) (method : Method) (k : CircuitBreaker.Pc) :
    (∃ k', (k.step now e.circuitBreaker).2 = .running k' ∧ k'.method = k.method ∧
      (Pc.breaker method k).step now e =
        ({ e with circuitBreaker := (k.step now e.circuitBreaker).1 }, .running (.breaker method k'))) ∨
    ∃ reply, k = .ret reply.method reply.answer ∧ (k.step now e.circuitBreaker).2 = .done reply ∧
      (Pc.breaker method k).step now e = (e, .done ⟨method, reply.answer⟩) := by
  have same := k.step_method now e.circuitBreaker
  cases next : (k.step now e.circuitBreaker).2 with
  | running k' =>
    rw [next] at same
    exact .inl ⟨k', rfl, same, by simp only [Pc.step, next]⟩
  | done reply =>
    obtain rfl := CircuitBreaker.Pc.step_done next
    exact .inr ⟨reply, rfl, rfl, rfl⟩

theorem Matched.step (now : Nat) (e : Endpoint) {k : Pc} (h : Matched (.running k)) : Matched (k.step now e).2 := by
  cases k with
  | breaker method k =>
    rcases step_breaker now e method k with ⟨k', -, same, next⟩ | ⟨reply, -, -, next⟩
    · rw [next]
      exact Eq.trans h (congrArg some same.symm)
    · rw [next]
      trivial
  | successTime responseTime => rfl
  | failureCount => rfl
  | _ => trivial

/-! ## The counters -/

/-- What a method adds to a counter, it has added where its call stands (`price`). A breaker that is asked to let a request
in changes nothing of it. -/
structure Tally (counter : Endpoint → UInt64) (price : Status Pc Reply → UInt64) : Prop where
  new : ∀ address, counter (.new address) = 0
  start : ∀ method, price (.running (Pc.start method)) = 0
  step : ∀ now e k, Matched (.running k) → counter (k.step now e).1 - counter e = price (k.step now e).2 - price (.running k)
  admits : ∀ now e (k : CircuitBreaker.Pc), k.method = .allowRequest →
    counter { e with circuitBreaker := (k.step now e.circuitBreaker).1 } = counter e

/-- A method's whole part of a counter, from the breaker's part on and after it; `early` is its part before. -/
def price (amount : Method → UInt64) (early : Pc → UInt64) : Status Pc Reply → UInt64
  | .running (.breaker method _) => amount method
  | .running k => early k
  | .done reply => amount reply.method

/-- A counter outside the breaker. -/
theorem Tally.of_fields {counter : Endpoint → UInt64} {amount : Method → UInt64} {early : Pc → UInt64}
    (new : ∀ address, counter (.new address) = 0) (start : ∀ method, price amount early (.running (Pc.start method)) = 0)
    (apart : ∀ e b, counter { e with circuitBreaker := b } = counter e)
    (step : ∀ now e k, (∀ method b, k ≠ .breaker method b) →
      counter (k.step now e).1 - counter e = price amount early (k.step now e).2 - price amount early (.running k)) :
    Tally counter (price amount early) where
  new := new
  start := start
  step now e k _ := by
    cases k with
    | breaker method k =>
      rcases step_breaker now e method k with ⟨k', -, -, next⟩ | ⟨reply, -, -, next⟩
      · rw [next, apart]
        exact (sub_self _).trans (sub_self _).symm
      · rw [next]
        exact (sub_self _).trans (sub_self _).symm
    | _ => exact step now e _ (fun _ _ => by simp)
  admits _ e _ _ := apart e _

/-- One request for each report. -/
def Method.requests : Method → UInt64
  | .recordSuccess _ | .recordFailure => 1
  | _ => 0

def Method.successes : Method → UInt64
  | .recordSuccess _ => 1
  | _ => 0

def Method.failures : Method → UInt64
  | .recordFailure => 1
  | _ => 0

/-- The whole microseconds of a success. -/
def Method.responseTimeUs : Method → UInt64
  | .recordSuccess responseTime => UInt64.ofNat (responseTime / 1000)
  | _ => 0

def Method.connections : Method → UInt64
  | .acquireConnection => 1
  | .releaseConnection => -1
  | _ => 0

theorem tally_requests : Tally Endpoint.totalRequests (price Method.requests fun
    | .successCount _ | .successTime _ | .failureCount => 1
    | _ => 0) := by
  refine .of_fields (fun _ => rfl) (fun method => by cases method <;> rfl) (fun _ _ => rfl) fun now e k outside => ?_
  cases k with
  | breaker method k => exact absurd rfl (outside method k)
  | _ => simp [Pc.step, price, Method.requests]

theorem tally_successes : Tally Endpoint.successfulRequests (price Method.successes fun
    | .successTime _ => 1
    | _ => 0) := by
  refine .of_fields (fun _ => rfl) (fun method => by cases method <;> rfl) (fun _ _ => rfl) fun now e k outside => ?_
  cases k with
  | breaker method k => exact absurd rfl (outside method k)
  | _ => simp [Pc.step, price, Method.successes]

theorem tally_failures : Tally Endpoint.failedRequests (price Method.failures fun _ => 0) := by
  refine .of_fields (fun _ => rfl) (fun method => by cases method <;> rfl) (fun _ _ => rfl) fun now e k outside => ?_
  cases k with
  | breaker method k => exact absurd rfl (outside method k)
  | _ => simp [Pc.step, price, Method.failures]

theorem tally_responseTime : Tally Endpoint.totalResponseTimeUs (price Method.responseTimeUs fun _ => 0) := by
  refine .of_fields (fun _ => rfl) (fun method => by cases method <;> rfl) (fun _ _ => rfl) fun now e k outside => ?_
  cases k with
  | breaker method k => exact absurd rfl (outside method k)
  | _ => simp [Pc.step, price, Method.responseTimeUs]

theorem tally_connections : Tally Endpoint.activeConnections (price Method.connections fun _ => 0) := by
  refine .of_fields (fun _ => rfl) (fun method => by cases method <;> rfl) (fun _ _ => rfl) fun now e k outside => ?_
  cases k with
  | breaker method k => exact absurd rfl (outside method k)
  | _ => simp [Pc.step, price, Method.connections, sub_eq_add_neg]

/-- The failure of a `record_failure`, once the breaker has counted it. -/
def failuresSeen : Status Pc Reply → UInt64
  | .running (.breaker _ k) => if k.method = .recordFailure ∧ k ≠ .failureCount then 1 else 0
  | .running _ => 0
  | .done reply => reply.method.failures

/-- What a step of the breaker counts. -/
theorem step_totalFailures (now : Nat) (b : CircuitBreaker) (k : CircuitBreaker.Pc) :
    (k.step now b).1.totalFailures = if k = .failureCount then b.totalFailures + 1 else b.totalFailures := by
  cases k <;> simp only [CircuitBreaker.Pc.step] <;> (try split) <;> simp_all

/-- The breaker counts every failure, too. -/
theorem tally_failuresSeen : Tally (fun e => e.circuitBreaker.totalFailures) failuresSeen where
  new _ := rfl
  start method := by cases method <;> rfl
  step now e k matched := by
    cases k with
    | breaker method k =>
      have counted := step_totalFailures now e.circuitBreaker k
      rcases step_breaker now e method k with ⟨k', inner, same, next⟩ | ⟨reply, rfl, -, next⟩
      · rw [next]
        simp only [counted, failuresSeen, same]
        by_cases first : k = .failureCount
        · subst first
          cases inner
          simp [CircuitBreaker.Pc.method]
        · have later : k' ≠ .failureCount := by
            rintro rfl
            cases k <;> simp only [CircuitBreaker.Pc.step] at inner <;> (try split at inner) <;> cases inner
          simp [first, later]
      · have matched : method.breaker = some reply.method := matched
        have whole : method.failures = if reply.method = .recordFailure then 1 else 0 := by
          cases method <;> simp_all [Method.breaker, Method.failures] <;> simp [← matched]
        rw [next]
        simp [failuresSeen, CircuitBreaker.Pc.method, whole]
    | _ => simp [Pc.step, failuresSeen, Method.failures, CircuitBreaker.Pc.method]
  admits now e k allowing := by
    rw [step_totalFailures]
    refine if_neg ?_
    rintro rfl
    cases allowing

end ServiceMesh.Endpoint
