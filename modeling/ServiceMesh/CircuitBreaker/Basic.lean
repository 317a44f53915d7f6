import ServiceMesh.Logic.Transducer
import Mathlib.Algebra.Ring.Nat

/-!
# The circuit breaker (`circuit_breaker.rs`), one call at a time

The record and its four state-changing methods, each as the source computes it when no other
call overlaps. An `Instant` is a clock reading in nanoseconds and a `Duration` a number of
nanoseconds, so `Instant::elapsed` (which saturates at zero) is subtraction on `Nat`; no method
reads the clock twice on one path. The `u64` counters and, on a 64-bit target, the `usize`
ones are `UInt64`: `fetch_add` wraps.
-/

namespace ServiceMesh

/-- `enum State`. -/
inductive CircuitBreaker.State where
  | Closed
  | Open
  | HalfOpen
deriving Repr, DecidableEq

structure CircuitBreakerConfig where
  failureThreshold : UInt64
  timeout : Nat
  successThreshold : UInt64
deriving Repr, DecidableEq

/-- `CircuitBreakerConfig::default`: five failures, 30 s, two successes. -/
def CircuitBreakerConfig.default : CircuitBreakerConfig :=
  { failureThreshold := 5, timeout := 30 * 10 ^ 9, successThreshold := 2 }

structure CircuitBreaker where
  state : CircuitBreaker.State
  failureCount : UInt64
  successCount : UInt64
  lastFailureTime : Option Nat
  config : CircuitBreakerConfig
  totalRequests : UInt64
  totalFailures : UInt64
deriving Repr, DecidableEq

namespace CircuitBreaker

def new (config : CircuitBreakerConfig) : CircuitBreaker :=
  { state := .Closed, failureCount := 0, successCount := 0, lastFailureTime := none, config,
    totalRequests := 0, totalFailures := 0 }

/-- `last_time.elapsed() >= self.config.timeout`, and `false` when no failure is on record. -/
def timeoutElapsed (now : Nat) (b : CircuitBreaker) : Bool :=
  match b.lastFailureTime with
  | some lastTime => decide (b.config.timeout ≤ now - lastTime)
  | none => false

theorem timeoutElapsed_of_some {now lastTime : Nat} {b : CircuitBreaker} (time : b.lastFailureTime = some lastTime) :
    b.timeoutElapsed now = true ↔ b.config.timeout ≤ now - lastTime := by
  simp [timeoutElapsed, time]

def allowRequest (now : Nat) (b : CircuitBreaker) : Bool × CircuitBreaker :=
  let b := { b with totalRequests := b.totalRequests + 1 }
  match b.state with
  | .Closed => (true, b)
  | .Open =>
    if b.timeoutElapsed now then (true, { b with state := .HalfOpen, successCount := 0 }) else (false, b)
  | .HalfOpen => (true, b)

def recordSuccess (b : CircuitBreaker) : CircuitBreaker :=
  match b.state with
  | .HalfOpen =>
    let b := { b with successCount := b.successCount + 1 }
    if b.successCount ≥ b.config.successThreshold then
      { b with state := .Closed, failureCount := 0, successCount := 0 }
    else b
  | .Closed => { b with failureCount := 0 }
  | .Open => b

def recordFailure (now : Nat) (b : CircuitBreaker) : CircuitBreaker :=
  let b := { b with totalFailures := b.totalFailures + 1 }
  match b.state with
  | .Closed =>
    let b := { b with failureCount := b.failureCount + 1 }
    if b.failureCount ≥ b.config.failureThreshold then
      { b with state := .Open, lastFailureTime := some now }
    else b
  | .HalfOpen => { b with state := .Open, lastFailureTime := some now, failureCount := 0, successCount := 0 }
  | .Open => { b with lastFailureTime := some now }

def reset (b : CircuitBreaker) : CircuitBreaker :=
  { b with state := .Closed, failureCount := 0, successCount := 0, lastFailureTime := none }

/-- `allow_request` refuses exactly in `Open` with the timeout not elapsed. -/
theorem allowRequest_eq_false_iff (b : CircuitBreaker) (now : Nat) :
    (b.allowRequest now).1 = false ↔ b.state = .Open ∧ b.timeoutElapsed now = false := by
  cases state : b.state with
  | Closed => simp [allowRequest, state]
  | HalfOpen => simp [allowRequest, state]
  | Open =>
    simp only [allowRequest, state, true_and]
    change (if b.timeoutElapsed now then _ else _ : Bool × CircuitBreaker).1 = false ↔ _
    split
    · next elapsed => simp [elapsed]
    · next early => simpa using early

/-- A refusal only counts the request. -/
theorem allowRequest_refused {b : CircuitBreaker} {now : Nat} (refused : (b.allowRequest now).1 = false) :
    (b.allowRequest now).2 = { b with totalRequests := b.totalRequests + 1 } := by
  obtain ⟨opened, early⟩ := (allowRequest_eq_false_iff b now).mp refused
  have stays : ¬ b.timeoutElapsed now = true := by simp [early]
  simp only [allowRequest]
  split
  · rfl
  · exact congrArg Prod.snd (if_neg stays)
  · rfl

/-- The answer does not depend on the number of requests. -/
theorem allowRequest_totalRequests (b : CircuitBreaker) (now : Nat) (n : UInt64) :
    (allowRequest now { b with totalRequests := n }).1 = (b.allowRequest now).1 := by
  cases answer : (b.allowRequest now).1 with
  | false =>
    rw [allowRequest_eq_false_iff] at answer ⊢
    exact answer
  | true =>
    rw [← Bool.not_eq_false, allowRequest_eq_false_iff] at answer ⊢
    exact answer

/-- The methods that change the breaker. -/
inductive Method where
  | allowRequest
  | recordSuccess
  | recordFailure
  | reset
deriving Repr, DecidableEq

/-- A call at a time; `allow_request` answers, the others return nothing. -/
structure Call where
  now : Nat
  method : Method
deriving Repr, DecidableEq

def call (c : Call) (b : CircuitBreaker) : Option Bool × CircuitBreaker :=
  match c.method with
  | .allowRequest => (some (b.allowRequest c.now).1, (b.allowRequest c.now).2)
  | .recordSuccess => (none, b.recordSuccess)
  | .recordFailure => (none, b.recordFailure c.now)
  | .reset => (none, b.reset)

/-- The breaker after a history of calls. -/
def after (config : CircuitBreakerConfig) (history : List Call) : CircuitBreaker :=
  Transducer.run call (new config) history

/-- No method touches the configuration. -/
@[simp] theorem call_config (c : Call) (b : CircuitBreaker) : (b.call c).2.config = b.config := by
  obtain ⟨now, method⟩ := c
  cases method with
  | allowRequest =>
    simp only [call, allowRequest]
    split
    · rfl
    · split <;> rfl
    · rfl
  | recordSuccess =>
    simp only [call, recordSuccess]
    split
    · split <;> rfl
    · rfl
    · rfl
  | recordFailure =>
    simp only [call, recordFailure]
    split
    · split <;> rfl
    · rfl
    · rfl
  | reset => rfl

@[simp] theorem after_config (config : CircuitBreakerConfig) (history : List Call) :
    (after config history).config = config :=
  Transducer.run_invariant (I := fun b : CircuitBreaker => b.config = config)
    (fun c b h => (b.call_config c).trans h) rfl history

end CircuitBreaker

end ServiceMesh
