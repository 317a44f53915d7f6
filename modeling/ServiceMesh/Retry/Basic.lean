import ServiceMesh.Logic.Loop
import ServiceMesh.Text
import Mathlib.Algebra.Order.Floor.Semiring
import Mathlib.Data.Rat.Floor

/-!
# The retry executor (`retry.rs`)

`RetryPolicy` and the loop of `RetryExecutor::execute`. `f64` values are exact rationals and
`Duration`s are nanoseconds. What comes from outside is given: the outcome of each invocation of
`request_fn`, the text of an error, `str::to_lowercase`, and the jitter of each delay. `execute` looks at no status
code, so `retryable_status_codes` and the methods that read it are not here.
-/

namespace ServiceMesh.Retry

structure RetryConfig where
  maxRetries : UInt32
  baseDelay : Nat
  maxDelay : Nat
  backoffMultiplier : ℚ
  useJitter : Bool
deriving Repr, DecidableEq

/-- `RetryConfig::default`. -/
def RetryConfig.default : RetryConfig :=
  { maxRetries := 3, baseDelay := 100 * 10 ^ 6, maxDelay := 10 * 10 ^ 9, backoffMultiplier := 2, useJitter := true }

/-- `Duration::as_millis`. -/
def millis (ns : Nat) : ℚ := (ns / 10 ^ 6 : Nat)

/-- `attempt as i32`. -/
def asI32 (n : UInt32) : Int := if n.toNat < 2 ^ 31 then n.toNat else n.toNat - 2 ^ 32

/-- `x as u64`: toward zero, and saturating. -/
def asU64 (x : ℚ) : Nat := min ⌊x⌋₊ (2 ^ 64 - 1)

structure RetryPolicy where
  config : RetryConfig
  attempt : UInt32
deriving Repr, DecidableEq

namespace RetryPolicy

def new (config : RetryConfig) : RetryPolicy := { config, attempt := 0 }

def hasRemainingRetries (p : RetryPolicy) : Bool := p.attempt < p.config.maxRetries

/-- The delay in milliseconds before jitter. A zero multiplier to a negative power is infinite, and
`f64::min` then gives the other side. -/
def cappedDelay (p : RetryPolicy) : ℚ :=
  if p.config.backoffMultiplier = 0 ∧ asI32 p.attempt < 0 then millis p.config.maxDelay
  else min (millis p.config.baseDelay * p.config.backoffMultiplier ^ asI32 p.attempt) (millis p.config.maxDelay)

def nextDelay (jitter : ℚ) (p : RetryPolicy) : Nat :=
  let delayMs := if p.config.useJitter then p.cappedDelay * jitter else p.cappedDelay
  asU64 delayMs * 10 ^ 6

def recordRetry (jitter : ℚ) (p : RetryPolicy) : Option Nat × RetryPolicy :=
  if !p.hasRemainingRetries then (none, p)
  else (some (p.nextDelay jitter), { p with attempt := p.attempt + 1 })

def reset (p : RetryPolicy) : RetryPolicy := { p with attempt := 0 }

end RetryPolicy

/-- The texts, in lower case, that make an error retryable. -/
def isRetryableText (errorLower : String) : Bool :=
  containsStr errorLower "connection" || containsStr errorLower "timeout" || containsStr errorLower "reset" ||
    containsStr errorLower "refused"

def RetryPolicy.shouldRetryError (toLowercase : String → String) (error : String) (p : RetryPolicy) : Bool :=
  if !p.hasRemainingRetries then false else isRetryableText (toLowercase error)

/-- `RetryError::Exhausted`. -/
structure RetryError (E : Type) where
  attempts : UInt32
  lastError : E
deriving Repr, DecidableEq

structure RetryExecutor where
  policy : RetryPolicy
deriving Repr, DecidableEq

def RetryExecutor.new (config : RetryConfig) : RetryExecutor := { policy := .new config }

def RetryExecutor.reset (x : RetryExecutor) : RetryExecutor := { policy := x.policy.reset }

/-! ## The loop -/

/-- What `execute` does to the outside. -/
inductive Event where
  | invoke
  | sleep (delay : Nat)
deriving Repr, DecidableEq

/-- The executor inside `execute`, and what it has done so far. -/
structure Execution where
  executor : RetryExecutor
  log : List Event
deriving Repr, DecidableEq

def Execution.invocations (s : Execution) : Nat := s.log.count .invoke

/-- What lies outside the executor: the outcomes of `request_fn` in turn, the text of an error, and the
jitter of each delay in turn. -/
structure World (T E : Type) where
  outcome : Nat → Except E T
  display : E → String
  toLowercase : String → String
  jitter : Nat → ℚ

variable {T E : Type}

/-- One pass of the loop. -/
def body (w : World T E) (s : Execution) : Loop.Flow Execution (Except (RetryError E) T) :=
  let calls := s.invocations
  let s := { s with log := s.log ++ [.invoke] }
  let policy := s.executor.policy
  match w.outcome calls with
  | .ok result => .leave (.ok result) s
  | .error e =>
    if policy.shouldRetryError w.toLowercase (w.display e) then
      match policy.recordRetry (w.jitter calls) with
      | (some delay, policy) => .next { executor := { policy }, log := s.log ++ [.sleep delay] }
      | (none, policy) =>
        .leave (.error { attempts := policy.attempt + 1, lastError := e }) { s with executor := { policy } }
    else .leave (.error { attempts := policy.attempt + 1, lastError := e }) s

/-- `execute`, with a bound on the iterations: `none` if it is still running. -/
def execute (w : World T E) (iterations : Nat) (x : RetryExecutor) : Option (Except (RetryError E) T × Execution) :=
  Loop.loop (body w) iterations { executor := x, log := [] }

end ServiceMesh.Retry
