import ServiceMesh.Logic.Pool
import Mathlib.Algebra.Ring.Nat

/-!
# The connection limiter (`connection.rs`)

`try_acquire` and the `Drop` of the guard it hands out, one semaphore or atomic operation at a
time. A pool call is the life of one `try_acquire`: refused, or holding a guard (`live`) until
some later step starts to drop it. `Drop::drop` runs before the fields of the guard are
dropped, so the counter goes down first and the permit is released after.

tokio's `Semaphore` is the number of permits not handed out: `try_acquire_owned` takes one if
there is one, and each permit it hands out comes back once.
-/

namespace ServiceMesh.Connection

open Conc

structure ConnectionConfig where
  maxConnections : Nat
deriving Repr, DecidableEq

/-- tokio's `Semaphore::MAX_PERMITS`, `usize::MAX >> 3`. -/
def maxPermits : Nat := 2 ^ 61 - 1

structure ConnectionLimiter where
  semaphore : Nat
  activeConnections : UInt64
  totalAccepted : UInt64
  totalRejected : UInt64
  config : ConnectionConfig
deriving Repr, DecidableEq

/-- `ConnectionLimiter::new`; `Semaphore::new` panics past `MAX_PERMITS`. -/
def ConnectionLimiter.new (config : ConnectionConfig) : Option ConnectionLimiter :=
  if config.maxConnections ≤ maxPermits then
    some { semaphore := config.maxConnections, activeConnections := 0, totalAccepted := 0, totalRejected := 0, config }
  else none

inductive Pc where
  | acquire
  | countActive
  | countAccepted
  | countRejected
  | live
  | dropCount
  | dropRelease
deriving Repr, DecidableEq

/-- How a `try_acquire` ended: with `None`, or with a guard that has been dropped since. -/
inductive Outcome where
  | rejected
  | released
deriving Repr, DecidableEq

def Pc.step (l : ConnectionLimiter) : Pc → ConnectionLimiter × Status Pc Outcome
  | acquire =>
    if 0 < l.semaphore then ({ l with semaphore := l.semaphore - 1 }, .running countActive)
    else (l, .running countRejected)
  | countActive => ({ l with activeConnections := l.activeConnections + 1 }, .running countAccepted)
  | countAccepted => ({ l with totalAccepted := l.totalAccepted + 1 }, .running live)
  | countRejected => ({ l with totalRejected := l.totalRejected + 1 }, .done .rejected)
  | live => (l, .running dropCount)
  | dropCount => ({ l with activeConnections := l.activeConnections - 1 }, .running dropRelease)
  | dropRelease => ({ l with semaphore := l.semaphore + 1 }, .done .released)

/-- The limiter as an object that any number of tasks share; `try_acquire` is its one method. -/
def shared : Object ConnectionLimiter Unit Pc Outcome where
  start _ := .acquire
  step _ l k := k.step l

abbrev Calls := Pool ConnectionLimiter Pc Outcome

/-- The call holds a permit: it has taken one and not yet released it. -/
def holdsPermit : Status Pc Outcome → Bool
  | .running .countActive | .running .countAccepted | .running .live | .running .dropCount
  | .running .dropRelease => true
  | _ => false

/-- The call is counted in `active_connections`. -/
def isActive : Status Pc Outcome → Bool
  | .running .countAccepted | .running .live | .running .dropCount => true
  | _ => false

/-- The call is counted in `total_accepted`. -/
def isAccepted : Status Pc Outcome → Bool
  | .running .live | .running .dropCount | .running .dropRelease | .done .released => true
  | _ => false

/-- The call is counted in `total_rejected`. -/
def isRejected : Status Pc Outcome → Bool
  | .done .rejected => true
  | _ => false

/-- The guard is alive and nobody has started to drop it. -/
def isLive : Status Pc Outcome → Bool
  | .running .live => true
  | _ => false

/-- No `try_acquire` and no drop is in progress. -/
def Idle (c : Calls) : Prop :=
  ∀ st ∈ c.calls, isLive st ∨ ∃ outcome, st = .done outcome

end ServiceMesh.Connection
