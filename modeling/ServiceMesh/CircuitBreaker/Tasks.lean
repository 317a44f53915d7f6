import ServiceMesh.CircuitBreaker.Basic
import ServiceMesh.Logic.Pool

/-!
# The circuit breaker, one lock or atomic operation at a time

The methods of `circuit_breaker.rs` as control states of a shared object: one step is one
acquisition of the `state` or `last_failure_time` lock (with the read or write under it) or one
operation on an atomic counter, and between two steps any other call may run. Two places need
care:

* `*self.last_failure_time.write().await = Some(Instant::now())` evaluates its right side
  first, so the clock is read before the lock is awaited: `failureClock`, then `failureStamp`;
* `last_time.elapsed()` runs under the read guard of `last_failure_time`, so the time read and
  its test against the clock are one step (`allowCheck`).

A last step `ret` separates the return from the last operation. Run without interleaving, the
steps are the sequential methods (`solo_call`), so every sequential history is one of the
schedules (`history_scheduled`).
-/

namespace ServiceMesh.CircuitBreaker

open Conc

/-- Where a call stands. `seen` is the state that `record_failure` read. -/
inductive Pc where
  | allowCount
  | allowRead
  | allowCheck
  | allowHalfOpen
  | allowClear
  | successRead
  | successAdd
  | successClose
  | successClearFailures
  | successClearSuccesses
  | successReset
  | failureCount
  | failureRead
  | failureAdd
  | failureOpen (seen : State)
  | failureClock (seen : State)
  | failureStamp (seen : State) (t : Nat)
  | failureClearFailures
  | failureClearSuccesses
  | resetClose
  | resetClearFailures
  | resetClearSuccesses
  | resetClearTime
  | ret (method : Method) (answer : Option Bool)
deriving Repr, DecidableEq

/-- A finished call: its method and what it returned. -/
structure Reply where
  method : Method
  answer : Option Bool
deriving Repr, DecidableEq

def Pc.start : Method → Pc
  | .allowRequest => .allowCount
  | .recordSuccess => .successRead
  | .recordFailure => .failureCount
  | .reset => .resetClose

def Pc.step (now : Nat) (b : CircuitBreaker) : Pc → CircuitBreaker × Status Pc Reply
  | allowCount => ({ b with totalRequests := b.totalRequests + 1 }, .running allowRead)
  | allowRead =>
    match b.state with
    | .Closed => (b, .running (ret .allowRequest (some true)))
    | .Open => (b, .running allowCheck)
    | .HalfOpen => (b, .running (ret .allowRequest (some true)))
  | allowCheck =>
    if b.timeoutElapsed now then (b, .running allowHalfOpen)
    else (b, .running (ret .allowRequest (some false)))
  | allowHalfOpen => ({ b with state := .HalfOpen }, .running allowClear)
  | allowClear => ({ b with successCount := 0 }, .running (ret .allowRequest (some true)))
  | successRead =>
    match b.state with
    | .HalfOpen => (b, .running successAdd)
    | .Closed => (b, .running successReset)
    | .Open => (b, .running (ret .recordSuccess none))
  | successAdd =>
    ({ b with successCount := b.successCount + 1 },
      .running (if b.successCount + 1 ≥ b.config.successThreshold then successClose else ret .recordSuccess none))
  | successClose => ({ b with state := .Closed }, .running successClearFailures)
  | successClearFailures => ({ b with failureCount := 0 }, .running successClearSuccesses)
  | successClearSuccesses => ({ b with successCount := 0 }, .running (ret .recordSuccess none))
  | successReset => ({ b with failureCount := 0 }, .running (ret .recordSuccess none))
  | failureCount => ({ b with totalFailures := b.totalFailures + 1 }, .running failureRead)
  | failureRead =>
    match b.state with
    | .Closed => (b, .running failureAdd)
    | .HalfOpen => (b, .running (failureOpen .HalfOpen))
    | .Open => (b, .running (failureClock .Open))
  | failureAdd =>
    ({ b with failureCount := b.failureCount + 1 },
      .running (if b.failureCount + 1 ≥ b.config.failureThreshold then failureOpen .Closed
        else ret .recordFailure none))
  | failureOpen seen => ({ b with state := .Open }, .running (failureClock seen))
  | failureClock seen => (b, .running (failureStamp seen now))
  | failureStamp seen t =>
    ({ b with lastFailureTime := some t },
      .running (match seen with
        | .HalfOpen => failureClearFailures
        | .Closed => ret .recordFailure none
        | .Open => ret .recordFailure none))
  | failureClearFailures => ({ b with failureCount := 0 }, .running failureClearSuccesses)
  | failureClearSuccesses => ({ b with successCount := 0 }, .running (ret .recordFailure none))
  | resetClose => ({ b with state := .Closed }, .running resetClearFailures)
  | resetClearFailures => ({ b with failureCount := 0 }, .running resetClearSuccesses)
  | resetClearSuccesses => ({ b with successCount := 0 }, .running resetClearTime)
  | resetClearTime => ({ b with lastFailureTime := none }, .running (ret .reset none))
  | ret method answer => (b, .done ⟨method, answer⟩)

/-- The method that a control state belongs to. -/
def Pc.method : Pc → Method
  | allowCount | allowRead | allowCheck | allowHalfOpen | allowClear => .allowRequest
  | successRead | successAdd | successClose | successClearFailures | successClearSuccesses | successReset =>
    .recordSuccess
  | failureCount | failureRead | failureAdd | failureOpen _ | failureClock _ | failureStamp _ _
  | failureClearFailures | failureClearSuccesses => .recordFailure
  | resetClose | resetClearFailures | resetClearSuccesses | resetClearTime => .reset
  | ret method _ => method

/-- The method that a call, running or ended, belongs to. -/
def callMethod : Status Pc Reply → Method
  | .running k => k.method
  | .done r => r.method

/-- A step stays in its method. -/
theorem Pc.step_method (now : Nat) (b : CircuitBreaker) (k : Pc) : callMethod (k.step now b).2 = k.method := by
  cases k <;> simp only [step] <;> (try split) <;> rfl

/-- What a step stores in `state`, if anything. -/
def Pc.stateStored : Pc → Option State
  | allowHalfOpen => some .HalfOpen
  | successClose | resetClose => some .Closed
  | failureOpen _ => some .Open
  | _ => none

/-- What a step stores in `last_failure_time`, if anything. -/
def Pc.timeStored : Pc → Option (Option Nat)
  | failureStamp _ t => some (some t)
  | resetClearTime => some none
  | _ => none

theorem Pc.step_state (now : Nat) (b : CircuitBreaker) (k : Pc) :
    (k.step now b).1.state = k.stateStored.getD b.state := by
  cases k <;> simp only [step] <;> (try split) <;> simp_all [stateStored]

theorem Pc.step_lastFailureTime (now : Nat) (b : CircuitBreaker) (k : Pc) :
    (k.step now b).1.lastFailureTime = k.timeStored.getD b.lastFailureTime := by
  cases k <;> simp only [step] <;> (try split) <;> rfl

theorem Pc.step_config (now : Nat) (b : CircuitBreaker) (k : Pc) : (k.step now b).1.config = b.config := by
  cases k <;> simp only [step] <;> (try split) <;> rfl

/-- A stamp carries the clock reading of the step before it. -/
theorem Pc.step_stamp {now t : Nat} {b : CircuitBreaker} {k : Pc} {seen : State}
    (next : (k.step now b).2 = .running (.failureStamp seen t)) : t = now := by
  cases k with
  | failureClock _ => cases next; rfl
  | failureStamp seen' _ => cases seen' <;> cases next
  | _ => simp only [step] at next; (try split at next) <;> simp_all

/-- A call ends by its `ret`. -/
theorem Pc.step_done {now : Nat} {b : CircuitBreaker} {k : Pc} {r : Reply} (ended : (k.step now b).2 = .done r) :
    k = .ret r.method r.answer := by
  cases k with
  | ret method answer => cases ended; rfl
  | _ => simp only [step] at ended; (try split at ended) <;> cases ended

/-- The breaker as an object that any number of tasks share. -/
def shared : Object CircuitBreaker Method Pc Reply where
  start := Pc.start
  step := Pc.step

section
variable {c : Pool CircuitBreaker Pc Reply} {i : Nat} {k : Pc}

/-- The breaker after one step of a call. -/
theorem shared_after (running : c.calls[i]? = some (.running k)) :
    (shared.exec c (.step i)).shared = (k.step c.clock c.shared).1 :=
  Object.shared_exec running

/-- How a count moves with one step of a call. -/
theorem count_moves (running : c.calls[i]? = some (.running k)) (p : Status Pc Reply → Bool) :
    (shared.exec c (.step i)).count p + (p (.running k)).toNat =
      c.count p + (p (k.step c.clock c.shared).2).toNat :=
  count_step p running

/-- A step that takes its call across no count. -/
theorem count_stays (running : c.calls[i]? = some (.running k)) {p : Status Pc Reply → Bool}
    (same : p (k.step c.clock c.shared).2 = p (.running k)) : (shared.exec c (.step i)).count p = c.count p := by
  have moved := count_moves running p
  rw [same] at moved
  omega

end

/-- A call of this method. -/
def isCallOf (method : Method) (st : Status Pc Reply) : Bool := callMethod st = method

/-- A step makes no call another method's. -/
theorem count_isCallOf_step {c : Pool CircuitBreaker Pc Reply} {i : Nat} {k : Pc} (running : c.calls[i]? = some (.running k))
    (method : Method) : (shared.exec c (.step i)).count (isCallOf method) = c.count (isCallOf method) := by
  refine count_stays running ?_
  simp only [isCallOf, Pc.step_method]
  rfl

/-- The calls of a method are those that the schedule makes. -/
theorem count_isCallOf_run (c : Pool CircuitBreaker Pc Reply) (labels : List (Label Method)) (method : Method) :
    (shared.run c labels).count (isCallOf method) = c.count (isCallOf method) + labels.count (.call method) := by
  induction labels generalizing c with
  | nil => rfl
  | cons l labels ih =>
    rw [Object.run_cons, ih, List.count_cons]
    cases l with
    | tick d => rfl
    | call first =>
      have starts : callMethod (.running (shared.start first)) = first := by cases first <;> rfl
      rw [count_call, isCallOf, starts]
      by_cases same : first = method
      · simp [same]
        omega
      · simp [same]
    | step i =>
      rcases Object.exec_step_cases shared c i with ⟨k, running⟩ | idle
      · rw [count_isCallOf_step running]
        rfl
      · rw [idle]
        rfl

/-- A fresh breaker at time 0 with no calls. -/
def fresh (config : CircuitBreakerConfig) : Pool CircuitBreaker Pc Reply := ⟨0, new config, []⟩

/-- No call is in progress. -/
def Idle (c : Pool CircuitBreaker Pc Reply) : Prop := ∀ st ∈ c.calls, ∃ reply, st = .done reply

instance (c : Pool CircuitBreaker Pc Reply) : Decidable (Idle c) :=
  decidable_of_iff (∀ st ∈ c.calls, (match st with | .done _ => true | .running _ => false) = true) (by
    refine forall₂_congr fun st _ => ?_
    cases st <;> simp)

/-- Calls of the methods in `P` only, and the configuration, stay so. -/
theorem frame_outline (P : Method → Prop) (config : CircuitBreakerConfig) :
    Outline shared ⟨P, fun _ _ _ => True⟩ (fun _ b => b.config = config) (fun _ _ _ st => P (callMethod st)) where
  start i now b method called _ := by cases method <;> exact called
  own i now b k _ same mine := by
    rw [show shared.step now b k = k.step now b from rfl, Pc.step_config, Pc.step_method]
    exact ⟨same, mine⟩
  other _ _ _ _ _ _ _ _ _ _ theirs := theirs
  tick _ _ _ same := same
  tickLoc _ _ _ _ _ _ mine := mine

theorem frame_run {P : Method → Prop} {labels : List (Label Method)} (calls : ∀ method, .call method ∈ labels → P method)
    (config : CircuitBreakerConfig) :
    Holds (fun _ b => b.config = config) (fun _ _ _ st => P (callMethod st)) (shared.run (fresh config) labels) :=
  (frame_outline P config).run (c := fresh config) (.of_no_calls rfl) (Object.along_calls calls)

theorem config_run (config : CircuitBreakerConfig) (labels : List (Label Method)) :
    (shared.run (fresh config) labels).shared.config = config :=
  (frame_run (P := fun _ => True) (fun _ _ => trivial) config).1

/-- A call under way in a schedule of calls of `P` is one of them. -/
theorem method_of_running {P : Method → Prop} {config : CircuitBreakerConfig} {labels : List (Label Method)}
    (calls : ∀ method, .call method ∈ labels → P method) {i : Nat} {k : Pc}
    (running : (shared.run (fresh config) labels).calls[i]? = some (.running k)) : P k.method :=
  (frame_run calls config).2 i _ running

theorem solo_allowRequest (now : Nat) (b : CircuitBreaker) :
    Solo shared now b .allowCount (b.allowRequest now).2 ⟨.allowRequest, some (b.allowRequest now).1⟩ := by
  obtain ⟨state, failures, successes, last, config, requests, total⟩ := b
  refine .next rfl ?_
  cases state with
  | Closed => exact .next rfl (.ret rfl)
  | HalfOpen => exact .next rfl (.ret rfl)
  | Open =>
    refine .next rfl ?_
    simp only [allowRequest]
    split
    · next elapsed => exact .next (if_pos elapsed) (.next rfl (.next rfl (.ret rfl)))
    · next early => exact .next (if_neg early) (.ret rfl)

theorem solo_recordSuccess (now : Nat) (b : CircuitBreaker) :
    Solo shared now b .successRead b.recordSuccess ⟨.recordSuccess, none⟩ := by
  obtain ⟨state, failures, successes, last, config, requests, total⟩ := b
  cases state with
  | Closed => exact .next rfl (.next rfl (.ret rfl))
  | Open => exact .next rfl (.ret rfl)
  | HalfOpen =>
    refine .next rfl (.next rfl ?_)
    simp only [recordSuccess]
    split
    · exact .next rfl (.next rfl (.next rfl (.ret rfl)))
    · exact .ret rfl

theorem solo_recordFailure (now : Nat) (b : CircuitBreaker) :
    Solo shared now b .failureCount (b.recordFailure now) ⟨.recordFailure, none⟩ := by
  obtain ⟨state, failures, successes, last, config, requests, total⟩ := b
  refine .next rfl ?_
  cases state with
  | Closed =>
    refine .next rfl (.next rfl ?_)
    simp only [recordFailure]
    split
    · exact .next rfl (.next rfl (.next rfl (.ret rfl)))
    · exact .ret rfl
  | Open => exact .next rfl (.next rfl (.next rfl (.ret rfl)))
  | HalfOpen => exact .next rfl (.next rfl (.next rfl (.next rfl (.next rfl (.next rfl (.ret rfl))))))

/-- **No interleaving, no difference**: a call alone computes the sequential method. -/
theorem solo_call (now : Nat) (method : Method) (b : CircuitBreaker) :
    Solo shared now b (shared.start method) (b.call ⟨now, method⟩).2 ⟨method, (b.call ⟨now, method⟩).1⟩ := by
  cases method with
  | allowRequest => exact solo_allowRequest now b
  | recordSuccess => exact solo_recordSuccess now b
  | recordFailure => exact solo_recordFailure now b
  | reset => exact .next rfl (.next rfl (.next rfl (.next rfl (.ret rfl))))

/-- Every sequential history is a schedule of the shared breaker. -/
theorem history_scheduled (config : CircuitBreakerConfig) (history : List Call)
    (ordered : (0 :: history.map Call.now).IsChain (· ≤ ·)) :
    ∃ (labels : List (Label Method)) (replies : List Reply), shared.run (fresh config) labels =
        ⟨(history.map Call.now).getLastD 0, after config history, replies.map .done⟩ ∧
      replies.map Reply.answer = Transducer.trace call (new config) history := by
  refine Solo.history Call.now Call.method Reply.answer ?_ history (c := fresh config) ordered
  intro c b
  exact ⟨_, rfl, solo_call c.now c.method b⟩

end ServiceMesh.CircuitBreaker
