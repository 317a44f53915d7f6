import ServiceMesh.CircuitBreaker.Basic

/-!
# The breaker refines a three-state machine

`Abstract` is what the breaker is for: closed with a run of `k` failures, open since `t`, or
half open with `s` successes. The record has four fields for that, and each branch of the
source updates only some of them: a trip leaves `failure_count` behind, closing leaves
`last_failure_time` behind. `Live` says which field is read in which state; every call
keeps it (`Live.call`), so no run can tell the two apart.
-/

namespace ServiceMesh.CircuitBreaker

/-- The abstract breaker. -/
inductive Abstract where
  | closed (k : Nat)
  | opened (t : Nat)
  | halfOpen (s : Nat)
deriving Repr, DecidableEq

namespace Abstract

def state : Abstract → State
  | closed _ => .Closed
  | opened _ => .Open
  | halfOpen _ => .HalfOpen

def allow (config : CircuitBreakerConfig) (now : Nat) : Abstract → Bool × Abstract
  | closed k => (true, closed k)
  | opened t => if now - t < config.timeout then (false, opened t) else (true, halfOpen 0)
  | halfOpen s => (true, halfOpen s)

def success (config : CircuitBreakerConfig) : Abstract → Abstract
  | closed _ => closed 0
  | opened t => opened t
  | halfOpen s => if s + 1 ≥ config.successThreshold.toNat then closed 0 else halfOpen (s + 1)

def failure (config : CircuitBreakerConfig) (now : Nat) : Abstract → Abstract
  | closed k => if k + 1 ≥ config.failureThreshold.toNat then opened now else closed (k + 1)
  | opened _ => opened now
  | halfOpen _ => opened now

def call (config : CircuitBreakerConfig) (c : Call) (a : Abstract) : Option Bool × Abstract :=
  match c.method with
  | .allowRequest => (some (a.allow config c.now).1, (a.allow config c.now).2)
  | .recordSuccess => (none, a.success config)
  | .recordFailure => (none, a.failure config c.now)
  | .reset => (none, closed 0)

/-- The abstract breaker after a history of calls. -/
def after (config : CircuitBreakerConfig) (history : List Call) : Abstract :=
  Transducer.run (call config) (closed 0) history

end Abstract

/-! ## The live fields -/

/-- A `u64` counter at `n`, below its threshold unless it is still zero. -/
structure Counts (counter threshold : UInt64) (n : Nat) : Prop where
  value : counter.toNat = n
  below : n = 0 ∨ n < threshold.toNat

theorem Counts.zero (threshold : UInt64) : Counts 0 threshold 0 := ⟨rfl, .inl rfl⟩

/-- A counter below its threshold cannot wrap, so `fetch_add` is addition. -/
theorem Counts.next_value {counter threshold : UInt64} {n : Nat} (h : Counts counter threshold n) :
    (counter + 1).toNat = n + 1 := by
  have bound := threshold.toNat_lt
  have value := h.value
  have below := h.below
  rw [UInt64.toNat_add]
  simp only [UInt64.toNat_one]
  omega

/-- The source's comparison after `fetch_add` is the abstract one. -/
theorem Counts.reached {counter threshold : UInt64} {n : Nat} (h : Counts counter threshold n) :
    counter + 1 ≥ threshold ↔ n + 1 ≥ threshold.toNat := by
  rw [ge_iff_le, UInt64.le_iff_toNat_le, h.next_value]

theorem Counts.next {counter threshold : UInt64} {n : Nat} (h : Counts counter threshold n)
    (more : ¬ n + 1 ≥ threshold.toNat) : Counts (counter + 1) threshold (n + 1) :=
  ⟨h.next_value, .inr (by omega)⟩

/-- The fields that the state reads; the other two may hold anything. -/
def Live (b : CircuitBreaker) : Abstract → Prop
  | .closed k => b.state = .Closed ∧ Counts b.failureCount b.config.failureThreshold k
  | .opened t => b.state = .Open ∧ b.lastFailureTime = some t
  | .halfOpen s => b.state = .HalfOpen ∧ Counts b.successCount b.config.successThreshold s

theorem Live.state {b : CircuitBreaker} {a : Abstract} (h : Live b a) : b.state = a.state := by
  cases a <;> exact h.1

theorem Live.allow {b : CircuitBreaker} {a : Abstract} (h : Live b a) (now : Nat) :
    (b.allowRequest now).1 = (a.allow b.config now).1 ∧
      Live (b.allowRequest now).2 (a.allow b.config now).2 := by
  cases a with
  | closed k =>
    obtain ⟨state, count⟩ := h
    simp only [allowRequest, state, Abstract.allow]
    exact ⟨trivial, rfl, count⟩
  | opened t =>
    obtain ⟨state, time⟩ := h
    simp only [allowRequest, state, timeoutElapsed, time, Abstract.allow, decide_eq_true_eq]
    by_cases early : now - t < b.config.timeout
    · rw [if_pos early, if_neg (by omega)]
      exact ⟨rfl, rfl, rfl⟩
    · rw [if_neg early, if_pos (by omega)]
      exact ⟨rfl, rfl, Counts.zero _⟩
  | halfOpen s =>
    obtain ⟨state, count⟩ := h
    simp only [allowRequest, state, Abstract.allow]
    exact ⟨trivial, rfl, count⟩

theorem Live.success {b : CircuitBreaker} {a : Abstract} (h : Live b a) :
    Live b.recordSuccess (a.success b.config) := by
  cases a with
  | closed k =>
    simp only [recordSuccess, h.1, Abstract.success]
    exact ⟨rfl, Counts.zero _⟩
  | opened t =>
    simp only [recordSuccess, h.1, Abstract.success]
    exact h
  | halfOpen s =>
    obtain ⟨state, count⟩ := h
    simp only [recordSuccess, state, Abstract.success, count.reached]
    split
    · exact ⟨rfl, Counts.zero _⟩
    · next more => exact ⟨rfl, count.next more⟩

theorem Live.failure {b : CircuitBreaker} {a : Abstract} (h : Live b a) (now : Nat) :
    Live (b.recordFailure now) (a.failure b.config now) := by
  cases a with
  | closed k =>
    obtain ⟨state, count⟩ := h
    simp only [recordFailure, state, Abstract.failure, count.reached]
    split
    · exact ⟨rfl, rfl⟩
    · next more => exact ⟨rfl, count.next more⟩
  | opened t =>
    simp only [recordFailure, h.1, Abstract.failure]
    exact ⟨rfl, rfl⟩
  | halfOpen s =>
    simp only [recordFailure, h.1, Abstract.failure]
    exact ⟨rfl, rfl⟩

/-- **One call.** The answers agree and the live fields stay in step. -/
theorem Live.call {b : CircuitBreaker} {a : Abstract} (h : Live b a) (c : Call) :
    (b.call c).1 = (a.call b.config c).1 ∧ Live (b.call c).2 (a.call b.config c).2 := by
  obtain ⟨now, method⟩ := c
  cases method with
  | allowRequest =>
    obtain ⟨answer, next⟩ := h.allow now
    exact ⟨congrArg some answer, next⟩
  | recordSuccess => exact ⟨rfl, h.success⟩
  | recordFailure => exact ⟨rfl, h.failure now⟩
  | reset => exact ⟨rfl, rfl, Counts.zero _⟩

/-! ## Runs -/

/-- The simulation relation: live fields and the same configuration. -/
structure Simulates (config : CircuitBreakerConfig) (b : CircuitBreaker) (a : Abstract) : Prop where
  config : b.config = config
  live : Live b a

theorem Simulates.call {config : CircuitBreakerConfig} (c : Call) (b : CircuitBreaker) (a : Abstract)
    (h : Simulates config b a) :
    (b.call c).1 = (a.call config c).1 ∧ Simulates config (b.call c).2 (a.call config c).2 := by
  obtain ⟨rfl, live⟩ := h
  obtain ⟨answer, next⟩ := live.call c
  exact ⟨answer, ⟨b.call_config c, next⟩⟩

theorem Simulates.run {config : CircuitBreakerConfig} {b : CircuitBreaker} {a : Abstract}
    (h : Simulates config b a) (calls : List Call) :
    Simulates config (Transducer.run CircuitBreaker.call b calls) (Transducer.run (Abstract.call config) a calls) :=
  Transducer.run_related (fun c b a h => (Simulates.call c b a h).2) h calls

theorem simulates_new (config : CircuitBreakerConfig) : Simulates config (new config) (.closed 0) :=
  ⟨rfl, ⟨rfl, Counts.zero _⟩⟩

/-- Two breakers that differ only in fields their state does not read. -/
structure SameLive (b b' : CircuitBreaker) : Prop where
  config : b'.config = b.config
  state : b'.state = b.state
  failures : b.state = .Closed → b'.failureCount = b.failureCount
  time : b.state = .Open → b'.lastFailureTime = b.lastFailureTime
  successes : b.state = .HalfOpen → b'.successCount = b.successCount

theorem SameLive.simulates {config : CircuitBreakerConfig} {b b' : CircuitBreaker} {a : Abstract}
    (same : SameLive b b') (h : Simulates config b a) : Simulates config b' a := by
  obtain ⟨rfl, live⟩ := h
  refine ⟨same.config, ?_⟩
  cases a with
  | closed k =>
    obtain ⟨state, count⟩ := live
    refine ⟨same.state.trans state, ?_⟩
    rw [same.failures state, same.config]
    exact count
  | opened t =>
    obtain ⟨state, time⟩ := live
    exact ⟨same.state.trans state, (same.time state).trans time⟩
  | halfOpen s =>
    obtain ⟨state, count⟩ := live
    refine ⟨same.state.trans state, ?_⟩
    rw [same.successes state, same.config]
    exact count

/-- **Refinement.** After every history of calls the breaker is in the abstract machine's
state and has given the abstract machine's answers; and what an earlier state left in the
fields that the present one does not read has no influence on any later call. The times
need not be ordered: `elapsed` saturates on both sides. -/
theorem refines_abstract (config : CircuitBreakerConfig) (history : List Call) :
    (after config history).state = (Abstract.after config history).state ∧
    Transducer.trace call (new config) history = Transducer.trace (Abstract.call config) (.closed 0) history ∧
    ∀ b', SameLive (after config history) b' → ∀ later,
      (Transducer.run call b' later).state = (Transducer.run call (after config history) later).state ∧
      Transducer.trace call b' later = Transducer.trace call (after config history) later := by
  have reached : Simulates config (after config history) (Abstract.after config history) :=
    (simulates_new config).run history
  refine ⟨reached.live.state, Transducer.trace_eq Simulates.call (simulates_new config) history, ?_⟩
  intro b' same later
  have other := same.simulates reached
  refine ⟨?_, ?_⟩
  · rw [(other.run later).live.state, (reached.run later).live.state]
  · rw [Transducer.trace_eq Simulates.call other later, Transducer.trace_eq Simulates.call reached later]

end ServiceMesh.CircuitBreaker
