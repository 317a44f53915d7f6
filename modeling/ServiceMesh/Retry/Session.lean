import ServiceMesh.Retry.Delay

/-!
# One executor, many requests

`execute` counts its retries in the executor, and only `reset` takes the counter back. So all requests between two
resets share one budget, each taking what it needs of what those before it have left, and the backoff goes on from one
request to the next. A single `execute` that starts at some attempt is known in full (`run_execute`); the requests after
it start where it stops, and that is the induction (`Spends`).
-/

namespace ServiceMesh.Retry

open Transducer Loop

variable {T E : Type}

/-- A use of an executor. -/
inductive Use (T E : Type) where
  | execute (w : World T E)
  | reset

/-- The result of an `execute` and what it did; there is none for a reset, or while an `execute` still runs after this
number of iterations. -/
def Use.run (iterations : Nat) : Use T E → RetryExecutor → Option (Except (RetryError E) T × List Event) × RetryExecutor
  | execute w, x =>
    match Retry.execute w iterations x with
    | some (result, last) => (some (result, last.log), last.executor)
    | none => (none, x)
  | reset, x => (none, x.reset)

/-- As many iterations as any `execute` can take. -/
def enough : Nat := 2 ^ 32

/-- The delay of a sleep. -/
def Event.delay? : Event → Option Nat
  | .invoke => none
  | .sleep delay => some delay

/-- All that was done in some uses, in order. -/
def logged (replies : List (Option (Except (RetryError E) T × List Event))) : List Event :=
  replies.flatMap fun reply => (reply.map (·.2)).getD []

/-! ## One request -/

theorem policyAt_toNat (config : RetryConfig) {a : Nat} (within : a ≤ config.maxRetries.toNat) :
    (config.policyAt a).attempt.toNat = a := by
  have fresh : (RetryPolicy.new config).attempt.toNat = 0 := rfl
  have counted : ((RetryPolicy.new config).retried a).attempt.toNat = (RetryPolicy.new config).attempt.toNat + a := by
    apply retried_attempt
    rw [fresh, Nat.zero_add]
    exact within
  rw [fresh, Nat.zero_add] at counted
  exact counted

/-- Retries on top of retries. -/
theorem policyAt_retried (config : RetryConfig) {a : Nat} (within : a ≤ config.maxRetries.toNat) (i : Nat) :
    (config.policyAt a).retried i = config.policyAt (a + i) := by
  have start := policyAt_toNat config within
  rw [RetryPolicy.retried, start]
  simp [RetryConfig.policyAt, RetryPolicy.retried, RetryPolicy.new]

/-- The retries of a request that starts at attempt `a`: as many as it needs, of what is left. -/
def retries (config : RetryConfig) (a : Nat) (w : World T E) : Nat := leading w.retryable (config.maxRetries.toNat - a)

theorem retries_le (config : RetryConfig) {a : Nat} (within : a ≤ config.maxRetries.toNat) (w : World T E) :
    a + retries config a w ≤ config.maxRetries.toNat := by
  have bound := (leading_spec w.retryable (config.maxRetries.toNat - a)).1
  unfold retries
  omega

/-- **One request** from attempt `a` on. -/
theorem run_execute (config : RetryConfig) {a : Nat} (within : a ≤ config.maxRetries.toNat) (w : World T E) :
    (Use.execute w).run enough ⟨config.policyAt a⟩ =
      (some (lastResult w ⟨config.policyAt a⟩ (retries config a w),
          rounds w (config.policyAt a) (retries config a w) ++ [.invoke]),
        ⟨config.policyAt (a + retries config a w)⟩) := by
  have start := policyAt_toNat config within
  have inside := retries_le config within w
  obtain ⟨-, passes, stops⟩ := leading_spec w.retryable (config.maxRetries.toNat - a)
  have goes_on : ∀ i < retries config a w, body w (pass w ⟨config.policyAt a⟩ i) = .next (pass w ⟨config.policyAt a⟩ (i + 1)) := by
    intro i lt
    refine body_next w ?_ (passes i lt)
    show (config.policyAt a).attempt.toNat + i < config.maxRetries.toNat
    omega
  have leaves : body w (pass w ⟨config.policyAt a⟩ (retries config a w)) =
      .leave (lastResult w ⟨config.policyAt a⟩ (retries config a w))
        { pass w ⟨config.policyAt a⟩ (retries config a w) with
          log := (pass w ⟨config.policyAt a⟩ (retries config a w)).log ++ [.invoke] } := by
    refine body_leave w ?_ fun short => stops ?_
    · show (config.policyAt a).attempt.toNat + retries config a w ≤ config.maxRetries.toNat
      omega
    · have short : (config.policyAt a).attempt.toNat + retries config a w < config.maxRetries.toNat := short
      rw [start] at short
      show retries config a w < _
      omega
  have ended := loop_of_states goes_on leaves enough
  have few : retries config a w < enough := by
    have small := config.maxRetries.toNat_lt
    unfold enough
    omega
  rw [if_pos few, pass_zero] at ended
  simp only [Use.run, execute, ended]
  rw [pass, policyAt_retried config within]

/-- The sleeps of a request go on with the backoff at attempt `a`. -/
theorem delays_rounds (config : RetryConfig) {a : Nat} (within : a ≤ config.maxRetries.toNat) (w : World T E) (k : Nat) :
    (rounds w (config.policyAt a) k).filterMap Event.delay? =
      (List.range k).map fun i => (config.policyAt (a + i)).nextDelay (w.jitter i) := by
  induction k with
  | zero => rfl
  | succ k ih =>
    rw [rounds_succ, List.filterMap_append, ih, List.range_succ, List.map_append, policyAt_retried config within]
    rfl

/-! ## The requests between two resets -/

/-- What the requests `ws` of an executor do that starts at attempt `a`: their replies, and the executor after them. -/
structure Spends (config : RetryConfig) (a : Nat) (ws : List (World T E))
    (replies : List (Option (Except (RetryError E) T × List Event))) (x : RetryExecutor) : Prop where
  /-- they share one budget, which the counter keeps -/
  budget : a + (logged replies).countP isSleep ≤ config.maxRetries.toNat
  counter : x.policy = config.policyAt (a + (logged replies).countP isSleep)
  /-- each invokes once more than it sleeps -/
  invocations : (logged replies).count .invoke = ws.length + (logged replies).countP isSleep
  /-- the backoff goes on from one request to the next -/
  backoff : ∀ i d, ((logged replies).filterMap Event.delay?)[i]? = some d →
    ∃ w ∈ ws, ∃ j, d = (config.policyAt (a + i)).nextDelay (w.jitter j)
  /-- each request returns, and retries as long as it needs or the requests before it have left some of the budget -/
  greedy : ∀ before w after, ws = before ++ w :: after → ∃ result log,
    replies[before.length]? = some (some (result, log)) ∧
    log.countP isSleep = retries config (a + (logged (replies.take before.length)).countP isSleep) w

theorem logged_cons (reply : Option (Except (RetryError E) T × List Event))
    (replies : List (Option (Except (RetryError E) T × List Event))) :
    logged (reply :: replies) = (reply.map (·.2)).getD [] ++ logged replies := List.flatMap_cons

/-- **The requests of one executor**, from any attempt on. -/
theorem spends (config : RetryConfig) (ws : List (World T E)) {a : Nat} (within : a ≤ config.maxRetries.toNat) :
    Spends config a ws (trace (Use.run enough) ⟨config.policyAt a⟩ (ws.map .execute))
      (run (Use.run enough) ⟨config.policyAt a⟩ (ws.map .execute)) := by
  induction ws generalizing a with
  | nil =>
    refine ⟨within, rfl, rfl, ?_, ?_⟩
    · intro i d impossible
      cases impossible
    · intro before w after impossible
      exact absurd impossible (by simp)
  | cons w ws ih =>
    have first := run_execute config within w
    have inside := retries_le config within w
    have rest := ih inside
    have slept : (rounds w (config.policyAt a) (retries config a w) ++ [Event.invoke]).countP isSleep = retries config a w := by
      rw [List.countP_append, countP_isSleep_rounds]
      rfl
    have invoked : (rounds w (config.policyAt a) (retries config a w) ++ [Event.invoke]).count .invoke = retries config a w + 1 := by
      rw [List.count_append, count_invoke_rounds]
      rfl
    rw [List.map_cons, trace_cons, run_cons, first]
    -- the log is that of the first request, and those of the others
    have whole := logged_cons (some (lastResult w ⟨config.policyAt a⟩ (retries config a w),
      rounds w (config.policyAt a) (retries config a w) ++ [.invoke]))
      (trace (Use.run enough) ⟨config.policyAt (a + retries config a w)⟩ (ws.map .execute))
    simp only [Option.map_some, Option.getD_some] at whole
    constructor
    · rw [whole, List.countP_append, slept, ← Nat.add_assoc]
      exact rest.budget
    · rw [whole, List.countP_append, slept, ← Nat.add_assoc]
      exact rest.counter
    · rw [whole, List.count_append, List.countP_append, invoked, slept, rest.invocations, List.length_cons]
      omega
    · intro i d found
      rw [whole, List.filterMap_append, List.filterMap_append, delays_rounds config within,
        show [Event.invoke].filterMap Event.delay? = [] from rfl, List.append_nil] at found
      by_cases mine : i < retries config a w
      · rw [List.getElem?_append_left (by simpa using mine)] at found
        rw [List.getElem?_map, List.getElem?_range mine] at found
        exact ⟨w, List.mem_cons_self, i, (Option.some.inj found).symm⟩
      · rw [List.getElem?_append_right (by simpa using mine)] at found
        obtain ⟨w', mem, j, same⟩ := rest.backoff _ d found
        refine ⟨w', List.mem_cons_of_mem w mem, j, ?_⟩
        rw [same, List.length_map, List.length_range, Nat.add_assoc, Nat.add_sub_cancel' (Nat.le_of_not_lt mine)]
    · intro before w' after split
      cases before with
      | nil =>
        obtain ⟨rfl, rfl⟩ := List.cons.inj split
        exact ⟨_, _, rfl, slept⟩
      | cons w'' before =>
        obtain ⟨rfl, rfl⟩ := List.cons.inj split
        obtain ⟨result, log, reply, count⟩ := rest.greedy before w' after rfl
        refine ⟨result, log, reply, ?_⟩
        rw [count, List.length_cons, List.take_succ_cons, logged_cons, Option.map_some, Option.getD_some,
          List.countP_append, slept, ← Nat.add_assoc]

/-! ## Any history -/

/-- The executor counts its retries within the budget. -/
def Counting (config : RetryConfig) (x : RetryExecutor) : Prop :=
  x.policy.config = config ∧ x.policy.attempt.toNat ≤ config.maxRetries.toNat

theorem Counting.executor_eq {config : RetryConfig} {x : RetryExecutor} (h : Counting config x) :
    x = ⟨config.policyAt x.policy.attempt.toNat⟩ := by
  have same := policyAt_attempt x.policy
  rw [h.1] at same
  exact (congrArg RetryExecutor.mk same).symm

theorem Counting.run {config : RetryConfig} (use : Use T E) (x : RetryExecutor) (h : Counting config x) :
    Counting config (use.run enough x).2 := by
  cases use with
  | reset => exact ⟨h.1, Nat.zero_le _⟩
  | execute w =>
    have inside := retries_le config h.2 w
    rw [h.executor_eq, run_execute config h.2 w]
    exact ⟨rfl, (policyAt_toNat config inside).trans_le inside⟩

/-- **The retry budget is the executor's.** After any requests and resets, the requests that follow share what is left of
the budget, and the backoff goes on from one to the next; and a reset makes the executor as new. -/
theorem retry_budget_shared (config : RetryConfig) (earlier : List (Use T E)) (ws : List (World T E)) :
    let x := run (Use.run enough) (RetryExecutor.new config) earlier
    Spends config x.policy.attempt.toNat ws (trace (Use.run enough) x (ws.map .execute))
      (run (Use.run enough) x (ws.map .execute)) ∧
    run (Use.run enough) (RetryExecutor.new config) (earlier ++ [.reset]) = .new config := by
  intro x
  have counting : Counting config x := run_invariant Counting.run ⟨rfl, Nat.zero_le _⟩ earlier
  constructor
  · have all := spends config ws counting.2
    rw [← counting.executor_eq] at all
    exact all
  · rw [run_append, run_cons, run_nil]
    show RetryExecutor.mk ⟨x.policy.config, 0⟩ = _
    rw [counting.1]
    rfl

end ServiceMesh.Retry
