import ServiceMesh.RateLimit.Limiter
import ServiceMesh.Logic.Pool

/-!
# The rate limiter, one lock or map operation at a time

`RateLimiter::check` as the control states of a shared object. One step is one acquisition of
the lock of a bucket, of `last_access` or of `last_cleanup`, or one operation on the map
(`len`, `retain`, `entry`), and between two steps other checks may run and the clock may move.

* `if !self.global_bucket.lock().try_consume()` releases the lock with the condition, so the
  `wait_time` of a rejection is read from whatever the bucket is by then: `waitGlobal`,
  `waitClient`.
* `*self.last_access.lock() = Instant::now()` reads the clock before it takes the lock:
  `readClock`, then `touch`.
* `initial_count - self.client_buckets.len()` only feeds a log line; when the map has grown in
  the meantime it panics in a build with overflow checks and wraps in one without.

Run without interleaving, the steps are the sequential `check` (`solo_check`), so every sequence
of checks that do not overlap is one of the schedules (`checks_scheduled`).
-/

namespace ServiceMesh.RateLimit

open Conc

/-- Where a check stands. `place` is the entry that the lookup returned. -/
inductive Pc (Ip : Type) where
  | consumeGlobal (clientIp : Option Ip)
  | waitGlobal
  | cleanup (ip : Ip)
  | countBefore (ip : Ip)
  | retain (ip : Ip) (initialCount : Nat)
  | countAfter (ip : Ip) (initialCount : Nat)
  | lookup (ip : Ip)
  | readClock (place : Nat)
  | touch (place t : Nat)
  | consumeClient (place : Nat)
  | waitClient (place : Nat)
deriving Repr, DecidableEq

/-- How a check ended: `Ok(())`, with the entry that gave a token if the client's limit applied;
`Err(info)`; or a panic while it was at one of the two limits. -/
inductive Reply where
  | ok (charged : Option Nat)
  | err (info : RateLimitInfo)
  | panicked (limit : RateLimitType)
deriving Repr, DecidableEq

def Reply.result : Reply → CheckResult
  | ok _ => .ok
  | err info => .err info
  | panicked _ => .panic

/-- The rejection by a bucket, as it is when its `wait_time` is read. -/
def Reply.rejected (limit : RateLimitType) (b : TokenBucket) : Reply :=
  match b.waitTime with
  | some waitTime => .err { limitType := limit, retryAfter := waitTime, remaining := 0 }
  | none => .panicked limit

theorem Reply.rejected_result (limit : RateLimitType) (b : TokenBucket) :
    (Reply.rejected limit b).result = rejection limit b := by
  unfold rejected rejection
  cases b.waitTime <;> rfl

section
variable {Ip : Type} [DecidableEq Ip]

/-- Past the global limit: whether the client's applies. -/
def Pc.granted (config : RateLimitConfig) (clientIp : Option Ip) : Status (Pc Ip) Reply :=
  if config.perClient then
    match clientIp with
    | some ip => .running (.cleanup ip)
    | none => .done (.ok none)
  else .done (.ok none)

omit [DecidableEq Ip] in
theorem Pc.granted_cases (config : RateLimitConfig) (clientIp : Option Ip) :
    Pc.granted config clientIp = .done (.ok none) ∨ ∃ ip, Pc.granted config clientIp = .running (.cleanup ip) := by
  unfold Pc.granted
  split
  · cases clientIp with
    | none => exact .inl rfl
    | some ip => exact .inr ⟨ip, rfl⟩
  · exact .inl rfl

def Pc.step (overflowChecks : Bool) (now : Nat) (l : RateLimiter Ip) : Pc Ip → RateLimiter Ip × Status (Pc Ip) Reply
  | consumeGlobal clientIp =>
    let (taken, globalBucket) := l.globalBucket.tryConsume now
    ({ l with globalBucket }, if taken then granted l.config clientIp else .running waitGlobal)
  | waitGlobal => (l, .done (.rejected .Global l.globalBucket))
  | cleanup ip =>
    if now - l.lastCleanup < 60 * 10 ^ 9 then (l, .running (lookup ip))
    else ({ l with lastCleanup := now }, .running (countBefore ip))
  | countBefore ip => (l, .running (retain ip l.clientBuckets.length))
  | retain ip initialCount =>
    ({ l with
        clientBuckets := l.clientBuckets.filter fun client => !(l.entries client.2).isExpired now l.config.clientTtl },
      .running (countAfter ip initialCount))
  | countAfter ip initialCount =>
    (l, if overflowChecks && decide (initialCount < l.clientBuckets.length) then .done (.panicked .PerClient)
      else .running (lookup ip))
  | lookup ip =>
    let (place, l) := l.entry now ip
    (l, .running (readClock place))
  | readClock place => (l, .running (touch place now))
  | touch place t =>
    ({ l with entries := Function.update l.entries place { l.entries place with lastAccess := t } },
      .running (consumeClient place))
  | consumeClient place =>
    let (taken, bucket) := (l.entries place).bucket.tryConsume now
    ({ l with entries := Function.update l.entries place { l.entries place with bucket } },
      if taken then .done (.ok (some place)) else .running (waitClient place))
  | waitClient place => (l, .done (.rejected .PerClient (l.entries place).bucket))

/-- The limiter under concurrent checks, in a build with or without overflow checks. -/
def shared (Ip : Type) [DecidableEq Ip] (overflowChecks : Bool) : Object (RateLimiter Ip) (Option Ip) (Pc Ip) Reply where
  start := .consumeGlobal
  step now l k := k.step overflowChecks now l

/-- Limiter and checks under way. -/
abbrev Checks (Ip : Type) := Pool (RateLimiter Ip) (Pc Ip) Reply

/-- A limiter just created at `t₀`, before the first check. -/
def fresh (Ip : Type) (config : RateLimitConfig) (t₀ : Nat) : Checks Ip := ⟨t₀, .new config t₀, []⟩

/-! ## A check alone -/

variable (overflowChecks : Bool) (now : Nat)

/-- The entry's two locks in turn, with nothing between them, are `ClientEntry::try_acquire`. -/
theorem consume_touched (place : Nat) (l : RateLimiter Ip) :
    Pc.step overflowChecks now
        { l with entries := Function.update l.entries place { l.entries place with lastAccess := now } }
        (.consumeClient place) =
      ((l.tryAcquire now place).2,
        if (l.tryAcquire now place).1 then .done (.ok (some place)) else .running (.waitClient place)) := by
  simp only [Pc.step, RateLimiter.tryAcquire, ClientEntry.tryAcquire, Function.update_idem, Function.update_self]
  rfl

theorem solo_readClock (place : Nat) (l : RateLimiter Ip) :
    ∃ reply : Reply, reply.result = (if (l.tryAcquire now place).1 then .ok
        else rejection .PerClient ((l.tryAcquire now place).2.entries place).bucket) ∧
      Solo (shared Ip overflowChecks) now l (.readClock place) (l.tryAcquire now place).2 reply := by
  have consume := consume_touched overflowChecks now place l
  cases granted : (l.tryAcquire now place).1 with
  | true =>
    rw [granted] at consume
    exact ⟨.ok (some place), rfl, .next rfl (.next rfl (.ret consume))⟩
  | false =>
    rw [granted] at consume
    exact ⟨.rejected .PerClient _, Reply.rejected_result _ _, .next rfl (.next rfl (.next consume (.ret rfl)))⟩

/-- The cleanup alone: the map does not grow, so the subtraction is safe. -/
theorem solo_cleanup (ip : Ip) {l l' : RateLimiter Ip} {reply : Reply}
    (rest : Solo (shared Ip overflowChecks) now (l.maybeCleanup now) (.lookup ip) l' reply) :
    Solo (shared Ip overflowChecks) now l (.cleanup ip) l' reply := by
  by_cases recent : now - l.lastCleanup < 60 * 10 ^ 9
  · rw [RateLimiter.maybeCleanup, if_pos recent] at rest
    exact .next (if_pos recent) rest
  · rw [RateLimiter.maybeCleanup, if_neg recent] at rest
    refine .next (if_neg recent) (.next rfl (.next rfl (.next ?_ rest)))
    have shrinks := List.length_filter_le (fun client => !(l.entries client.2).isExpired now l.config.clientTtl)
      l.clientBuckets
    simp only [shared, Pc.step, decide_eq_false (not_lt.mpr shrinks), Bool.and_false, Bool.false_eq_true, if_false]

/-- **A check alone is the sequential check.** -/
theorem solo_check (clientIp : Option Ip) (l : RateLimiter Ip) :
    ∃ reply : Reply, reply.result = (l.check now clientIp).1 ∧
      Solo (shared Ip overflowChecks) now l ((shared Ip overflowChecks).start clientIp) (l.check now clientIp).2 reply := by
  cases taken : (l.globalBucket.tryConsume now).1 with
  | false =>
    have first : (shared Ip overflowChecks).step now l (.consumeGlobal clientIp) =
        ({ l with globalBucket := (l.globalBucket.tryConsume now).2 }, .running .waitGlobal) := by
      simp only [shared, Pc.step, taken, Bool.false_eq_true, if_false]
    simp only [RateLimiter.check, taken, Bool.false_eq_true, if_false]
    exact ⟨.rejected .Global _, Reply.rejected_result _ _, .next first (.ret rfl)⟩
  | true =>
    have first : (shared Ip overflowChecks).step now l (.consumeGlobal clientIp) =
        ({ l with globalBucket := (l.globalBucket.tryConsume now).2 }, Pc.granted l.config clientIp) := by
      simp only [shared, Pc.step, taken, if_true]
    cases perClient : l.config.perClient with
    | false =>
      simp only [RateLimiter.check, taken, perClient, Bool.false_eq_true, if_true, if_false]
      simp only [Pc.granted, perClient, Bool.false_eq_true, if_false] at first
      exact ⟨.ok none, rfl, .ret first⟩
    | true =>
      cases clientIp with
      | none =>
        simp only [RateLimiter.check, taken, perClient, if_true]
        simp only [Pc.granted, perClient, if_true] at first
        exact ⟨.ok none, rfl, .ret first⟩
      | some ip =>
        simp only [Pc.granted, perClient, if_true] at first
        have whole := RateLimiter.check_client now taken perClient ip
        obtain ⟨reply, result, acquire⟩ := solo_readClock overflowChecks now
          (((l.spend now).maybeCleanup now).entry now ip).1 (((l.spend now).maybeCleanup now).entry now ip).2
        rw [whole]
        exact ⟨reply, result, .next first (solo_cleanup overflowChecks now ip (.next rfl acquire))⟩

/-- Every sequence of checks that do not overlap is a schedule of the shared limiter. -/
theorem checks_scheduled (config : RateLimitConfig) (t₀ : Nat) (requests : List (Request Ip))
    (ordered : (t₀ :: requests.map Request.now).IsChain (· ≤ ·)) :
    ∃ (labels : List (Label (Option Ip))) (replies : List Reply),
      (shared Ip overflowChecks).run (fresh Ip config t₀) labels =
        ⟨(requests.map Request.now).getLastD t₀, Transducer.run RateLimiter.call (.new config t₀) requests,
          replies.map .done⟩ ∧
      replies.map Reply.result = Transducer.trace RateLimiter.call (.new config t₀) requests := by
  refine Solo.history Request.now Request.clientIp Reply.result ?_ requests (c := fresh Ip config t₀) ordered
  intro r l
  exact solo_check overflowChecks r.now r.clientIp l

end

end ServiceMesh.RateLimit
