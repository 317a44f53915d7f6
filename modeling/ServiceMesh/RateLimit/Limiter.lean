import ServiceMesh.RateLimit.Bucket
import Mathlib.Logic.Function.Basic

/-!
# The rate limiter (`ratelimit.rs`), one check at a time

`RateLimiter::check` with its global bucket, its map of client entries and their TTL eviction,
when no other call overlaps and all clock readings inside one check coincide. An
`Arc<ClientEntry>` outlives its removal from the map, so entries live in a heap and the map
holds their places; `allocated` is the first free place. The key type stands for `IpAddr`.
-/

namespace ServiceMesh.RateLimit

structure RateLimitConfig where
  requestsPerSecond : Nat
  burstSize : Nat
  perClient : Bool
  clientTtl : Nat
  trustForwardedFor : Bool
  maxForwardedIps : Nat
deriving Repr, DecidableEq

/-- `RateLimitConfig::default`. -/
def RateLimitConfig.default : RateLimitConfig :=
  { requestsPerSecond := 100, burstSize := 50, perClient := true, clientTtl := 300 * 10 ^ 9,
    trustForwardedFor := false, maxForwardedIps := 1 }

/-- The bucket of the configuration, as `RateLimiter::new` and `ClientEntry::new` build it. -/
def RateLimitConfig.bucket (config : RateLimitConfig) (now : Nat) : TokenBucket :=
  .new config.burstSize config.requestsPerSecond now

theorem RateLimitConfig.bucket_wf (config : RateLimitConfig) (now : Nat) : (config.bucket now).Wf :=
  .new (Nat.cast_nonneg _) (Nat.cast_nonneg _) now

/-- That bucket after `k` tokens were taken from it, the last one at `now`, and none was refilled. -/
def RateLimitConfig.drawnBucket (now k : Nat) (config : RateLimitConfig) : TokenBucket :=
  ⟨config.burstSize - k, config.burstSize, config.requestsPerSecond, now⟩

theorem RateLimitConfig.drawnBucket_zero (config : RateLimitConfig) (now : Nat) :
    config.drawnBucket now 0 = config.bucket now := by
  rw [drawnBucket, Nat.cast_zero, sub_zero]
  rfl

/-- One token more, at the same time. -/
theorem RateLimitConfig.drawnBucket_tryConsume {config : RateLimitConfig} {k : Nat} (more : k < config.burstSize) (now : Nat) :
    (config.drawnBucket now k).tryConsume now = (true, config.drawnBucket now (k + 1)) := by
  have enough : (k : ℚ) + 1 ≤ config.burstSize := by exact_mod_cast more
  have level : (config.drawnBucket now k).balance now = config.burstSize - k := by
    simp [TokenBucket.balance, Fluid.fill, drawnBucket]
  rcases TokenBucket.tryConsume_cases now (config.drawnBucket now k) with ⟨-, eq⟩ | ⟨short, -⟩
  · rw [eq, level, drawnBucket, drawnBucket]
    simp only [TokenBucket.refill, Prod.mk.injEq, TokenBucket.mk.injEq, true_and, and_true]
    push_cast
    ring
  · rw [level] at short
    linarith

structure ClientEntry where
  bucket : TokenBucket
  lastAccess : Nat
deriving Repr, DecidableEq

namespace ClientEntry

def new (config : RateLimitConfig) (now : Nat) : ClientEntry :=
  { bucket := config.bucket now, lastAccess := now }

def tryAcquire (now : Nat) (e : ClientEntry) : Bool × ClientEntry :=
  ((e.bucket.tryConsume now).1, { bucket := (e.bucket.tryConsume now).2, lastAccess := now })

def isExpired (now ttl : Nat) (e : ClientEntry) : Bool := now - e.lastAccess > ttl

end ClientEntry

inductive RateLimitType where
  | Global
  | PerClient
deriving Repr, DecidableEq

structure RateLimitInfo where
  limitType : RateLimitType
  retryAfter : Nat
  remaining : Nat
deriving Repr, DecidableEq

/-- What a check comes to: `Ok(())`, `Err(info)`, or the panic of `wait_time`. -/
inductive CheckResult where
  | ok
  | err (info : RateLimitInfo)
  | panic
deriving Repr, DecidableEq

/-- The rejection by a bucket: its `wait_time` is the `retry_after`. -/
def rejection (limitType : RateLimitType) (b : TokenBucket) : CheckResult :=
  match b.waitTime with
  | some waitTime => .err { limitType, retryAfter := waitTime, remaining := 0 }
  | none => .panic

structure RateLimiter (Ip : Type) where
  config : RateLimitConfig
  globalBucket : TokenBucket
  clientBuckets : List (Ip × Nat)
  entries : Nat → ClientEntry
  allocated : Nat
  lastCleanup : Nat

namespace RateLimiter

variable {Ip : Type} [DecidableEq Ip]

/-- A limiter created at `now`. Free places of the heap hold full buckets. -/
def new (config : RateLimitConfig) (now : Nat) : RateLimiter Ip :=
  { config, globalBucket := config.bucket now, clientBuckets := [], entries := fun _ => .new config now,
    allocated := 0, lastCleanup := now }

def maybeCleanup (now : Nat) (l : RateLimiter Ip) : RateLimiter Ip :=
  if now - l.lastCleanup < 60 * 10 ^ 9 then l
  else
    { l with
      lastCleanup := now
      clientBuckets := l.clientBuckets.filter fun client => !(l.entries client.2).isExpired now l.config.clientTtl }

/-- `client_buckets.entry(ip).or_insert_with(..)`: the place of the client's entry. -/
def entry (now : Nat) (ip : Ip) (l : RateLimiter Ip) : Nat × RateLimiter Ip :=
  match l.clientBuckets.lookup ip with
  | some place => (place, l)
  | none =>
    (l.allocated,
      { l with
        clientBuckets := (ip, l.allocated) :: l.clientBuckets
        entries := Function.update l.entries l.allocated (.new l.config now)
        allocated := l.allocated + 1 })

def tryAcquire (now place : Nat) (l : RateLimiter Ip) : Bool × RateLimiter Ip :=
  (((l.entries place).tryAcquire now).1,
    { l with entries := Function.update l.entries place ((l.entries place).tryAcquire now).2 })

def check (now : Nat) (clientIp : Option Ip) (l : RateLimiter Ip) : CheckResult × RateLimiter Ip :=
  let (taken, globalBucket) := l.globalBucket.tryConsume now
  let l := { l with globalBucket }
  if taken then
    if l.config.perClient then
      match clientIp with
      | some ip =>
        let (place, l) := (l.maybeCleanup now).entry now ip
        let (taken, l) := l.tryAcquire now place
        if taken then (.ok, l) else (rejection .PerClient (l.entries place).bucket, l)
      | none => (.ok, l)
    else (.ok, l)
  else (rejection .Global l.globalBucket, l)

/-- Looking up an entry finds a mapped one and changes nothing, or allocates a full one. -/
theorem entry_cases (now : Nat) (ip : Ip) (l : RateLimiter Ip) :
    (∃ place, (ip, place) ∈ l.clientBuckets ∧ l.entry now ip = (place, l)) ∨
    l.entry now ip = (l.allocated,
      { l with
        clientBuckets := (ip, l.allocated) :: l.clientBuckets
        entries := Function.update l.entries l.allocated (.new l.config now)
        allocated := l.allocated + 1 }) := by
  unfold entry
  cases found : l.clientBuckets.lookup ip with
  | none => exact .inr rfl
  | some place =>
    obtain ⟨before, after, split, -⟩ := List.lookup_eq_some_iff.mp found
    have mem : (ip, place) ∈ l.clientBuckets := by
      rw [split]
      exact List.mem_append_right _ List.mem_cons_self
    exact .inl ⟨place, mem, rfl⟩

/-- The limiter after a try on the global bucket. -/
def spend (now : Nat) (l : RateLimiter Ip) : RateLimiter Ip :=
  { l with globalBucket := (l.globalBucket.tryConsume now).2 }

/-- The check of a client whom the global bucket let through. -/
theorem check_client (now : Nat) {l : RateLimiter Ip} (taken : (l.globalBucket.tryConsume now).1 = true)
    (perClient : l.config.perClient = true) (ip : Ip) :
    l.check now (some ip) =
      let found := ((l.spend now).maybeCleanup now).entry now ip
      let acquired := found.2.tryAcquire now found.1
      (if acquired.1 then .ok else rejection .PerClient (acquired.2.entries found.1).bucket, acquired.2) := by
  simp only [check, taken, perClient, if_true, spend]
  split
  · next granted => exact congrArg (Prod.mk · _) (if_pos granted).symm
  · next refused => exact congrArg (Prod.mk · _) (if_neg refused).symm

end RateLimiter

/-- A check at a time, for a client or for none. -/
structure Request (Ip : Type) where
  now : Nat
  clientIp : Option Ip
deriving Repr, DecidableEq

def RateLimiter.call {Ip : Type} [DecidableEq Ip] (r : Request Ip) (l : RateLimiter Ip) :
    CheckResult × RateLimiter Ip :=
  l.check r.now r.clientIp

end ServiceMesh.RateLimit
