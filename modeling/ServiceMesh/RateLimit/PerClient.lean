import ServiceMesh.RateLimit.Limiter
import ServiceMesh.Logic.Transducer
import Mathlib.Data.Rat.Cast.Order

/-!
# The per-client limit never binds

Every client bucket has the capacity and the rate of the global one, starts full, and gives a
token only when the global one just gave one. So its balance never falls below the global
balance (`Covers`), whenever the two were last brought up to date: creation gives a full
bucket, a granted check takes one token from both, and eviction only unmaps. A check that the
global bucket grants is granted by the client's.
-/

namespace ServiceMesh.RateLimit

open Transducer

namespace TokenBucket

/-- At `now` the bucket `e` holds at least as much as `g`, and the two fill alike. -/
structure Covers (now : Nat) (g e : TokenBucket) : Prop where
  wf : e.Wf
  capacity : e.capacity = g.capacity
  rate : e.refillRate = g.refillRate
  past : e.lastUpdate ≤ now
  more : g.balance now ≤ e.balance now

/-- The lead is kept while both fill. -/
theorem Covers.later {now later : Nat} {g e : TokenBucket} (h : Covers now g e) (wf : g.Wf)
    (past : g.lastUpdate ≤ now) (ordered : now ≤ later) : Covers later g e := by
  refine ⟨h.wf, h.capacity, h.rate, h.past.trans ordered, ?_⟩
  rw [← wf.balance_fill past ordered, ← h.wf.balance_fill h.past ordered, h.capacity, h.rate]
  exact Fluid.fill_mono h.more

/-- A token out of the global bucket alone. -/
theorem Covers.spend {now : Nat} {g e : TokenBucket} (h : Covers now g e) (wf : g.Wf) :
    Covers now (g.tryConsume now).2 e := by
  refine ⟨h.wf, by simp [h.capacity], by simp [h.rate], h.past, ?_⟩
  rw [wf.balance_tryConsume]
  have spent : (0 : ℚ) ≤ (g.tryConsume now).1.toNat := Nat.cast_nonneg _
  have more := h.more
  linarith

/-- A token out of both: the second bucket cannot refuse what the first one gave. -/
theorem Covers.spend_both {now : Nat} {g e : TokenBucket} (h : Covers now g e) (wf : g.Wf)
    (given : (g.tryConsume now).1 = true) :
    (e.tryConsume now).1 = true ∧ Covers now (g.tryConsume now).2 (e.tryConsume now).2 := by
  have enough : (e.tryConsume now).1 = true :=
    tryConsume_eq_true_iff.mpr ((tryConsume_eq_true_iff.mp given).trans h.more)
  refine ⟨enough, h.wf.tryConsume now, by simp [h.capacity], by simp [h.rate], by simp, ?_⟩
  rw [wf.balance_tryConsume, h.wf.balance_tryConsume, given, enough]
  have more := h.more
  linarith

theorem covers_new (now : Nat) {g : TokenBucket} (wf : g.Wf) :
    Covers now g (.new g.capacity g.refillRate now) := by
  refine ⟨.new (wf.nonneg.trans wf.below) wf.rising now, rfl, rfl, le_refl now, ?_⟩
  rw [balance_new wf.rising]
  exact balance_le_capacity

end TokenBucket

theorem limitType_of_rejection {limitType : RateLimitType} {b : TokenBucket} {info : RateLimitInfo}
    (rejected : rejection limitType b = .err info) : info.limitType = limitType := by
  unfold rejection at rejected
  split at rejected
  · cases rejected
    rfl
  · cases rejected

namespace RateLimiter

variable {Ip : Type}

/-- At `now` every entry, mapped or not, covers the global bucket. -/
structure Covered (now : Nat) (l : RateLimiter Ip) : Prop where
  wf : l.globalBucket.Wf
  past : l.globalBucket.lastUpdate ≤ now
  capacity : l.globalBucket.capacity = l.config.burstSize
  rate : l.globalBucket.refillRate = l.config.requestsPerSecond
  entries : ∀ place, TokenBucket.Covers now l.globalBucket (l.entries place).bucket

theorem covered_new (config : RateLimitConfig) (now : Nat) : (new config now : RateLimiter Ip).Covered now := by
  have wf := config.bucket_wf now
  exact ⟨wf, le_refl now, rfl, rfl, fun _ => TokenBucket.covers_new now wf⟩

theorem Covered.later {now later : Nat} {l : RateLimiter Ip} (h : l.Covered now) (ordered : now ≤ later) :
    l.Covered later :=
  ⟨h.wf, h.past.trans ordered, h.capacity, h.rate, fun place => (h.entries place).later h.wf h.past ordered⟩

/-- A try on the global bucket alone leaves the limiter covered. -/
theorem Covered.spend [DecidableEq Ip] {now : Nat} {l : RateLimiter Ip} (h : l.Covered now) : (l.spend now).Covered now := by
  refine ⟨h.wf.tryConsume now, ?_, ?_, ?_, fun place => (h.entries place).spend h.wf⟩
  · exact TokenBucket.tryConsume_lastUpdate.le
  · exact TokenBucket.tryConsume_capacity.trans h.capacity
  · exact TokenBucket.tryConsume_refillRate.trans h.rate

/-- Cleaning up moves no token. -/
theorem maybeCleanup_frame (now : Nat) (l : RateLimiter Ip) :
    (l.maybeCleanup now).config = l.config ∧ (l.maybeCleanup now).globalBucket = l.globalBucket ∧
      (l.maybeCleanup now).entries = l.entries := by
  unfold maybeCleanup
  split
  · exact ⟨rfl, rfl, rfl⟩
  · exact ⟨rfl, rfl, rfl⟩

/-- Looking an entry up creates a full one at most. -/
theorem entry_frame [DecidableEq Ip] (now : Nat) (ip : Ip) (l : RateLimiter Ip) :
    (l.entry now ip).2.config = l.config ∧ (l.entry now ip).2.globalBucket = l.globalBucket ∧
      ∀ place, (l.entry now ip).2.entries place = l.entries place ∨
        (l.entry now ip).2.entries place = .new l.config now := by
  rcases entry_cases now ip l with ⟨place, -, found⟩ | allocated
  · rw [found]
    exact ⟨rfl, rfl, fun _ => .inl rfl⟩
  · rw [allocated]
    refine ⟨rfl, rfl, fun place => ?_⟩
    by_cases fresh : place = l.allocated
    · subst fresh
      exact .inr (Function.update_self _ _ _)
    · exact .inl (Function.update_of_ne fresh _ _)

/-- The lookup keeps every entry above a bucket `g` of the same make. -/
theorem covers_entry [DecidableEq Ip] {now : Nat} {l : RateLimiter Ip} {g : TokenBucket} (wf : g.Wf)
    (capacity : g.capacity = l.config.burstSize) (rate : g.refillRate = l.config.requestsPerSecond)
    (entries : ∀ place, TokenBucket.Covers now g (l.entries place).bucket) (ip : Ip) (place : Nat) :
    TokenBucket.Covers now g ((l.entry now ip).2.entries place).bucket := by
  obtain ⟨-, -, either⟩ := entry_frame now ip l
  rcases either place with old | new
  · rw [old]
    exact entries place
  · have full := TokenBucket.covers_new now wf
    rw [capacity, rate] at full
    rw [new]
    exact full

/-- The client's bucket gives what the global bucket `g` just gave, and the limiter stays covered. -/
theorem covered_tryAcquire {now : Nat} {l : RateLimiter Ip} {g : TokenBucket} (wf : g.Wf)
    (given : (g.tryConsume now).1 = true) (globalBucket : l.globalBucket = (g.tryConsume now).2)
    (capacity : g.capacity = l.config.burstSize) (rate : g.refillRate = l.config.requestsPerSecond)
    (entries : ∀ place, TokenBucket.Covers now g (l.entries place).bucket) (place : Nat) :
    (l.tryAcquire now place).1 = true ∧ (l.tryAcquire now place).2.Covered now := by
  obtain ⟨granted, after⟩ := (entries place).spend_both wf given
  refine ⟨granted, ?_, ?_, ?_, ?_, fun other => ?_⟩
  · exact globalBucket ▸ wf.tryConsume now
  · exact (congrArg TokenBucket.lastUpdate globalBucket).trans_le TokenBucket.tryConsume_lastUpdate.le
  · exact (congrArg TokenBucket.capacity globalBucket).trans (TokenBucket.tryConsume_capacity.trans capacity)
  · exact (congrArg TokenBucket.refillRate globalBucket).trans (TokenBucket.tryConsume_refillRate.trans rate)
  · change TokenBucket.Covers now l.globalBucket (Function.update l.entries place _ other).bucket
    rw [globalBucket]
    by_cases mine : other = place
    · subst mine
      rw [Function.update_self]
      exact after
    · rw [Function.update_of_ne mine]
      exact (entries other).spend wf

/-- What `check` does to a covered limiter: the answer and the global bucket are those of the
global bucket alone, and the limiter stays covered. -/
structure GlobalOnly (now : Nat) (l : RateLimiter Ip) (r : CheckResult × RateLimiter Ip) : Prop where
  result : r.1 = if (l.globalBucket.tryConsume now).1 then .ok else rejection .Global (l.globalBucket.tryConsume now).2
  globalBucket : r.2.globalBucket = (l.globalBucket.tryConsume now).2
  covered : r.2.Covered now

theorem Covered.check [DecidableEq Ip] {now : Nat} {l : RateLimiter Ip} (h : l.Covered now) (clientIp : Option Ip) :
    GlobalOnly now l (l.check now clientIp) := by
  have spent := h.spend
  cases given : (l.globalBucket.tryConsume now).1 with
  | false =>
    refine ⟨?_, ?_, ?_⟩ <;> simp only [RateLimiter.check, given, Bool.false_eq_true, if_false]
    exact spent
  | true =>
    cases perClient : l.config.perClient with
    | false =>
      refine ⟨?_, ?_, ?_⟩ <;> simp only [RateLimiter.check, given, perClient, Bool.false_eq_true, if_true, if_false]
      exact spent
    | true =>
      cases clientIp with
      | none =>
        refine ⟨?_, ?_, ?_⟩ <;> simp only [RateLimiter.check, given, perClient, if_true]
        exact spent
      | some ip =>
        obtain ⟨config, globalBucket, kept⟩ := maybeCleanup_frame now (l.spend now)
        obtain ⟨config', globalBucket', -⟩ := entry_frame now ip ((l.spend now).maybeCleanup now)
        have entries := covers_entry (l := (l.spend now).maybeCleanup now) h.wf (by rw [config]; exact h.capacity)
          (by rw [config]; exact h.rate) (by rw [kept]; exact h.entries) ip
        have same := config'.trans config
        obtain ⟨granted, covered⟩ := covered_tryAcquire h.wf given (globalBucket'.trans globalBucket)
          (by rw [same]; exact h.capacity) (by rw [same]; exact h.rate) entries
          (((l.spend now).maybeCleanup now).entry now ip).1
        rw [check_client now given perClient]
        simp only [granted, if_true]
        refine ⟨by simp [given], ?_, covered⟩
        exact globalBucket'.trans globalBucket

/-! ## Runs -/

/-- The configuration with the per-client limit switched on or off. -/
def withPerClient (config : RateLimitConfig) (perClient : Bool) : RateLimitConfig := { config with perClient }

/-- **One check, two limiters**: covered limiters with the same global bucket answer alike. -/
theorem call_alike [DecidableEq Ip] (t : Nat) (r : Request Ip) (a b : RateLimiter Ip) (ordered : t ≤ r.now)
    (h : a.Covered t ∧ b.Covered t ∧ a.globalBucket = b.globalBucket) :
    (a.call r).1 = (b.call r).1 ∧
      ((a.call r).2.Covered r.now ∧ (b.call r).2.Covered r.now ∧ (a.call r).2.globalBucket = (b.call r).2.globalBucket) := by
  obtain ⟨left, right, same⟩ := h
  have onLeft := (left.later ordered).check r.clientIp
  have onRight := (right.later ordered).check r.clientIp
  refine ⟨?_, onLeft.covered, onRight.covered, ?_⟩
  · rw [call, call, onLeft.result, onRight.result, same]
  · rw [call, call, onLeft.globalBucket, onRight.globalBucket, same]

/-- With the per-client limit off there is only the global one to be rejected by. -/
theorem call_off [DecidableEq Ip] (r : Request Ip) (l : RateLimiter Ip) (off : l.config.perClient = false) :
    (∀ info, (l.call r).1 = .err info → info.limitType = .Global) ∧ (l.call r).2.config.perClient = false := by
  have frame : (l.call r).2.config = l.config := by
    simp only [call, RateLimiter.check, off, Bool.false_eq_true, if_false]
    split <;> rfl
  refine ⟨?_, frame ▸ off⟩
  intro info
  simp only [call, RateLimiter.check, off, Bool.false_eq_true, if_false]
  split
  · intro impossible
    cases impossible
  · intro rejected
    exact limitType_of_rejection rejected

end RateLimiter

open RateLimiter in
/-- **The per-client limit never binds.** For every configuration and every sequence of checks at
non-decreasing times, the limiter with `per_client` on gives the answers of the one with it off,
never rejects with `PerClient`, and at every later time each client's bucket, refilled, holds at
least as many tokens as the global one. -/
theorem per_client_never_binds {Ip : Type} [DecidableEq Ip] (config : RateLimitConfig) (t₀ : Nat)
    (requests : List (Request Ip)) (ordered : (t₀ :: requests.map Request.now).IsChain (· ≤ ·)) :
    trace call (new (withPerClient config true) t₀) requests = trace call (new (withPerClient config false) t₀) requests ∧
    (∀ info, .err info ∈ trace call (new (withPerClient config true) t₀) requests → info.limitType = .Global) ∧
    (∀ client ∈ (run call (new (withPerClient config true) t₀) requests).clientBuckets,
      ∀ now, (requests.map Request.now).getLastD t₀ ≤ now →
        (run call (new (withPerClient config true) t₀) requests).globalBucket.balance now ≤
          ((run call (new (withPerClient config true) t₀) requests).entries client.2).bucket.balance now) := by
  have start : ∀ perClient, (new (withPerClient config perClient) t₀ : RateLimiter Ip).Covered t₀ :=
    fun perClient => covered_new _ t₀
  obtain ⟨alike, reached, -, -⟩ := trace_eq_timed call_alike ordered ⟨start true, start false, rfl⟩
  refine ⟨alike, ?_, ?_⟩
  · intro info mem
    rw [alike] at mem
    exact trace_forall (I := fun l => l.config.perClient = false)
      (P := fun result => ∀ info, result = .err info → info.limitType = .Global) call_off rfl requests _ mem info rfl
  · intro client _ now later
    exact ((reached.later later).entries client.2).more

open RateLimiter in
/-- Two clients share a burst of two; the third check is rejected by the global bucket, and after
a minute the second client's entry, expired, has been evicted. -/
theorem per_client_never_binds_shared :
    let config : RateLimitConfig := { RateLimitConfig.default with requestsPerSecond := 1, burstSize := 2, clientTtl := 0 }
    let requests : List (Request Bool) := [⟨0, some true⟩, ⟨0, some false⟩, ⟨0, some true⟩, ⟨61 * 10 ^ 9, some true⟩]
    trace call (new (withPerClient config true) 0) requests =
      [.ok, .ok, .err { limitType := .Global, retryAfter := 10 ^ 9, remaining := 0 }, .ok] ∧
    trace call (new (withPerClient config false) 0) requests =
      [.ok, .ok, .err { limitType := .Global, retryAfter := 10 ^ 9, remaining := 0 }, .ok] ∧
    (run call (new (withPerClient config true) 0) requests).clientBuckets = [(true, 2)] ∧
    (run call (new (withPerClient config true) 0) requests).globalBucket.balance (61 * 10 ^ 9) ≤
      ((run call (new (withPerClient config true) 0) requests).entries 2).bucket.balance (61 * 10 ^ 9) := by
  intro config requests
  obtain ⟨alike, -, more⟩ := per_client_never_binds config 0 requests (by decide)
  have results : trace call (new (withPerClient config true) 0) requests =
      [.ok, .ok, .err { limitType := .Global, retryAfter := 10 ^ 9, remaining := 0 }, .ok] := by decide +kernel
  have mapped : (run call (new (withPerClient config true) 0) requests).clientBuckets = [(true, 2)] := by decide +kernel
  exact ⟨results, alike ▸ results, mapped, more (true, 2) (mapped ▸ List.mem_singleton_self _) _ (by decide)⟩

end ServiceMesh.RateLimit
