import ServiceMesh.RateLimit.Spend
import ServiceMesh.Logic.Supply

/-!
# What the limiter lets through, in every interleaving

Any number of checks run at once, and the clock moves between their steps. Each bucket, the global one and every client's,
is a resource that checks pay for and that time refills (`global_refilled`, `client_refilled`), so over any stretch of any
schedule the tokens given out are at most a full bucket and what the rate brings, and a bucket from which nothing is taken
fills up at its rate.
-/

namespace ServiceMesh.RateLimit

open Conc

variable {Ip : Type} {config : RateLimitConfig}

/-- A bucket of the configuration, brought up to date no later than now. -/
structure Fits (config : RateLimitConfig) (now : Nat) (b : TokenBucket) : Prop where
  capacity : b.capacity = config.burstSize
  refillRate : b.refillRate = config.requestsPerSecond
  past : b.lastUpdate ≤ now

theorem Fits.later {now : Nat} {b : TokenBucket} (h : Fits config now b) (d : Nat) : Fits config (now + d) b :=
  ⟨h.capacity, h.refillRate, Nat.le_add_right_of_le h.past⟩

theorem Fits.tryConsume {now : Nat} {b : TokenBucket} (h : Fits config now b) : Fits config now (b.tryConsume now).2 :=
  ⟨TokenBucket.tryConsume_capacity.trans h.capacity, TokenBucket.tryConsume_refillRate.trans h.refillRate,
    TokenBucket.tryConsume_lastUpdate.le⟩

theorem fits_bucket (config : RateLimitConfig) (now : Nat) : Fits config now (config.bucket now) :=
  ⟨rfl, rfl, Nat.le_refl now⟩

/-- A well-formed bucket fills at the rate of the configuration. -/
theorem Fits.refills {now : Nat} {b : TokenBucket} (h : Fits config now b) (wf : b.Wf) (d : Nat) :
    b.balance (now + d) = min (b.balance now + secs d * config.requestsPerSecond) config.burstSize := by
  have filled := wf.balance_fill h.past (Nat.le_add_right now d)
  rw [Nat.add_sub_cancel_left, h.capacity, h.refillRate] at filled
  exact filled.symm

/-- All buckets of the limiter. -/
structure Current (config : RateLimitConfig) (now : Nat) (l : RateLimiter Ip) : Prop where
  globalBucket : Fits config now l.globalBucket
  entries : ∀ place, Fits config now (l.entries place).bucket

theorem Current.later {now : Nat} {l : RateLimiter Ip} (h : Current config now l) (d : Nat) : Current config (now + d) l :=
  ⟨h.globalBucket.later d, fun place => (h.entries place).later d⟩

theorem current_new (config : RateLimitConfig) (t₀ : Nat) : Current config t₀ (.new config t₀ : RateLimiter Ip) :=
  ⟨fits_bucket config t₀, fun _ => fits_bucket config t₀⟩

theorem Current.update {now : Nat} {l : RateLimiter Ip} (h : Current config now l) (place : Nat) {e : ClientEntry}
    (fits : Fits config now e.bucket) :
    Current config now { l with entries := Function.update l.entries place e } := by
  refine ⟨h.globalBucket, fun other => ?_⟩
  by_cases mine : other = place
  · subst mine
    simpa using fits
  · simpa [Function.update_of_ne mine] using h.entries other

variable [DecidableEq Ip]

/-- **One step** keeps all buckets. -/
theorem Current.step {now : Nat} {l : RateLimiter Ip} (h : Current config now l) (same : l.config = config)
    (overflowChecks : Bool) (k : Pc Ip) : Current config now (k.step overflowChecks now l).1 := by
  cases k with
  | consumeGlobal clientIp => exact ⟨h.globalBucket.tryConsume, h.entries⟩
  | cleanup ip =>
    simp only [Pc.step]
    split
    · exact h
    · exact ⟨h.globalBucket, h.entries⟩
  | retain ip initialCount => exact ⟨h.globalBucket, h.entries⟩
  | lookup ip =>
    simp only [Pc.step]
    rcases RateLimiter.entry_cases now ip l with ⟨place, -, found⟩ | allocated
    · rw [found]
      exact h
    · rw [allocated]
      have fresh := h.update l.allocated (e := .new l.config now) (same ▸ fits_bucket l.config now)
      exact ⟨fresh.globalBucket, fresh.entries⟩
  | touch place t => exact h.update place (h.entries place)
  | consumeClient place => exact h.update place (h.entries place).tryConsume
  | _ => exact h

/-- The books, with buckets that are up to date. -/
def Timely (config : RateLimitConfig) (c : Checks Ip) : Prop := Books config c ∧ Current config c.clock c.shared

theorem Timely.exec {overflowChecks : Bool} (c : Checks Ip) (label : Label (Option Ip)) (h : Timely config c) :
    Timely config ((shared Ip overflowChecks).exec c label) := by
  refine ⟨Books.exec c label h.1, ?_⟩
  cases label with
  | call clientIp => exact h.2
  | tick d => exact h.2.later d
  | step i =>
    rcases Object.exec_step_cases (shared Ip overflowChecks) c i with ⟨k, running⟩ | idle
    · rw [Object.shared_exec running, Object.clock_exec running]
      exact h.2.step h.1.1.same overflowChecks k
    · rw [idle]
      exact h.2

omit [DecidableEq Ip] in
theorem timely_fresh (config : RateLimitConfig) (t₀ : Nat) : Timely config (fresh Ip config t₀) :=
  ⟨books_fresh config t₀, current_new config t₀⟩

theorem timely_run (overflowChecks : Bool) (config : RateLimitConfig) (t₀ : Nat) (labels : List (Label (Option Ip))) :
    Timely config ((shared Ip overflowChecks).run (fresh Ip config t₀) labels) := by
  refine Object.Every.run (P := fun _ _ => True) ?_ ?_ ?_ (Object.every_of_forall (fun _ _ => trivial) _ labels)
    (timely_fresh config t₀)
  · exact fun c d before => Timely.exec c _ before
  · exact fun c clientIp _ before => Timely.exec c _ before
  · exact fun c i k _ _ before => Timely.exec c _ before

/-! ## The buckets are refilled resources -/

/-- What the rate of the configuration brings in a time. -/
def RateLimitConfig.inflow (config : RateLimitConfig) (d : Nat) : ℚ := secs d * config.requestsPerSecond

theorem inflow_add (config : RateLimitConfig) (a b : Nat) : config.inflow (a + b) = config.inflow a + config.inflow b := by
  unfold RateLimitConfig.inflow secs
  push_cast
  ring

theorem inflow_nonneg (config : RateLimitConfig) (d : Nat) : 0 ≤ config.inflow d :=
  mul_nonneg (secs_nonneg d) (Nat.cast_nonneg _)

theorem inflow_zero (config : RateLimitConfig) : config.inflow 0 = 0 := by
  rw [RateLimitConfig.inflow, secs_zero, zero_mul]

/-- Past the global bucket a check stays past it. -/
theorem paidGlobal_stays (overflowChecks : Bool) (now : Nat) (l : RateLimiter Ip) (k : Pc Ip)
    (paid : paidGlobal (.running k) = true) : paidGlobal (k.step overflowChecks now l).2 = true := by
  cases k with
  | consumeGlobal clientIp => cases paid
  | waitGlobal => cases paid
  | cleanup ip =>
    simp only [Pc.step]
    split <;> rfl
  | countAfter ip initialCount =>
    simp only [Pc.step]
    split <;> rfl
  | consumeClient place =>
    simp only [Pc.step]
    split <;> rfl
  | waitClient place =>
    simp only [Pc.step, paidGlobal_rejected]
    rfl
  | _ => rfl

theorem global_refilled (config : RateLimitConfig) (overflowChecks : Bool) :
    Refilled (shared Ip overflowChecks) globalLevel (Timely config) paidGlobal (config.burstSize : ℚ) config.inflow where
  priced :=
    { keep := Timely.exec
      start := (global_priced config overflowChecks).start
      step := fun c i k timely => (global_priced config overflowChecks).step c i k timely.1 }
  stays now l k := paidGlobal_stays overflowChecks now l k
  gain_nonneg := inflow_nonneg config
  gain_zero := inflow_zero config
  gain_add := inflow_add config
  level_nonneg c timely := timely.1.1.globalBucket.nonneg.trans (timely.1.1.globalBucket.le_balance c.clock)
  refills _ d timely := timely.2.globalBucket.refills timely.1.1.globalBucket d

theorem client_refilled (config : RateLimitConfig) (overflowChecks : Bool) (place : Nat) :
    Refilled (shared Ip overflowChecks) (clientLevel place) (Timely config) (paidClient place) (config.burstSize : ℚ)
      config.inflow where
  priced :=
    { keep := Timely.exec
      start := (client_priced config overflowChecks place).start
      step := fun c i k timely => (client_priced config overflowChecks place).step c i k timely.1 }
  stays _ _ _ paid := by cases paid
  gain_nonneg := inflow_nonneg config
  gain_zero := inflow_zero config
  gain_add := inflow_add config
  level_nonneg c timely := (timely.1.1.entries place).nonneg.trans ((timely.1.1.entries place).le_balance c.clock)
  refills _ d timely := (timely.2.entries place).refills (timely.1.1.entries place) d

/-! ## The bound -/

theorem Fits.balance_le {now : Nat} {b : TokenBucket} (h : Fits config now b) (t : Nat) :
    b.balance t ≤ config.burstSize :=
  h.capacity ▸ TokenBucket.balance_le_capacity

omit [DecidableEq Ip] in
theorem isOk_le_paidGlobal (c : Checks Ip) : c.count isOk ≤ c.count paidGlobal := by
  apply List.countP_mono_left
  intro st _ ok
  rcases st with ⟨k⟩ | ⟨reply⟩
  · cases ok
  · cases reply <;> first | rfl | cases ok

/-- **The limiter under any load.** Over any stretch of any schedule of checks, a bucket gives out at most what a full
bucket holds and what the rate brings in the time of the stretch, the global one as well as that of every client; and it
gives out or still holds at least what the rate brings, up to a full bucket. From the creation of the limiter, as many
checks have returned `Ok` as a full bucket and the rate allow at most. -/
theorem throughput_bounded (overflowChecks : Bool) (config : RateLimitConfig) (t₀ : Nat)
    (before stretch : List (Label (Option Ip))) :
    let c := (shared Ip overflowChecks).run (fresh Ip config t₀) before
    let c' := (shared Ip overflowChecks).run (fresh Ip config t₀) (before ++ stretch)
    let allowed := config.burstSize + config.inflow (c'.clock - c.clock)
    let refilled := min (config.inflow (c'.clock - c.clock)) config.burstSize
    (c'.count paidGlobal ≤ c.count paidGlobal + allowed ∧
      c.count paidGlobal + refilled ≤ c'.count paidGlobal + globalLevel c'.clock c'.shared) ∧
    (∀ place, c'.count (paidClient place) ≤ c.count (paidClient place) + allowed ∧
      c.count (paidClient place) + refilled ≤ c'.count (paidClient place) + clientLevel place c'.clock c'.shared) ∧
    c'.count isOk ≤ config.burstSize + config.inflow (c'.clock - t₀) := by
  intro c c' allowed refilled
  have start : Timely config c := timely_run overflowChecks config t₀ before
  have stop : Timely config c' := timely_run overflowChecks config t₀ (before ++ stretch)
  have reached : c' = (shared Ip overflowChecks).run c stretch := Object.run_append _ _ _ _
  refine ⟨?_, fun place => ?_, ?_⟩
  · have bounds := (global_refilled config overflowChecks).run start stretch
    rw [← reached] at bounds
    have full := start.2.globalBucket.balance_le c.clock
    have left := (global_refilled config overflowChecks).level_nonneg c' stop
    have most := bounds.at_most
    unfold Refilled.stock globalLevel at most
    unfold globalLevel at left
    exact ⟨by simp only [allowed]; linarith, bounds.at_least⟩
  · have bounds := (client_refilled config overflowChecks place).run start stretch
    rw [← reached] at bounds
    have full := (start.2.entries place).balance_le c.clock
    have left := (client_refilled config overflowChecks place).level_nonneg c' stop
    have most := bounds.at_most
    unfold Refilled.stock clientLevel at most
    unfold clientLevel at left
    exact ⟨by simp only [allowed]; linarith, bounds.at_least⟩
  · have start : Timely config (fresh Ip config t₀) := timely_fresh config t₀
    have bounds := (global_refilled config overflowChecks).run start (before ++ stretch)
    have full := start.2.globalBucket.balance_le t₀
    have left := (global_refilled config overflowChecks).level_nonneg c' stop
    have most := bounds.at_most
    have ok : (c'.count isOk : ℚ) ≤ c'.count paidGlobal := Nat.cast_le.mpr (isOk_le_paidGlobal c')
    have none : ((fresh Ip config t₀).count paidGlobal : ℚ) = 0 := Nat.cast_zero
    unfold Refilled.stock globalLevel at most
    rw [none] at most
    unfold globalLevel at left
    change (c'.count paidGlobal : ℚ) + c'.shared.globalBucket.balance c'.clock ≤
      0 + (fresh Ip config t₀).shared.globalBucket.balance t₀ + config.inflow (c'.clock - t₀) at most
    linarith

end ServiceMesh.RateLimit
