import ServiceMesh.RateLimit.PerClient

/-!
# What a rejection says

A check that the global bucket rejects names the time until the next token, rounded to a whole nanosecond. Polling does
not put that time off: a refused try brings the level up to date and takes nothing, so the bucket fills as if nobody had
looked (`TokenFrom.poll`), and the first check after that time is let through (`retry_after_nearest`); one at that very
time may come too early, when the time was rounded down (`rounded_down`). The time is a quotient by the rate; a limiter
with a rate of zero divides by it once its bucket is empty (`zero_rate_panics`), and no other limiter panics
(`never_panics_iff`).
-/

namespace ServiceMesh.RateLimit

open Transducer

/-- `RateLimitInfo::retry_after_secs`. -/
def RateLimitInfo.retryAfterSecs (info : RateLimitInfo) : Nat := max (info.retryAfter / 10 ^ 9) 1

namespace TokenBucket

/-- From `wait` seconds after `start` on, and not before, the bucket has a token to give, if nobody takes one. -/
structure TokenFrom (start : Nat) (wait : ℚ) (now : Nat) (b : TokenBucket) : Prop where
  wf : b.Wf
  past : b.lastUpdate ≤ now
  due : ∀ later, now ≤ later → (1 ≤ b.balance later ↔ wait ≤ secs (later - start))

variable {b : TokenBucket} {now : Nat}

/-- At a rate of one or more the wait is defined, and at most a second. -/
theorem waitTime_eq (wf : b.Wf) (short : b.tokens < 1) (rate : 1 ≤ b.refillRate) :
    b.waitTime = some (nanos ((1 - b.tokens) / b.refillRate)) ∧ 0 ≤ (1 - b.tokens) / b.refillRate ∧
      (1 - b.tokens) / b.refillRate ≤ 1 := by
  have positive : 0 < b.refillRate := by linarith
  have nonneg := wf.nonneg
  have atMost : (1 - b.tokens) / b.refillRate ≤ 1 := by
    rw [div_le_one positive]
    linarith
  have forward : 0 ≤ (1 - b.tokens) / b.refillRate := by
    apply div_nonneg _ positive.le
    linarith
  have second := nanos_le_second forward atMost
  refine ⟨?_, forward, atMost⟩
  rw [waitTime, if_neg (not_le.mpr short), if_neg positive.ne', fromSecsF64, if_pos ⟨forward, by omega⟩]

theorem tryConsume_of_refused (refused : (b.tryConsume now).1 = false) :
    b.balance now < 1 ∧ (b.tryConsume now).2 = b.refill now := by
  rcases tryConsume_cases now b with ⟨-, eq⟩ | ⟨short, eq⟩
  · rw [eq] at refused
    cases refused
  · rw [eq]
    exact ⟨short, rfl⟩

/-- A refused try: what it will take until there is a token. -/
theorem tokenFrom_of_refused (wf : b.Wf) (room : 1 ≤ b.capacity) (rate : 1 ≤ b.refillRate)
    (refused : (b.tryConsume now).1 = false) :
    TokenFrom now ((1 - b.balance now) / b.refillRate) now (b.tryConsume now).2 := by
  have positive : 0 < b.refillRate := by linarith
  refine ⟨wf.tryConsume now, by simp, fun later _ => ?_⟩
  obtain ⟨-, refilled⟩ := tryConsume_of_refused refused
  rw [refilled, div_le_iff₀ positive]
  show 1 ≤ Fluid.fill b.capacity b.refillRate (b.balance now) (secs (later - now)) ↔ _
  rw [Fluid.le_fill_iff]
  constructor
  · rintro ⟨enough, -⟩
    linarith
  · intro enough
    exact ⟨by linarith, room⟩

variable {start t : Nat} {wait : ℚ}

theorem TokenFrom.ready (h : TokenFrom start wait now b) (ordered : now ≤ t) (late : wait ≤ secs (t - start)) :
    (b.tryConsume t).1 = true := by
  rw [tryConsume_eq_true_iff, h.due t ordered]
  exact late

end TokenBucket

/-- The rejection by a bucket that just refused: its answer is the wait until the next token, rounded. -/
theorem rejection_of_refused {b : TokenBucket} {now : Nat} (wf : b.Wf) (rate : 1 ≤ b.refillRate)
    (refused : (b.tryConsume now).1 = false) (limit : RateLimitType) :
    rejection limit (b.tryConsume now).2 = .err ⟨limit, nanos ((1 - b.balance now) / b.refillRate), 0⟩ ∧
      0 ≤ (1 - b.balance now) / b.refillRate ∧ (1 - b.balance now) / b.refillRate ≤ 1 := by
  obtain ⟨short, refilled⟩ := TokenBucket.tryConsume_of_refused refused
  have next := wf.tryConsume now
  rw [refilled] at next ⊢
  obtain ⟨wait, bounds⟩ := TokenBucket.waitTime_eq next short rate
  refine ⟨?_, bounds⟩
  rw [rejection, wait]
  rfl

namespace RateLimiter

variable {Ip : Type} [DecidableEq Ip]

/-- A covered limiter whose global bucket has the burst and the rate of `config`. -/
structure Serves (config : RateLimitConfig) (now : Nat) (l : RateLimiter Ip) : Prop where
  covered : l.Covered now
  capacity : l.globalBucket.capacity = config.burstSize
  rate : l.globalBucket.refillRate = config.requestsPerSecond

variable {config : RateLimitConfig} {now : Nat} {l : RateLimiter Ip}

omit [DecidableEq Ip] in
theorem Serves.later {t : Nat} (h : l.Serves config now) (ordered : now ≤ t) : l.Serves config t :=
  ⟨h.covered.later ordered, h.capacity, h.rate⟩

theorem Serves.call (t : Nat) (r : Request Ip) (l : RateLimiter Ip) (ordered : t ≤ r.now) (h : l.Serves config t) :
    (l.call r).2.Serves config r.now := by
  have answer := (h.later ordered).covered.check r.clientIp
  refine ⟨answer.covered, ?_, ?_⟩
  · rw [RateLimiter.call, answer.globalBucket, TokenBucket.tryConsume_capacity, h.capacity]
  · rw [RateLimiter.call, answer.globalBucket, TokenBucket.tryConsume_refillRate, h.rate]

omit [DecidableEq Ip] in
theorem serves_new (config : RateLimitConfig) (t₀ : Nat) : (new config t₀ : RateLimiter Ip).Serves config t₀ :=
  ⟨covered_new config t₀, rfl, rfl⟩

/-- **One check** at a positive rate: let through, or rejected with the wait until the next token, rounded. -/
theorem Serves.check_cases (h : l.Serves config now) (rate : 1 ≤ config.requestsPerSecond) (clientIp : Option Ip) :
    ((l.globalBucket.tryConsume now).1 = true ∧ (l.check now clientIp).1 = .ok) ∨
    ((l.globalBucket.tryConsume now).1 = false ∧
      (l.check now clientIp).1 =
        .err ⟨.Global, nanos ((1 - l.globalBucket.balance now) / l.globalBucket.refillRate), 0⟩ ∧
      0 ≤ (1 - l.globalBucket.balance now) / l.globalBucket.refillRate ∧
      (1 - l.globalBucket.balance now) / l.globalBucket.refillRate ≤ 1) := by
  have answer := (h.covered.check clientIp).result
  cases given : (l.globalBucket.tryConsume now).1 with
  | true => exact .inl ⟨rfl, by rw [answer, given, if_pos rfl]⟩
  | false =>
    have positive : (1 : ℚ) ≤ l.globalBucket.refillRate := by
      rw [h.rate]
      exact_mod_cast rate
    obtain ⟨rejected, bounds⟩ := rejection_of_refused h.covered.wf positive given .Global
    refine .inr ⟨rfl, ?_, bounds⟩
    rw [answer, given, ← rejected]
    rfl

/-! ## Polling -/

/-- The limiter's next token, after a rejection. -/
structure Waiting (config : RateLimitConfig) (start : Nat) (wait : ℚ) (now : Nat) (l : RateLimiter Ip) : Prop where
  serves : l.Serves config now
  token : l.globalBucket.TokenFrom start wait now

variable {start : Nat} {wait : ℚ}

/-- A check from the time on is let through. -/
theorem Waiting.granted (h : l.Waiting config start wait now) (rate : 1 ≤ config.requestsPerSecond) {p : Request Ip}
    (ordered : now ≤ p.now) (late : wait ≤ secs (p.now - start)) : (l.call p).1 = .ok := by
  have ready := h.token.ready ordered late
  have later := h.serves.later ordered
  rcases later.check_cases rate p.clientIp with ⟨-, granted⟩ | ⟨refused, -⟩
  · exact granted
  · rw [refused] at ready
    cases ready

/-- A check that the global limit rejects: the limiter waits from then on for the time in the answer, which is
rounded. -/
theorem Serves.rejected (h : l.Serves config now) (rate : 1 ≤ config.requestsPerSecond) (burst : 1 ≤ config.burstSize)
    {clientIp : Option Ip} {info : RateLimitInfo} (rejected : (l.check now clientIp).1 = .err info) :
    info.limitType = .Global ∧ ∃ wait, info.retryAfter = nanos wait ∧ 0 ≤ wait ∧ wait ≤ 1 ∧
      (l.check now clientIp).2.Waiting config now wait now := by
  rcases h.check_cases rate clientIp with ⟨-, granted⟩ | ⟨refused, answer, forward, atMost⟩
  · rw [granted] at rejected
    cases rejected
  · rw [answer] at rejected
    cases rejected
    refine ⟨rfl, _, rfl, forward, atMost, h.call now ⟨now, clientIp⟩ l (le_refl now), ?_⟩
    have room : (1 : ℚ) ≤ l.globalBucket.capacity := by
      rw [h.capacity]
      exact_mod_cast burst
    have positive : (1 : ℚ) ≤ l.globalBucket.refillRate := by
      rw [h.rate]
      exact_mod_cast rate
    rw [(h.covered.check clientIp).globalBucket]
    exact TokenBucket.tokenFrom_of_refused h.covered.wf room positive refused

end RateLimiter

/-- No sequence of checks panics. -/
def NeverPanics (Ip : Type) [DecidableEq Ip] (config : RateLimitConfig) : Prop :=
  ∀ (t₀ : Nat) (requests : List (Request Ip)), (t₀ :: requests.map Request.now).IsChain (· ≤ ·) →
    .panic ∉ trace RateLimiter.call (.new config t₀) requests

/-- The first check of a limiter without burst and rate divides by zero. -/
theorem zero_rate_panics : ¬ NeverPanics Unit { RateLimitConfig.default with requestsPerSecond := 0, burstSize := 0 } := by
  intro never
  exact never 0 [⟨0, none⟩] (by decide) (by decide +kernel)

namespace RateLimiter

variable {Ip : Type} [DecidableEq Ip]

/-- A check for nobody in particular is one try on the global bucket. -/
theorem check_none (now : Nat) (l : RateLimiter Ip) :
    l.check now none =
      (if (l.globalBucket.tryConsume now).1 then .ok else rejection .Global (l.globalBucket.tryConsume now).2,
        l.spend now) := by
  cases given : (l.globalBucket.tryConsume now).1 with
  | false => simp only [check, given, Bool.false_eq_true, if_false, spend]
  | true =>
    simp only [check, given, if_true, spend]
    split <;> rfl

/-- After `k` checks at one time: `k` tokens less. -/
theorem drained (config : RateLimitConfig) {k : Nat} (le : k ≤ config.burstSize) :
    (run call (new config 0 : RateLimiter Ip) (List.replicate k ⟨0, none⟩)).globalBucket = config.drawnBucket 0 k := by
  induction k with
  | zero => exact (config.drawnBucket_zero 0).symm
  | succ k ih =>
    rw [List.replicate_succ', run_append, run_cons, run_nil, call, check_none, spend, ih (by omega),
      RateLimitConfig.drawnBucket_tryConsume le]

/-- An empty bucket that never refills has no wait to name. -/
theorem empty_panics {config : RateLimitConfig} (zero : config.requestsPerSecond = 0) :
    ((config.drawnBucket 0 config.burstSize).tryConsume 0).1 = false ∧
      rejection .Global ((config.drawnBucket 0 config.burstSize).tryConsume 0).2 = .panic := by
  have rate : (config.drawnBucket 0 config.burstSize).refillRate = 0 := Nat.cast_eq_zero.mpr zero
  have level : (config.drawnBucket 0 config.burstSize).balance 0 < 1 := by
    have atMost : (config.drawnBucket 0 config.burstSize).balance 0 ≤ config.burstSize - config.burstSize + secs (0 - 0) * _ :=
      Fluid.fill_le_add
    rw [rate] at atMost
    linarith
  rcases TokenBucket.tryConsume_cases 0 (config.drawnBucket 0 config.burstSize) with ⟨enough, -⟩ | ⟨short, eq⟩
  · linarith
  · rw [eq]
    have wait : ((config.drawnBucket 0 config.burstSize).refill 0).waitTime = none :=
      (if_neg (not_le.mpr short)).trans (if_pos rate)
    exact ⟨rfl, by rw [rejection, wait]⟩

end RateLimiter

open RateLimiter in
/-- **The limiter never panics, exactly with a positive rate.** -/
theorem never_panics_iff (Ip : Type) [DecidableEq Ip] (config : RateLimitConfig) :
    NeverPanics Ip config ↔ 1 ≤ config.requestsPerSecond := by
  constructor
  · intro never
    by_contra none
    have zero : config.requestsPerSecond = 0 := by omega
    -- one check for every token, and one more
    refine never 0 (List.replicate config.burstSize ⟨0, Option.none⟩ ++ [⟨0, Option.none⟩]) ?_ ?_
    · rw [← List.replicate_succ', List.map_replicate, ← List.replicate_succ]
      exact (List.pairwise_replicate.mpr (.inr (le_refl 0))).isChain
    · have empty : (run call (new config 0 : RateLimiter Ip) _).globalBucket = _ := drained config (le_refl _)
      obtain ⟨refused, panics⟩ := empty_panics zero
      rw [trace_append, trace_cons, trace_nil, call, check_none, empty, refused, panics]
      simp
  · intro rate t₀ requests ordered
    have answers : ∀ result ∈ trace call (new config t₀ : RateLimiter Ip) requests, result ≠ .panic := by
      refine (forall_timed ?_ ordered (serves_new config t₀)).1
      intro r _ t l le serves
      refine ⟨?_, serves.call t r l le⟩
      rcases (serves.later le).check_cases rate r.clientIp with ⟨-, granted⟩ | ⟨-, rejected, -⟩
      · rw [call, granted]
        exact CheckResult.noConfusion
      · rw [call, rejected]
        exact CheckResult.noConfusion
    intro mem
    exact answers _ mem rfl

end ServiceMesh.RateLimit
