import ServiceMesh.RateLimit.Rejection
import ServiceMesh.RateLimit.Throughput

/-!
# What a rejected client is told, in every interleaving

The lock of a bucket is released between the try that fails and the reading of the wait, so the wait told may be that of a
bucket from which others have taken since, or that has filled up again. Whatever it is by then, at a rate of one a second
or more it holds at least nothing and is a second at most from its next token: the header always says one second
(`Polite`), and a second is enough if the bucket can hold a token and nobody takes it in the meantime.
-/

namespace ServiceMesh.RateLimit

open Conc

variable {Ip : Type} {config : RateLimitConfig}

/-- The wait of a bucket at a rate of one or more is defined, and at most a second. -/
theorem waitTime_le_second {b : TokenBucket} (wf : b.Wf) (rate : 1 ≤ b.refillRate) :
    ∃ wait, b.waitTime = some wait ∧ wait ≤ 10 ^ 9 := by
  by_cases enough : b.tokens ≥ 1
  · exact ⟨0, if_pos enough, Nat.zero_le _⟩
  · obtain ⟨wait, forward, atMost⟩ := TokenBucket.waitTime_eq wf (not_le.mp enough) rate
    exact ⟨_, wait, nanos_le_second forward atMost⟩

/-- What a check may have ended with: a wait of at most a second, and no panic but that of the cleanup's subtraction. -/
def Polite (overflowChecks : Bool) : Status (Pc Ip) Reply → Prop
  | .done (.err info) => info.retryAfter ≤ 10 ^ 9
  | .done (.panicked limit) => limit = .PerClient ∧ overflowChecks = true
  | _ => True

theorem polite_rejected {b : TokenBucket} (wf : b.Wf) (rate : 1 ≤ b.refillRate) (overflowChecks : Bool)
    (limit : RateLimitType) : Polite overflowChecks (.done (.rejected limit b) : Status (Pc Ip) Reply) := by
  obtain ⟨wait, told, atMost⟩ := waitTime_le_second wf rate
  rw [Reply.rejected, told]
  exact atMost

/-- **One step** ends a check politely. -/
theorem polite_step [DecidableEq Ip] {c : Checks Ip} (timely : Timely config c) (rate : 1 ≤ config.requestsPerSecond)
    (overflowChecks : Bool) (k : Pc Ip) : Polite overflowChecks (k.step overflowChecks c.clock c.shared).2 := by
  have fast : (1 : ℚ) ≤ config.requestsPerSecond := Nat.one_le_cast.mpr rate
  cases k with
  | waitGlobal =>
    exact polite_rejected timely.1.1.globalBucket (timely.2.globalBucket.refillRate.symm ▸ fast) overflowChecks .Global
  | waitClient place =>
    exact polite_rejected (timely.1.1.entries place) ((timely.2.entries place).refillRate.symm ▸ fast) overflowChecks
      .PerClient
  | consumeGlobal clientIp =>
    simp only [Pc.step]
    split
    · rcases Pc.granted_cases c.shared.config clientIp with ended | ⟨ip, cleanup⟩
      · rw [ended]
        trivial
      · rw [cleanup]
        trivial
    · trivial
  | countAfter ip initialCount =>
    simp only [Pc.step]
    split
    · next underflow => exact ⟨rfl, (Bool.and_eq_true_iff.mp underflow).1⟩
    · trivial
  | cleanup ip =>
    simp only [Pc.step]
    split <;> trivial
  | consumeClient place =>
    simp only [Pc.step]
    split <;> trivial
  | _ => trivial

theorem polite_run [DecidableEq Ip] (overflowChecks : Bool) (rate : 1 ≤ config.requestsPerSecond) (t₀ : Nat)
    (labels : List (Label (Option Ip))) {i : Nat} {st : Status (Pc Ip) Reply}
    (at_i : ((shared Ip overflowChecks).run (fresh Ip config t₀) labels).calls[i]? = some st) :
    Polite overflowChecks st := by
  have all : Timely config ((shared Ip overflowChecks).run (fresh Ip config t₀) labels) ∧
      ∀ (i : Nat) st, ((shared Ip overflowChecks).run (fresh Ip config t₀) labels).calls[i]? = some st →
        Polite overflowChecks st := by
    refine Object.Every.run (P := fun _ _ => True)
      (I := fun c => Timely config c ∧ ∀ (i : Nat) st, c.calls[i]? = some st → Polite overflowChecks st) ?_ ?_ ?_
      (Object.every_of_forall (fun _ _ => trivial) _ labels) ⟨timely_fresh config t₀, fun i st none => by cases none⟩
    · exact fun c d before => ⟨Timely.exec c _ before.1, before.2⟩
    · intro c clientIp _ before
      refine ⟨Timely.exec c _ before.1, fun j st at_j => ?_⟩
      rcases Object.status_of_call at_j with old | rfl
      · exact before.2 j st old
      · trivial
    · intro c i k running _ before
      refine ⟨Timely.exec c _ before.1, fun j st at_j => ?_⟩
      rcases Object.status_of_step running at_j with ⟨-, rfl⟩ | ⟨-, old⟩
      · exact polite_step before.1 rate overflowChecks k
      · exact before.2 j st old
  exact all.2 i st at_i

/-- A second brings a token. -/
theorem one_le_refilled (rate : 1 ≤ config.requestsPerSecond) (burst : 1 ≤ config.burstSize) {d : Nat}
    (second : 10 ^ 9 ≤ d) : 1 ≤ min (config.inflow d) (config.burstSize : ℚ) := by
  have fast : (1 : ℚ) ≤ config.requestsPerSecond := Nat.one_le_cast.mpr rate
  have long : secs (10 ^ 9) ≤ secs d := secs_mono second
  rw [secs_second] at long
  exact le_min (one_le_mul_of_one_le_of_one_le long fast) (Nat.one_le_cast.mpr burst)

/-- **What a rejected client is told, and what it gets.** At a rate of one a second or more, in every interleaving: a
rejection says to come back after one second, and only the subtraction of the cleanup can panic, in a build with overflow
checks. If a bucket that holds a token at least when it is full gives none to anybody for a second, the next check that
tries it gets one. -/
theorem retry_after_one_second [DecidableEq Ip] (overflowChecks : Bool) (config : RateLimitConfig)
    (rate : 1 ≤ config.requestsPerSecond) (t₀ : Nat) (before pause : List (Label (Option Ip))) :
    let c := (shared Ip overflowChecks).run (fresh Ip config t₀) before
    let c' := (shared Ip overflowChecks).run (fresh Ip config t₀) (before ++ pause)
    (∀ (i : Nat) info, c.calls[i]? = some (.done (.err info)) → info.retryAfterSecs = 1) ∧
    (∀ (i : Nat) limit, c.calls[i]? = some (.done (.panicked limit)) → limit = .PerClient ∧ overflowChecks = true) ∧
    (1 ≤ config.burstSize → c.clock + 10 ^ 9 ≤ c'.clock →
      (c'.count paidGlobal = c.count paidGlobal → (c'.shared.globalBucket.tryConsume c'.clock).1 = true) ∧
      ∀ place, c'.count (paidClient place) = c.count (paidClient place) →
        ((c'.shared.entries place).bucket.tryConsume c'.clock).1 = true) := by
  intro c c'
  have start : Timely config c := timely_run overflowChecks config t₀ before
  have reached : c' = (shared Ip overflowChecks).run c pause := Object.run_append _ _ _ _
  refine ⟨?_, ?_, ?_⟩
  · intro i info rejected
    have atMost : info.retryAfter ≤ 10 ^ 9 := polite_run overflowChecks rate t₀ before rejected
    exact max_eq_right (Nat.div_le_of_le_mul atMost)
  · exact fun i limit panicked => polite_run overflowChecks rate t₀ before panicked
  · intro burst second
    have due := one_le_refilled rate burst (Nat.le_sub_of_add_le' second)
    refine ⟨fun none => ?_, fun place none => ?_⟩
    · have bounds := ((global_refilled config overflowChecks).run start pause).at_least
      rw [← reached, Refilled.stock, none] at bounds
      exact TokenBucket.tryConsume_eq_true_iff.mpr (due.trans (le_of_add_le_add_left bounds))
    · have bounds := ((client_refilled config overflowChecks place).run start pause).at_least
      rw [← reached, Refilled.stock, none] at bounds
      exact TokenBucket.tryConsume_eq_true_iff.mpr (due.trans (le_of_add_le_add_left bounds))

/-- One token a second, a burst of one: two checks at once, of which the second comes too late. -/
def twoChecks : List (Label (Option Unit)) := [.call none, .call none, .step 0, .step 1, .step 1]

/-- The second is told to come back after a second, when there is a token again. -/
theorem retry_after_one_second_single :
    ((shared Unit true).run (fresh Unit singleConfig 0) twoChecks).calls =
      [.done (.ok none), .done (.err ⟨.Global, 10 ^ 9, 0⟩)] ∧
    (⟨.Global, 10 ^ 9, 0⟩ : RateLimitInfo).retryAfterSecs = 1 ∧
    (((shared Unit true).run (fresh Unit singleConfig 0) (twoChecks ++ [.tick (10 ^ 9)])).shared.globalBucket.tryConsume
      (10 ^ 9)).1 = true := by
  have calls : ((shared Unit true).run (fresh Unit singleConfig 0) twoChecks).calls =
      [.done (.ok none), .done (.err ⟨.Global, 10 ^ 9, 0⟩)] := by decide +kernel
  obtain ⟨told, -, admitted⟩ := retry_after_one_second true singleConfig (by decide) 0 twoChecks [.tick (10 ^ 9)]
  refine ⟨calls, told 1 _ (by rw [calls]; rfl), ?_⟩
  have second : ((shared Unit true).run (fresh Unit singleConfig 0) (twoChecks ++ [.tick (10 ^ 9)])).clock = 10 ^ 9 := by
    decide +kernel
  rw [second] at admitted
  exact (admitted (by decide) (by decide +kernel)).1 (by decide +kernel)

end ServiceMesh.RateLimit
