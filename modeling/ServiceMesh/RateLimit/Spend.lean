import ServiceMesh.RateLimit.Tasks
import ServiceMesh.Logic.Accounts

/-!
# What a rejected check has spent

`check` takes a token from the global bucket and then one from the client's, and gives nothing
back. Between the two the clock moves and other checks run, so the client's bucket can be empty
by the time its turn comes (`late_rejection`), although it never is when checks do not overlap.
The accounts of every interleaving: a check rejected by the global bucket has spent nothing, one
rejected by the client's has spent one global token and no other (`rejections_spend`).
-/

namespace ServiceMesh.RateLimit

open Conc

variable {Ip : Type}

def globalLevel (now : Nat) (l : RateLimiter Ip) : ℚ := l.globalBucket.balance now

/-- The level of the entry at a place of the heap; a free place holds a full bucket. -/
def clientLevel (place now : Nat) (l : RateLimiter Ip) : ℚ := (l.entries place).bucket.balance now

/-! ## Prices -/

/-- The call is past the global bucket and has its token. -/
def paidGlobal : Status (Pc Ip) Reply → Bool
  | .running (.consumeGlobal _) | .running .waitGlobal => false
  | .running _ => true
  | .done (.ok _) => true
  | .done (.err info) => info.limitType = .PerClient
  | .done (.panicked limit) => limit = .PerClient

/-- The call has a token of the entry at `place`. -/
def paidClient (place : Nat) : Status (Pc Ip) Reply → Bool
  | .done (.ok (some charged)) => charged = place
  | _ => false

theorem paidGlobal_granted (config : RateLimitConfig) (clientIp : Option Ip) :
    paidGlobal (Pc.granted config clientIp) = true := by
  rcases Pc.granted_cases config clientIp with ended | ⟨ip, cleanup⟩
  · rw [ended]
    rfl
  · rw [cleanup]
    rfl

theorem paidGlobal_rejected (limit : RateLimitType) (b : TokenBucket) :
    paidGlobal (.done (.rejected limit b) : Status (Pc Ip) Reply) = decide (limit = .PerClient) := by
  unfold Reply.rejected
  split <;> rfl

theorem paidClient_granted (place : Nat) (config : RateLimitConfig) (clientIp : Option Ip) :
    paidClient place (Pc.granted config clientIp) = false := by
  rcases Pc.granted_cases config clientIp with ended | ⟨ip, cleanup⟩
  · rw [ended]
    rfl
  · rw [cleanup]
    rfl

theorem paidClient_rejected (place : Nat) (limit : RateLimitType) (b : TokenBucket) :
    paidClient place (.done (.rejected limit b) : Status (Pc Ip) Reply) = false := by
  unfold Reply.rejected
  split <;> rfl

/-! ## The invariant -/

/-- Buckets are well formed, mapped entries are allocated, and free places hold full buckets. -/
structure Sound (config : RateLimitConfig) (l : RateLimiter Ip) : Prop where
  same : l.config = config
  globalBucket : l.globalBucket.Wf
  entries : ∀ place, (l.entries place).bucket.Wf
  mapped : ∀ client ∈ l.clientBuckets, client.2 < l.allocated
  free : ∀ place, l.allocated ≤ place → ∃ created, (l.entries place).bucket = config.bucket created

/-- The entry that a running check holds. -/
def heldPlace : Status (Pc Ip) Reply → Option Nat
  | .running (.readClock place) | .running (.touch place _) | .running (.consumeClient place)
  | .running (.waitClient place) => some place
  | _ => none

theorem heldPlace_granted (config : RateLimitConfig) (clientIp : Option Ip) :
    heldPlace (Pc.granted config clientIp) = none := by
  rcases Pc.granted_cases config clientIp with ended | ⟨ip, cleanup⟩
  · rw [ended]
    rfl
  · rw [cleanup]
    rfl

theorem sound_new (config : RateLimitConfig) (t₀ : Nat) : Sound config (.new config t₀ : RateLimiter Ip) :=
  ⟨rfl, config.bucket_wf t₀, fun _ => config.bucket_wf t₀, fun _ mem => absurd mem List.not_mem_nil,
    fun _ _ => ⟨t₀, rfl⟩⟩

variable {config : RateLimitConfig} {l : RateLimiter Ip}

/-- Replacing the entry at an allocated place by one with a well-formed bucket. -/
theorem Sound.update (h : Sound config l) {place : Nat} (held : place < l.allocated) {e : ClientEntry}
    (wf : e.bucket.Wf) : Sound config { l with entries := Function.update l.entries place e } := by
  refine ⟨h.same, h.globalBucket, fun other => ?_, h.mapped, fun other free => ?_⟩
  · by_cases mine : other = place
    · subst mine
      simpa using wf
    · simpa [Function.update_of_ne mine] using h.entries other
  · have other_ne : other ≠ place := by
      intro eq
      subst eq
      exact absurd held (not_lt.mpr free)
    simpa [Function.update_of_ne other_ne] using h.free other free

variable [DecidableEq Ip]

theorem Sound.entry (h : Sound config l) (now : Nat) (ip : Ip) :
    Sound config (l.entry now ip).2 ∧ (l.entry now ip).1 < (l.entry now ip).2.allocated := by
  rcases RateLimiter.entry_cases now ip l with ⟨place, mem, found⟩ | allocated
  · rw [found]
    exact ⟨h, h.mapped _ mem⟩
  · rw [allocated]
    refine ⟨⟨h.same, h.globalBucket, fun other => ?_, ?_, fun other free => ?_⟩, Nat.lt_succ_self _⟩
    · by_cases new : other = l.allocated
      · subst new
        simpa [ClientEntry.new] using l.config.bucket_wf now
      · simpa [Function.update_of_ne new] using h.entries other
    · intro client mem
      rcases List.mem_cons.mp mem with rfl | mem
      · exact Nat.lt_succ_self _
      · exact Nat.lt_succ_of_lt (h.mapped client mem)
    · change l.allocated + 1 ≤ other at free
      have old : other ≠ l.allocated := by omega
      simpa [Function.update_of_ne old] using h.free other (by omega)

/-- **One step** keeps the limiter sound, frees nothing, and leaves its call with an allocated entry. -/
theorem Sound.step (h : Sound config l) (overflowChecks : Bool) (now : Nat) {k : Pc Ip}
    (held : ∀ place ∈ heldPlace (.running k), place < l.allocated) :
    Sound config (k.step overflowChecks now l).1 ∧ l.allocated ≤ (k.step overflowChecks now l).1.allocated ∧
      ∀ place ∈ heldPlace (k.step overflowChecks now l).2, place < (k.step overflowChecks now l).1.allocated := by
  cases k with
  | consumeGlobal clientIp =>
    refine ⟨⟨h.same, h.globalBucket.tryConsume now, h.entries, h.mapped, h.free⟩, le_refl _, ?_⟩
    intro place mem
    simp only [Pc.step] at mem
    split at mem
    · rw [heldPlace_granted] at mem
      cases mem
    · cases mem
  | cleanup ip =>
    by_cases recent : now - l.lastCleanup < 60 * 10 ^ 9
    · rw [Pc.step, if_pos recent]
      exact ⟨h, le_refl _, held⟩
    · rw [Pc.step, if_neg recent]
      exact ⟨⟨h.same, h.globalBucket, h.entries, h.mapped, h.free⟩, le_refl _, held⟩
  | retain ip initialCount =>
    refine ⟨⟨h.same, h.globalBucket, h.entries, ?_, h.free⟩, le_refl _, held⟩
    intro client mem
    exact h.mapped client (List.mem_of_mem_filter mem)
  | countAfter ip initialCount =>
    refine ⟨h, le_refl _, ?_⟩
    intro place mem
    simp only [Pc.step] at mem
    split at mem <;> cases mem
  | lookup ip =>
    obtain ⟨sound, allocated⟩ := h.entry now ip
    refine ⟨sound, ?_, ?_⟩
    · change l.allocated ≤ (l.entry now ip).2.allocated
      rcases RateLimiter.entry_cases now ip l with ⟨place, -, found⟩ | new
      · rw [found]
      · rw [new]
        exact Nat.le_succ _
    · intro place mem
      cases mem
      exact allocated
  | touch place t =>
    have mine := held place rfl
    exact ⟨h.update mine (h.entries place), le_refl _, held⟩
  | consumeClient place =>
    have mine := held place rfl
    refine ⟨h.update mine ((h.entries place).tryConsume now), le_refl _, ?_⟩
    intro other mem
    simp only [Pc.step] at mem
    split at mem
    · cases mem
    · cases mem
      exact mine
  | readClock place => exact ⟨h, le_refl _, held⟩
  | countBefore ip => exact ⟨h, le_refl _, held⟩
  | waitGlobal => exact ⟨h, le_refl _, by intro place mem; cases mem⟩
  | waitClient place => exact ⟨h, le_refl _, by intro place mem; cases mem⟩

/-- Soundness and held entries, in every schedule. -/
theorem sound_outline (config : RateLimitConfig) (overflowChecks : Bool) :
    Outline (shared Ip overflowChecks) ⟨fun _ => True, fun _ _ _ => True⟩ (fun _ l => Sound config l)
      (fun _ _ l st => ∀ place ∈ heldPlace st, place < l.allocated) where
  start i now l clientIp _ _ := by
    intro place mem
    cases mem
  own i now l k _ sound held := by
    obtain ⟨sound', -, held'⟩ := sound.step overflowChecks now held
    exact ⟨sound', held'⟩
  other i j now l k st _ _ sound held others := by
    obtain ⟨-, grows, -⟩ := sound.step overflowChecks now held
    intro place mem
    exact lt_of_lt_of_le (others place mem) grows
  tick now d l sound := sound
  tickLoc i now d l st _ held := held

/-- The invariant of the accounts. -/
def Books (config : RateLimitConfig) (c : Checks Ip) : Prop :=
  Holds (fun _ l => Sound config l) (fun _ _ l st => ∀ place ∈ heldPlace st, place < l.allocated) c

theorem Books.exec {overflowChecks : Bool} (c : Checks Ip) (label : Label (Option Ip)) (h : Books config c) :
    Books config ((shared Ip overflowChecks).exec c label) := by
  apply (sound_outline config overflowChecks).exec h
  cases label with
  | call m => trivial
  | tick d => trivial
  | step i => exact fun _ _ => trivial

omit [DecidableEq Ip] in
theorem books_fresh (config : RateLimitConfig) (t₀ : Nat) : Books config (fresh Ip config t₀) :=
  .of_no_calls (sound_new config t₀)

/-! ## The accounts -/

/-- Every step pays for the global tokens it takes. -/
theorem global_priced (config : RateLimitConfig) (overflowChecks : Bool) :
    Priced (shared Ip overflowChecks) globalLevel (Books config) fun st => ((paidGlobal st).toNat : ℚ) where
  keep := Books.exec
  start clientIp := by
    show ((paidGlobal (.running (.consumeGlobal clientIp))).toNat : ℚ) = 0
    simp [paidGlobal]
  step c i k books running := by
    have sound := books.1
    change c.shared.globalBucket.balance c.clock - (k.step overflowChecks c.clock c.shared).1.globalBucket.balance c.clock =
      ((paidGlobal (k.step overflowChecks c.clock c.shared).2).toNat : ℚ) - ((paidGlobal (.running k)).toNat : ℚ)
    cases k with
    | consumeGlobal clientIp =>
      have drop := sound.globalBucket.balance_tryConsume c.clock
      simp only [Pc.step]
      rw [drop]
      cases taken : (c.shared.globalBucket.tryConsume c.clock).1 with
      | true =>
        rw [if_pos rfl, paidGlobal_granted]
        simp [paidGlobal]
      | false => simp [paidGlobal]
    | waitGlobal =>
      simp only [Pc.step, paidGlobal_rejected]
      simp [paidGlobal]
    | waitClient place =>
      simp only [Pc.step, paidGlobal_rejected]
      simp [paidGlobal]
    | cleanup ip =>
      simp only [Pc.step]
      split <;> simp [paidGlobal]
    | countAfter ip initialCount =>
      simp only [Pc.step]
      split <;> simp [paidGlobal]
    | lookup ip =>
      have same : (c.shared.entry c.clock ip).2.globalBucket = c.shared.globalBucket := by
        rcases RateLimiter.entry_cases c.clock ip c.shared with ⟨place, -, found⟩ | new
        · rw [found]
        · rw [new]
      simp [Pc.step, paidGlobal, same]
    | consumeClient place =>
      simp only [Pc.step]
      split <;> simp [paidGlobal]
    | countBefore ip => simp [Pc.step, paidGlobal]
    | retain ip initialCount => simp [Pc.step, paidGlobal]
    | readClock place => simp [Pc.step, paidGlobal]
    | touch place t => simp [Pc.step, paidGlobal]

/-- Every step pays for the tokens it takes from the entry at `place`. -/
theorem client_priced (config : RateLimitConfig) (overflowChecks : Bool) (place : Nat) :
    Priced (shared Ip overflowChecks) (clientLevel place) (Books config) fun st => ((paidClient place st).toNat : ℚ) where
  keep := Books.exec
  start clientIp := by
    show ((paidClient place (.running (.consumeGlobal clientIp))).toNat : ℚ) = 0
    simp [paidClient]
  step c i k books running := by
    have sound := books.1
    change (c.shared.entries place).bucket.balance c.clock -
        ((k.step overflowChecks c.clock c.shared).1.entries place).bucket.balance c.clock =
      ((paidClient place (k.step overflowChecks c.clock c.shared).2).toNat : ℚ) -
        ((paidClient place (.running k)).toNat : ℚ)
    cases k with
    | consumeGlobal clientIp =>
      simp only [Pc.step]
      split
      · rw [paidClient_granted]
        simp [paidClient]
      · simp [paidClient]
    | waitGlobal =>
      simp only [Pc.step, paidClient_rejected]
      simp [paidClient]
    | waitClient other =>
      simp only [Pc.step, paidClient_rejected]
      simp [paidClient]
    | cleanup ip =>
      simp only [Pc.step]
      split <;> simp [paidClient]
    | countAfter ip initialCount =>
      simp only [Pc.step]
      split <;> simp [paidClient]
    | lookup ip =>
      -- a place allocated here was free, and showed the level of a full bucket already
      have same : ((c.shared.entry c.clock ip).2.entries place).bucket.balance c.clock =
          (c.shared.entries place).bucket.balance c.clock := by
        rcases RateLimiter.entry_cases c.clock ip c.shared with ⟨found, -, eq⟩ | eq
        · rw [eq]
        · rw [eq]
          by_cases new : place = c.shared.allocated
          · obtain ⟨created, full⟩ := sound.free place (le_of_eq new.symm)
            subst new
            rw [full]
            simp only [Function.update_self, ClientEntry.new, sound.same, RateLimitConfig.bucket]
            rw [TokenBucket.balance_new (Nat.cast_nonneg _), TokenBucket.balance_new (Nat.cast_nonneg _)]
          · simp only [Function.update_of_ne new]
      simp [Pc.step, paidClient, same]
    | touch other t =>
      by_cases mine : place = other
      · subst mine
        simp [Pc.step, paidClient]
      · simp [Pc.step, paidClient, Function.update_of_ne mine]
    | consumeClient other =>
      by_cases mine : place = other
      · subst mine
        have drop := (sound.entries place).balance_tryConsume c.clock
        simp only [Pc.step, Function.update_self]
        rw [drop]
        cases taken : ((c.shared.entries place).bucket.tryConsume c.clock).1 with
        | true => simp [paidClient]
        | false => simp [paidClient]
      · simp only [Pc.step, Function.update_of_ne mine]
        split
        · simp [paidClient, Ne.symm mine]
        · simp [paidClient]
    | countBefore ip => simp [Pc.step, paidClient]
    | retain ip initialCount => simp [Pc.step, paidClient]
    | readClock other => simp [Pc.step, paidClient]

/-! ## The law -/

/-- Every check made has ended. -/
def Finished (c : Checks Ip) : Prop := ∀ st ∈ c.calls, ∃ reply, st = .done reply

/-- The check returned `Ok`. -/
def isOk : Status (Pc Ip) Reply → Bool
  | .done (.ok _) => true
  | _ => false

/-- The check ended without `Ok` after the global bucket had granted it. -/
def isLate : Status (Pc Ip) Reply → Bool
  | .done (.err info) => info.limitType = .PerClient
  | .done (.panicked limit) => limit = .PerClient
  | _ => false

/-- What the checks in `who` take from the bucket behind `level`, from the creation of the limiter. -/
def spent (overflowChecks : Bool) (config : RateLimitConfig) (t₀ : Nat) (labels : List (Label (Option Ip)))
    (level : Nat → RateLimiter Ip → ℚ) (who : Nat → Bool) : ℚ :=
  (shared Ip overflowChecks).taken level who (fresh Ip config t₀) labels

/-- A rejected check spends nothing: it has taken no token from any bucket, and once all checks
have ended, the global tokens taken are the checks that returned `Ok`. -/
def RejectedSpendNothing (overflowChecks : Bool) (config : RateLimitConfig) (t₀ : Nat)
    (labels : List (Label (Option Ip))) : Prop :=
  let c := (shared Ip overflowChecks).run (fresh Ip config t₀) labels
  (∀ i info, c.calls[i]? = some (.done (.err info)) →
    spent overflowChecks config t₀ labels globalLevel (· == i) = 0 ∧
    ∀ place, spent overflowChecks config t₀ labels (clientLevel place) (· == i) = 0) ∧
  (Finished c → spent overflowChecks config t₀ labels globalLevel (fun _ => true) = c.count isOk)

/-- One token a second, a burst of one. -/
def singleConfig : RateLimitConfig := { RateLimitConfig.default with requestsPerSecond := 1, burstSize := 1 }

/-- Check 0 takes the global token at time 0. A second later the token is back, and check 1, of the
same client, takes it and the client's. Then check 0 comes to the client's bucket. -/
def late : List (Label (Option Unit)) :=
  [.call (some ()), .step 0, .tick (10 ^ 9), .call (some ())] ++ List.replicate 6 (.step 1) ++
    List.replicate 6 (.step 0)

/-- Check 0 is rejected with `PerClient`, and its global token is gone: two were taken, for one `Ok`. -/
theorem late_rejection :
    ((shared Unit true).run (fresh Unit singleConfig 0) late).calls =
      [.done (.err { limitType := .PerClient, retryAfter := 10 ^ 9, remaining := 0 }), .done (.ok (some 0))] ∧
    spent true singleConfig 0 late globalLevel (· == 0) = 1 ∧
    spent true singleConfig 0 late globalLevel (fun _ => true) = 2 ∧
    ¬ RejectedSpendNothing true singleConfig 0 late := by
  have calls : ((shared Unit true).run (fresh Unit singleConfig 0) late).calls =
      [.done (.err { limitType := .PerClient, retryAfter := 10 ^ 9, remaining := 0 }), .done (.ok (some 0))] := by
    decide +kernel
  have paid : spent true singleConfig 0 late globalLevel (· == 0) = 1 := by decide +kernel
  refine ⟨calls, paid, by decide +kernel, ?_⟩
  rintro ⟨law, -⟩
  have nothing := (law 0 _ (by rw [calls]; rfl)).1
  rw [paid] at nothing
  exact one_ne_zero nothing

omit [DecidableEq Ip] in
/-- Once all checks have ended, those that paid are the `Ok`s and the late rejections. -/
theorem Finished.paid_eq {c : Checks Ip} (finished : Finished c) :
    c.count paidGlobal = c.count isOk + c.count isLate := by
  apply Pool.count_add
  intro st mem
  obtain ⟨reply, rfl⟩ := finished st mem
  cases reply <;> simp [paidGlobal, isOk, isLate]

/-- **What a rejection has spent**, in every interleaving: nothing if the global bucket rejected it;
one global token, and no client's, if the client's bucket did. Once all checks have ended, the global
tokens taken are the checks that returned `Ok` and those that ended without it past the global bucket. -/
theorem rejections_spend (overflowChecks : Bool) (config : RateLimitConfig) (t₀ : Nat)
    (labels : List (Label (Option Ip))) :
    let c := (shared Ip overflowChecks).run (fresh Ip config t₀) labels
    (∀ i info, c.calls[i]? = some (.done (.err info)) →
      spent overflowChecks config t₀ labels globalLevel (· == i) =
        (if info.limitType = .PerClient then 1 else 0) ∧
      ∀ place, spent overflowChecks config t₀ labels (clientLevel place) (· == i) = 0) ∧
    (Finished c →
      spent overflowChecks config t₀ labels globalLevel (fun _ => true) = (c.count isOk + c.count isLate : ℕ)) := by
  intro c
  have books : Books config (fresh Ip config t₀) := books_fresh config t₀
  refine ⟨?_, ?_⟩
  · intro i info ended
    have before : (fresh Ip config t₀).calls[i]? = none := by simp [fresh]
    refine ⟨?_, ?_⟩
    · have paid := (global_priced config overflowChecks).taken_by books i labels
      rw [before, show ((shared Ip overflowChecks).run (fresh Ip config t₀) labels).calls[i]? = _ from ended] at paid
      rw [spent, paid]
      by_cases late : info.limitType = .PerClient <;> simp [paidGlobal, late]
    · intro place
      have paid := (client_priced config overflowChecks place).taken_by books i labels
      rw [before, show ((shared Ip overflowChecks).run (fresh Ip config t₀) labels).calls[i]? = _ from ended] at paid
      rw [spent, paid]
      simp [paidClient]
  · intro finished
    have paid := (global_priced config overflowChecks).taken_all books labels
    rw [spent, paid, finished.paid_eq]
    simp [fresh, Pool.count]

end ServiceMesh.RateLimit
