import ServiceMesh.RateLimit.PerClient
import Mathlib.Data.List.Nodup

/-!
# What an eviction forgets

A client whose entry was evicted gets a new one, with a full bucket. Nobody sees the difference if the forgotten bucket
would have been full by then: the client's level, mapped or not, is what a run is told by (`level`), and a cleanup that
removes full entries only changes no level (`level_maybeCleanupBy`). An entry expires a nanosecond after its TTL at
the earliest, so this is the case when a bucket fills in that time, and when a bucket holds one token at most
(`full_of_expired`). For every other configuration there is a client who is given tokens back (`eviction_unseen_iff`).
-/

namespace ServiceMesh.RateLimit

open Transducer

namespace RateLimiter

variable {Ip : Type} [DecidableEq Ip]

/-- `maybe_cleanup` with a rule of its own for which entries are expired. -/
def maybeCleanupBy (expired : Nat → Nat → ClientEntry → Bool) (now : Nat) (l : RateLimiter Ip) : RateLimiter Ip :=
  if now - l.lastCleanup < 60 * 10 ^ 9 then l
  else
    { l with
      lastCleanup := now
      clientBuckets := l.clientBuckets.filter fun client => !expired now l.config.clientTtl (l.entries client.2) }

/-- `check` with that cleanup. -/
def checkBy (expired : Nat → Nat → ClientEntry → Bool) (now : Nat) (clientIp : Option Ip) (l : RateLimiter Ip) :
    CheckResult × RateLimiter Ip :=
  let (taken, globalBucket) := l.globalBucket.tryConsume now
  let l := { l with globalBucket }
  if taken then
    if l.config.perClient then
      match clientIp with
      | some ip =>
        let (place, l) := (l.maybeCleanupBy expired now).entry now ip
        let (taken, l) := l.tryAcquire now place
        if taken then (.ok, l) else (rejection .PerClient (l.entries place).bucket, l)
      | none => (.ok, l)
    else (.ok, l)
  else (rejection .Global l.globalBucket, l)

theorem check_eq : (check : Nat → Option Ip → RateLimiter Ip → _) = checkBy ClientEntry.isExpired := rfl

/-- No entry is ever expired: the cleanup that never removes any. -/
def neverExpired : Nat → Nat → ClientEntry → Bool := fun _ _ _ => false

/-- Whether a check at `now` gets as far as the client's bucket. -/
def charges (now : Nat) (l : RateLimiter Ip) : Bool := (l.globalBucket.tryConsume now).1 && l.config.perClient

/-- The refilled level that the client's bucket shows at the `try_acquire` of a check, if the check gets so far. -/
def presented (expired : Nat → Nat → ClientEntry → Bool) (now : Nat) (clientIp : Option Ip) (l : RateLimiter Ip) : Option ℚ :=
  if l.charges now then
    clientIp.map fun ip =>
      let (place, l) := ((l.spend now).maybeCleanupBy expired now).entry now ip
      (l.entries place).bucket.balance now
  else none

/-- A check, observed at its `try_acquire`. -/
def present (expired : Nat → Nat → ClientEntry → Bool) (r : Request Ip) (l : RateLimiter Ip) : Option ℚ × RateLimiter Ip :=
  (l.presented expired r.now r.clientIp, (l.checkBy expired r.now r.clientIp).2)

end RateLimiter

/-- In no sequence of checks is an eviction seen: every `try_acquire` finds the level it would find if no entry were ever
removed. -/
def EvictionUnseen (Ip : Type) [DecidableEq Ip] (config : RateLimitConfig) : Prop :=
  ∀ (t₀ : Nat) (requests : List (Request Ip)), (t₀ :: requests.map Request.now).IsChain (· ≤ ·) →
    trace (RateLimiter.present ClientEntry.isExpired) (.new config t₀) requests =
      trace (RateLimiter.present RateLimiter.neverExpired) (.new config t₀) requests

namespace RateLimiter

variable {Ip : Type}

/-- The map: no client twice, and every client with a place of its own among the allocated ones. -/
structure Placed (l : RateLimiter Ip) : Prop where
  clients : (l.clientBuckets.map Prod.fst).Nodup
  places : (l.clientBuckets.map Prod.snd).Nodup
  below : ∀ client ∈ l.clientBuckets, client.2 < l.allocated

variable [DecidableEq Ip] {l : RateLimiter Ip} {now : Nat} {ip : Ip} {place : Nat}

/-- The level at `now` of the bucket that a check would find for the client; a new one is full. -/
def level (now : Nat) (l : RateLimiter Ip) (ip : Ip) : ℚ :=
  match l.clientBuckets.lookup ip with
  | some place => (l.entries place).bucket.balance now
  | none => l.config.burstSize

omit [DecidableEq Ip] in
theorem Placed.same_place (h : l.Placed) {other : Ip} (mine : (ip, place) ∈ l.clientBuckets)
    (theirs : (other, place) ∈ l.clientBuckets) : ip = other := by
  exact (Prod.ext_iff.mp (List.inj_on_of_nodup_map h.places mine theirs rfl)).1

/-- Without two entries for a client, the lookup is membership. -/
theorem Placed.lookup_iff (h : l.Placed) : l.clientBuckets.lookup ip = some place ↔ (ip, place) ∈ l.clientBuckets := by
  constructor
  · intro found
    obtain ⟨before, after, split, -⟩ := List.lookup_eq_some_iff.mp found
    rw [split]
    exact List.mem_append_right _ List.mem_cons_self
  · intro mem
    obtain ⟨before, after, split⟩ := List.append_of_mem mem
    refine List.lookup_eq_some_iff.mpr ⟨before, after, split, ?_⟩
    intro client earlier
    have distinct := h.clients
    rw [split, List.map_append, List.map_cons] at distinct
    have apart := (List.nodup_append.mp distinct).2.2 client.1 (List.mem_map_of_mem earlier) ip List.mem_cons_self
    exact bne_iff_ne.mpr apart.symm

theorem Placed.level_of_mem (h : l.Placed) (mem : (ip, place) ∈ l.clientBuckets) :
    l.level now ip = (l.entries place).bucket.balance now := by
  rw [level, h.lookup_iff.mpr mem]

theorem lookup_none_iff : l.clientBuckets.lookup ip = none ↔ ∀ place, (ip, place) ∉ l.clientBuckets := by
  rw [List.lookup_eq_none_iff]
  constructor
  · intro missing place mem
    exact bne_iff_ne.mp (missing _ mem) rfl
  · intro unmapped client mem
    rw [bne_iff_ne]
    rintro rfl
    exact unmapped client.2 mem

theorem level_of_unmapped (unmapped : ∀ place, (ip, place) ∉ l.clientBuckets) : l.level now ip = l.config.burstSize := by
  rw [level, lookup_none_iff.mpr unmapped]

omit [DecidableEq Ip] in
theorem placed_new (config : RateLimitConfig) (t₀ : Nat) : (new config t₀ : RateLimiter Ip).Placed := by
  refine ⟨List.nodup_nil, List.nodup_nil, ?_⟩
  intro client mem
  cases mem

omit [DecidableEq Ip] in
/-- Unmapping some clients keeps the map in order. -/
theorem Placed.unmap (h : l.Placed) (keep : Ip × Nat → Bool) (t : Nat) :
    Placed { l with lastCleanup := t, clientBuckets := l.clientBuckets.filter keep } := by
  refine ⟨?_, ?_, ?_⟩
  · exact h.clients.sublist (List.filter_sublist.map _)
  · exact h.places.sublist (List.filter_sublist.map _)
  · intro client mem
    exact h.below client (List.mem_filter.mp mem).1

/-! ## What each part of a check does to the levels -/

/-- A level rises like a bucket. -/
theorem level_later (h : l.Covered now) {later : Nat} (ordered : now ≤ later) :
    l.level later ip =
      Fluid.fill (l.config.burstSize : ℚ) l.config.requestsPerSecond (l.level now ip) (secs (later - now)) := by
  unfold level
  cases l.clientBuckets.lookup ip with
  | some place =>
    have entry := h.entries place
    show (l.entries place).bucket.balance later = Fluid.fill _ _ ((l.entries place).bucket.balance now) _
    rw [← h.capacity, ← h.rate, ← entry.capacity, ← entry.rate, entry.wf.balance_fill entry.past ordered]
  | none =>
    apply le_antisymm
    · exact Fluid.le_fill (le_refl _) (Nat.cast_nonneg _) (secs_nonneg _)
    · exact Fluid.fill_le_cap

/-- **A cleanup that removes full entries only changes no level.** -/
theorem level_maybeCleanupBy (expired : Nat → Nat → ClientEntry → Bool) (placed : l.Placed)
    (full : ∀ place, expired now l.config.clientTtl (l.entries place) = true →
      (l.entries place).bucket.balance now = l.config.burstSize) (ip : Ip) :
    (l.maybeCleanupBy expired now).level now ip = l.level now ip ∧ (l.maybeCleanupBy expired now).Placed := by
  unfold maybeCleanupBy
  split
  · exact ⟨rfl, placed⟩
  · have after := placed.unmap (fun client => !expired now l.config.clientTtl (l.entries client.2)) now
    refine ⟨?_, after⟩
    cases found : l.clientBuckets.lookup ip with
    | none =>
      have unmapped := lookup_none_iff.mp found
      rw [level_of_unmapped unmapped, level_of_unmapped]
      intro place mem
      exact unmapped place (List.mem_filter.mp mem).1
    | some place =>
      have mem := placed.lookup_iff.mp found
      rw [placed.level_of_mem mem]
      cases removed : expired now l.config.clientTtl (l.entries place) with
      | false => exact after.level_of_mem (List.mem_filter.mpr ⟨mem, by rw [removed]; rfl⟩)
      | true =>
        rw [full place removed, level_of_unmapped]
        intro place' mem'
        obtain ⟨old, kept⟩ := List.mem_filter.mp mem'
        cases (Prod.ext_iff.mp (List.inj_on_of_nodup_map placed.clients old mem rfl)).2
        rw [removed] at kept
        cases kept

/-- The limiter with a new entry for the client. -/
def allocate (now : Nat) (ip : Ip) (l : RateLimiter Ip) : RateLimiter Ip :=
  { l with
    clientBuckets := (ip, l.allocated) :: l.clientBuckets
    entries := Function.update l.entries l.allocated (.new l.config now)
    allocated := l.allocated + 1 }

omit [DecidableEq Ip] in
theorem Placed.allocate (h : l.Placed) (unmapped : ∀ place, (ip, place) ∉ l.clientBuckets) (now : Nat) :
    (l.allocate now ip).Placed := by
  refine ⟨List.nodup_cons.mpr ⟨?_, h.clients⟩, List.nodup_cons.mpr ⟨?_, h.places⟩, ?_⟩
  · intro twice
    obtain ⟨client, mem, same⟩ := List.mem_map.mp twice
    cases same
    exact unmapped client.2 mem
  · intro twice
    obtain ⟨client, mem, same⟩ := List.mem_map.mp twice
    have below := h.below client mem
    change client.2 = l.allocated at same
    omega
  · intro client mem
    rcases List.mem_cons.mp mem with rfl | mem
    · exact Nat.lt_succ_self _
    · exact (h.below client mem).trans (Nat.lt_succ_self _)

/-- A new entry is full, as the level of a client without one is, and nobody else's level changes. -/
theorem level_allocate (placed : l.Placed) (unmapped : ∀ place, (ip, place) ∉ l.clientBuckets) (other : Ip) :
    (l.allocate now ip).level now other = l.level now other := by
  have after := placed.allocate unmapped now
  by_cases mapped : ∃ place, (other, place) ∈ l.clientBuckets
  · obtain ⟨place, mem⟩ := mapped
    have apart : place ≠ l.allocated := (placed.below _ mem).ne
    have same : (l.allocate now ip).entries place = l.entries place := Function.update_of_ne apart _ _
    rw [after.level_of_mem (List.mem_cons_of_mem _ mem), placed.level_of_mem mem, same]
  · have nowhere : ∀ place, (other, place) ∉ l.clientBuckets := fun place mem => mapped ⟨place, mem⟩
    rw [level_of_unmapped nowhere]
    by_cases mine : other = ip
    · subst mine
      have new : (l.allocate now other).entries l.allocated = .new l.config now := Function.update_self _ _ _
      rw [after.level_of_mem List.mem_cons_self, new]
      exact TokenBucket.balance_new (Nat.cast_nonneg _) now now
    · apply level_of_unmapped
      intro place mem
      rcases List.mem_cons.mp mem with same | mem
      · exact mine (Prod.ext_iff.mp same).1
      · exact nowhere place mem

/-- The lookup finds the client's level, and changes nobody's. -/
theorem level_entry (now : Nat) (placed : l.Placed) (ip : Ip) :
    (ip, (l.entry now ip).1) ∈ (l.entry now ip).2.clientBuckets ∧ (l.entry now ip).2.Placed ∧
      ∀ other, (l.entry now ip).2.level now other = l.level now other := by
  unfold entry
  cases found : l.clientBuckets.lookup ip with
  | some place => exact ⟨placed.lookup_iff.mp found, placed, fun _ => rfl⟩
  | none =>
    have unmapped := lookup_none_iff.mp found
    exact ⟨List.mem_cons_self, placed.allocate unmapped now, level_allocate placed unmapped⟩

/-- A token out of the client's bucket, and out of nobody else's. -/
theorem level_tryAcquire (placed : l.Placed) (mem : (ip, place) ∈ l.clientBuckets)
    (wf : (l.entries place).bucket.Wf) (granted : (l.tryAcquire now place).1 = true) :
    (l.tryAcquire now place).2.Placed ∧
      ∀ other, (l.tryAcquire now place).2.level now other = l.level now other - if other = ip then 1 else 0 := by
  have after : (l.tryAcquire now place).2.Placed := ⟨placed.clients, placed.places, placed.below⟩
  refine ⟨after, ?_⟩
  intro other
  by_cases mapped : ∃ theirs, (other, theirs) ∈ l.clientBuckets
  · obtain ⟨theirs, mem'⟩ := mapped
    rw [placed.level_of_mem mem', after.level_of_mem mem']
    simp only [tryAcquire]
    by_cases mine : other = ip
    · subst mine
      have same : theirs = place := (Prod.ext_iff.mp (List.inj_on_of_nodup_map placed.clients mem' mem rfl)).2
      subst same
      have consumed : ((l.entries theirs).bucket.tryConsume now).1 = true := granted
      rw [Function.update_self, if_pos rfl, ClientEntry.tryAcquire, wf.balance_tryConsume, consumed]
      rfl
    · have apart : theirs ≠ place := by
        intro same
        subst same
        exact mine (placed.same_place mem' mem)
      rw [Function.update_of_ne apart, if_neg mine, sub_zero]
  · have nowhere : ∀ place, (other, place) ∉ l.clientBuckets := fun place mem => mapped ⟨place, mem⟩
    have mine : other ≠ ip := by
      intro same
      subst same
      exact nowhere place mem
    have same : (l.tryAcquire now place).2.level now other = l.config.burstSize := level_of_unmapped nowhere
    rw [same, level_of_unmapped nowhere, if_neg mine, sub_zero]

/-! ## One check -/

/-- What the simulation carries about each of the two limiters. -/
structure Sound (now : Nat) (l : RateLimiter Ip) : Prop where
  covered : l.Covered now
  placed : l.Placed
  accessed : ∀ place, (l.entries place).bucket.lastUpdate = (l.entries place).lastAccess

omit [DecidableEq Ip] in
theorem sound_new (config : RateLimitConfig) (t₀ : Nat) : (new config t₀ : RateLimiter Ip).Sound t₀ :=
  ⟨covered_new config t₀, placed_new config t₀, fun _ => rfl⟩

omit [DecidableEq Ip] in
theorem Sound.later (h : l.Sound now) {t : Nat} (ordered : now ≤ t) : l.Sound t :=
  ⟨h.covered.later ordered, h.placed, h.accessed⟩

/-- A check, told by the levels: whoever is charged pays one token. -/
structure Told (now : Nat) (clientIp : Option Ip) (l : RateLimiter Ip) (r : Option ℚ × RateLimiter Ip) : Prop where
  shown : r.1 = if l.charges now then clientIp.map (l.level now) else none
  config : r.2.config = l.config
  globalBucket : r.2.globalBucket = (l.globalBucket.tryConsume now).2
  sound : r.2.Sound now
  level : ∀ ip, r.2.level now ip = l.level now ip - if l.charges now ∧ clientIp = some ip then 1 else 0

variable {expired : Nat → Nat → ClientEntry → Bool}

theorem checkBy_uncharged (uncharged : l.charges now = false) (clientIp : Option Ip) :
    (l.checkBy expired now clientIp).2 = l.spend now := by
  unfold charges at uncharged
  rcases (Bool.and_eq_false_iff).mp uncharged with refused | off
  · simp only [checkBy, refused, Bool.false_eq_true, if_false, spend]
  · simp only [checkBy, off, Bool.false_eq_true, if_false, spend]
    split <;> rfl

theorem checkBy_none : (l.checkBy expired now none).2 = l.spend now := by
  simp only [checkBy, spend]
  split
  · split <;> rfl
  · rfl

theorem checkBy_charged (charged : l.charges now = true) (ip : Ip) :
    (l.checkBy expired now (some ip)).2 =
      let found := ((l.spend now).maybeCleanupBy expired now).entry now ip
      (found.2.tryAcquire now found.1).2 := by
  obtain ⟨taken, perClient⟩ := (Bool.and_eq_true _ _).mp charged
  simp only [checkBy, taken, perClient, if_true, spend]
  split <;> rfl

omit [DecidableEq Ip] in
theorem maybeCleanupBy_frame (expired : Nat → Nat → ClientEntry → Bool) (now : Nat) (l : RateLimiter Ip) :
    (l.maybeCleanupBy expired now).config = l.config ∧ (l.maybeCleanupBy expired now).globalBucket = l.globalBucket ∧
      (l.maybeCleanupBy expired now).entries = l.entries := by
  unfold maybeCleanupBy
  split
  · exact ⟨rfl, rfl, rfl⟩
  · exact ⟨rfl, rfl, rfl⟩

omit [DecidableEq Ip] in
/-- Every entry, looked up or allocated or just acquired from, was last accessed when it was last updated. -/
theorem accessed_tryAcquire (accessed : ∀ place, (l.entries place).bucket.lastUpdate = (l.entries place).lastAccess)
    (now place other : Nat) :
    ((l.tryAcquire now place).2.entries other).bucket.lastUpdate = ((l.tryAcquire now place).2.entries other).lastAccess := by
  simp only [tryAcquire]
  by_cases mine : other = place
  · subst mine
    rw [Function.update_self]
    exact TokenBucket.tryConsume_lastUpdate
  · rw [Function.update_of_ne mine]
    exact accessed other

/-- The client's part of a granted check: the lookup and the entry's `try_acquire`, where `g` is the global bucket before
the check. -/
theorem charged_told {g : TokenBucket} (wf : g.Wf) (taken : (g.tryConsume now).1 = true)
    (globalBucket : l.globalBucket = (g.tryConsume now).2) (capacity : g.capacity = l.config.burstSize)
    (rate : g.refillRate = l.config.requestsPerSecond)
    (covers : ∀ place, TokenBucket.Covers now g (l.entries place).bucket) (placed : l.Placed)
    (accessed : ∀ place, (l.entries place).bucket.lastUpdate = (l.entries place).lastAccess) (ip : Ip) :
    let found := l.entry now ip
    let after := (found.2.tryAcquire now found.1).2
    (found.2.entries found.1).bucket.balance now = l.level now ip ∧ after.config = l.config ∧
      after.globalBucket = (g.tryConsume now).2 ∧ after.Sound now ∧
      ∀ other, after.level now other = l.level now other - if other = ip then 1 else 0 := by
  intro found after
  obtain ⟨mem, placed', levels⟩ := level_entry now placed ip
  obtain ⟨config', globalBucket', either⟩ := entry_frame now ip l
  have entries := covers_entry (l := l) wf capacity rate covers ip
  obtain ⟨granted, covered⟩ := covered_tryAcquire wf taken (globalBucket'.trans globalBucket)
    (by rw [config', capacity]) (by rw [config', rate]) entries found.1
  obtain ⟨placed'', paid⟩ := level_tryAcquire placed' mem (entries found.1).wf granted
  refine ⟨?_, config', globalBucket'.trans globalBucket, ⟨covered, placed'', ?_⟩, ?_⟩
  · rw [← levels ip, placed'.level_of_mem mem]
  · apply accessed_tryAcquire
    intro place
    rcases either place with old | new
    · rw [old]
      exact accessed place
    · rw [new]
      rfl
  · intro other
    rw [paid other, levels other]

/-- **One check, told by the levels**, if its cleanup removes full entries only. -/
theorem Sound.told (h : l.Sound now) (clientIp : Option Ip)
    (full : l.charges now = true → ∀ place, expired now l.config.clientTtl (l.entries place) = true →
      (l.entries place).bucket.balance now = l.config.burstSize) :
    l.Told now clientIp (l.presented expired now clientIp, (l.checkBy expired now clientIp).2) := by
  have placed : (l.spend now).Placed := ⟨h.placed.clients, h.placed.places, h.placed.below⟩
  have spent : (l.spend now).Sound now := ⟨h.covered.spend, placed, h.accessed⟩
  cases charged : l.charges now with
  | false =>
    rw [checkBy_uncharged charged]
    refine ⟨?_, rfl, rfl, spent, ?_⟩
    · simp only [presented, charged, Bool.false_eq_true, if_false]
    · intro ip
      simp only [charged, Bool.false_eq_true, false_and, if_false, sub_zero]
      rfl
  | true =>
    cases clientIp with
    | none =>
      rw [checkBy_none]
      refine ⟨?_, rfl, rfl, spent, ?_⟩
      · simp only [presented, charged, if_true, Option.map_none]
      · intro ip
        simp only [reduceCtorEq, and_false, if_false, sub_zero]
        rfl
    | some ip =>
      obtain ⟨taken, -⟩ := (Bool.and_eq_true _ _).mp charged
      have cleaned := level_maybeCleanupBy expired placed (full charged)
      obtain ⟨config, globalBucket, kept⟩ := maybeCleanupBy_frame expired now (l.spend now)
      obtain ⟨shown, config', globalBucket', sound, levels⟩ := charged_told h.covered.wf taken globalBucket
        (by rw [config]; exact h.covered.capacity) (by rw [config]; exact h.covered.rate)
        (by rw [kept]; exact h.covered.entries) (cleaned ip).2 (by rw [kept]; exact h.accessed) ip
      rw [checkBy_charged charged]
      refine ⟨?_, config'.trans config, globalBucket', sound, ?_⟩
      · simp only [presented, charged, if_true, Option.map_some]
        rw [shown, (cleaned ip).1]
        rfl
      · intro other
        rw [levels other, (cleaned other).1]
        simp only [charged, Option.some.injEq, true_and, eq_comm (a := ip)]
        rfl

/-! ## Two runs -/

omit [DecidableEq Ip] in
/-- An expired entry is full by the time a granted check can remove it, if it fills up within the TTL or holds one token at
most. -/
theorem Sound.full_of_expired (h : l.Sound now) (taken : (l.globalBucket.tryConsume now).1 = true)
    (fits : l.config.burstSize ≤ 1 ∨ l.config.burstSize * 10 ^ 9 ≤ l.config.requestsPerSecond * (l.config.clientTtl + 1))
    (expired : (l.entries place).isExpired now l.config.clientTtl = true) :
    (l.entries place).bucket.balance now = l.config.burstSize := by
  have entry := h.covered.entries place
  have capacity := entry.capacity.trans h.covered.capacity
  have rate := entry.rate.trans h.covered.rate
  apply le_antisymm
  · rw [← capacity]
    exact TokenBucket.balance_le_capacity
  · rcases fits with small | fills
    · have some := (TokenBucket.tryConsume_eq_true_iff.mp taken).trans entry.more
      have atMost : (l.config.burstSize : ℚ) ≤ 1 := by exact_mod_cast small
      exact atMost.trans some
    · refine Fluid.le_fill_iff.mpr ⟨?_, capacity.ge⟩
      have waited : l.config.clientTtl + 1 ≤ now - (l.entries place).bucket.lastUpdate := by
        rw [h.accessed]
        exact of_decide_eq_true expired
      have filled : (l.config.burstSize : ℚ) ≤ secs (l.config.clientTtl + 1) * l.config.requestsPerSecond := by
        have cast : (l.config.burstSize : ℚ) * 10 ^ 9 ≤ l.config.requestsPerSecond * (l.config.clientTtl + 1) := by
          exact_mod_cast fills
        rw [secs, div_mul_eq_mul_div, le_div_iff₀ (by positivity)]
        push_cast
        linarith
      have longer : secs (l.config.clientTtl + 1) * l.config.requestsPerSecond ≤
          secs (now - (l.entries place).bucket.lastUpdate) * l.config.requestsPerSecond :=
        mul_le_mul_of_nonneg_right (secs_mono waited) (Nat.cast_nonneg _)
      have start := entry.wf.nonneg
      rw [rate]
      linarith

/-- With the eviction and without it: the same global bucket, and for every client the same level. -/
structure Alike (config : RateLimitConfig) (now : Nat) (a b : RateLimiter Ip) : Prop where
  left : a.Sound now
  right : b.Sound now
  config_left : a.config = config
  config_right : b.config = config
  globalBucket : a.globalBucket = b.globalBucket
  level : ∀ ip, a.level now ip = b.level now ip

theorem Alike.later {config : RateLimitConfig} {a b : RateLimiter Ip} (h : Alike config now a b) {t : Nat}
    (ordered : now ≤ t) : Alike config t a b := by
  refine ⟨h.left.later ordered, h.right.later ordered, h.config_left, h.config_right, h.globalBucket, ?_⟩
  intro ip
  rw [level_later h.left.covered ordered, level_later h.right.covered ordered, h.level ip, h.config_left, h.config_right]

/-- **One check with the eviction and without it.** -/
theorem Alike.step {config : RateLimitConfig}
    (fits : config.perClient = false ∨ config.burstSize ≤ 1 ∨
      config.burstSize * 10 ^ 9 ≤ config.requestsPerSecond * (config.clientTtl + 1))
    (t : Nat) (r : Request Ip) (a b : RateLimiter Ip) (ordered : t ≤ r.now) (h : Alike config t a b) :
    (present ClientEntry.isExpired r a).1 = (present neverExpired r b).1 ∧
      Alike config r.now (present ClientEntry.isExpired r a).2 (present neverExpired r b).2 := by
  have now := h.later ordered
  have charges : a.charges r.now = b.charges r.now := by
    rw [RateLimiter.charges, RateLimiter.charges, now.globalBucket, now.config_left, now.config_right]
  have left : a.Told r.now r.clientIp (present ClientEntry.isExpired r a) := by
    refine now.left.told r.clientIp ?_
    intro charged place expired
    obtain ⟨taken, perClient⟩ := (Bool.and_eq_true _ _).mp charged
    refine now.left.full_of_expired taken ?_ expired
    rw [now.config_left] at perClient ⊢
    rw [perClient] at fits
    exact fits.resolve_left Bool.noConfusion
  have right : b.Told r.now r.clientIp (present neverExpired r b) := by
    refine now.right.told r.clientIp ?_
    intro _ place expired
    cases expired
  have levels : a.level r.now = b.level r.now := funext now.level
  refine ⟨?_, left.sound, right.sound, left.config.trans now.config_left, right.config.trans now.config_right, ?_, ?_⟩
  · rw [left.shown, right.shown, charges, levels]
  · rw [left.globalBucket, right.globalBucket, now.globalBucket]
  · intro ip
    rw [left.level, right.level, charges, levels]

/-! ## Tokens given back -/

section
variable {config : RateLimitConfig} {t k : Nat}

/-- A new limiter after `k` checks at `t` by one client. -/
def drawn (config : RateLimitConfig) (t k : Nat) (ip : Ip) : RateLimiter Ip :=
  { config, globalBucket := config.drawnBucket t k, clientBuckets := [(ip, 0)],
    entries := Function.update (fun _ => .new config 0) 0 ⟨config.drawnBucket t k, t⟩, allocated := 1, lastCleanup := 0 }

theorem bucket_tryConsume (more : 0 < config.burstSize) (created t : Nat) :
    (config.bucket created).tryConsume t = (true, config.drawnBucket t 1) := by
  have enough : (1 : ℚ) ≤ config.burstSize := by exact_mod_cast more
  have level : (config.bucket created).balance t = config.burstSize :=
    TokenBucket.balance_new (Nat.cast_nonneg _) created t
  rcases TokenBucket.tryConsume_cases t (config.bucket created) with ⟨-, eq⟩ | ⟨short, -⟩
  · rw [eq, level, RateLimitConfig.drawnBucket, Nat.cast_one]
    rfl
  · rw [level] at short
    linarith

omit [DecidableEq Ip] in
theorem maybeCleanupBy_recent (recent : now - l.lastCleanup < 60 * 10 ^ 9) : l.maybeCleanupBy expired now = l :=
  if_pos recent

theorem check_new (recent : t < 60 * 10 ^ 9) (on : config.perClient = true) (more : 0 < config.burstSize) (ip : Ip) :
    ((new config 0).checkBy expired t (some ip)).2 = drawn config t 1 ip := by
  have spent := bucket_tryConsume more 0 t
  have charged : (new config 0 : RateLimiter Ip).charges t = true := by
    rw [charges, new, spent, on]
    rfl
  have consumed : (ClientEntry.new config t).tryAcquire t = (true, ⟨config.drawnBucket t 1, t⟩) := by
    rw [ClientEntry.tryAcquire, ClientEntry.new, bucket_tryConsume more t t]
  rw [checkBy_charged charged, maybeCleanupBy_recent recent]
  simp only [spend, new, spent, entry, List.lookup_nil, tryAcquire, Function.update_self, consumed, Function.update_idem,
    drawn]

theorem check_drawn (recent : t < 60 * 10 ^ 9) (on : config.perClient = true) (more : k < config.burstSize) (ip : Ip) :
    ((drawn config t k ip).checkBy expired t (some ip)).2 = drawn config t (k + 1) ip := by
  have spent := RateLimitConfig.drawnBucket_tryConsume more t
  have charged : (drawn config t k ip).charges t = true := by
    rw [charges, drawn, spent, on]
    rfl
  rw [checkBy_charged charged, maybeCleanupBy_recent recent]
  simp only [spend, drawn, spent, entry, List.lookup_cons_self, tryAcquire, Function.update_self, ClientEntry.tryAcquire,
    Function.update_idem]

/-- Under any rule of expiry the checks come to the same. -/
theorem run_drawn (recent : t < 60 * 10 ^ 9) (on : config.perClient = true) (more : k < config.burstSize) (ip : Ip) :
    run (present expired) (new config 0) (List.replicate (k + 1) ⟨t, some ip⟩) = drawn config t (k + 1) ip := by
  induction k with
  | zero => exact check_new recent on more ip
  | succ k ih =>
    rw [List.replicate_succ', run_append, ih (by omega), run_cons, run_nil]
    exact check_drawn recent on more ip

/-- A check that finds its client evicted. -/
theorem presented_evicted {later : Nat} (charged : (drawn config t k ip).charges later = true)
    (due : 60 * 10 ^ 9 ≤ later) (expired : config.clientTtl < later - t) :
    (drawn config t k ip).presented ClientEntry.isExpired later (some ip) = some (config.burstSize : ℚ) := by
  have removed : ClientEntry.isExpired later config.clientTtl ⟨config.drawnBucket t k, t⟩ = true := decide_eq_true expired
  have due' : ¬ later - 0 < 60 * 10 ^ 9 := by omega
  rw [presented, if_pos charged]
  simp only [Option.map_some, spend, maybeCleanupBy, drawn, due', if_false, entry,
    List.filter_cons, Function.update_self, removed, Bool.not_true, Bool.false_eq_true, List.filter_nil, List.lookup_nil]
  exact congrArg some (TokenBucket.balance_new (Nat.cast_nonneg _) later later)

theorem presented_kept {later : Nat} (charged : (drawn config t k ip).charges later = true) :
    (drawn config t k ip).presented neverExpired later (some ip) = some ((config.drawnBucket t k).balance later) := by
  have kept : (maybeCleanupBy neverExpired later (spend later (drawn config t k ip))).clientBuckets = [(ip, 0)] := by
    unfold maybeCleanupBy
    split <;> rfl
  have entries := (maybeCleanupBy_frame neverExpired later (spend later (drawn config t k ip))).2.2
  simp only [presented, charged, if_true, Option.map_some, entry, kept, List.lookup_cons_self, entries]
  rfl

end

omit [DecidableEq Ip] in
theorem drawn_ordered {t later : Nat} (ordered : t ≤ later) (k : Nat) (ip : Ip) :
    (0 :: (List.replicate (k + 1) (Request.mk t (some ip)) ++ [Request.mk later (some ip)]).map Request.now).IsChain
      (· ≤ ·) := by
  rw [List.map_append, List.map_replicate, ordered_append, List.replicate_succ, List.isChain_cons_cons]
  refine ⟨⟨Nat.zero_le t, ?_⟩, ?_⟩
  · rw [← List.replicate_succ]
    exact (List.pairwise_replicate.mpr (.inr (le_refl t))).isChain
  · rw [← List.replicate_succ, List.replicate_succ', List.getLastD_concat]
    exact List.isChain_pair.mpr ordered

/-- Of a configuration that gives tokens back: as many checks at one time as show it, a TTL and a nanosecond later. -/
theorem exists_drawn {config : RateLimitConfig} (big : 2 ≤ config.burstSize)
    (slow : config.requestsPerSecond * (config.clientTtl + 1) < config.burstSize * 10 ^ 9) (t : Nat) :
    ∃ k, k < config.burstSize ∧ 1 ≤ (config.drawnBucket t (k + 1)).balance (t + (config.clientTtl + 1)) ∧
      (config.drawnBucket t (k + 1)).balance (t + (config.clientTtl + 1)) < config.burstSize := by
  have level : ∀ k, (config.drawnBucket t k).balance (t + (config.clientTtl + 1)) =
      min (config.burstSize - k + secs (config.clientTtl + 1) * config.requestsPerSecond) config.burstSize := by
    intro k
    rw [TokenBucket.balance, RateLimitConfig.drawnBucket, Nat.add_sub_cancel_left]
    rfl
  have two : (2 : ℚ) ≤ config.burstSize := by exact_mod_cast big
  have gain : 0 ≤ secs (config.clientTtl + 1) * config.requestsPerSecond :=
    mul_nonneg (secs_nonneg _) (Nat.cast_nonneg _)
  have short : secs (config.clientTtl + 1) * config.requestsPerSecond < config.burstSize := by
    have cast : (config.requestsPerSecond : ℚ) * (config.clientTtl + 1) < config.burstSize * 10 ^ 9 := by
      exact_mod_cast slow
    rw [secs, div_mul_eq_mul_div, div_lt_iff₀ (by positivity)]
    push_cast
    linarith
  -- one token is left over, unless the bucket nearly fills up
  by_cases nearly : (config.burstSize : ℚ) - 1 ≤ secs (config.clientTtl + 1) * config.requestsPerSecond
  · refine ⟨config.burstSize - 1, by omega, ?_⟩
    rw [level, Nat.sub_add_cancel (by omega), sub_self, zero_add, min_eq_left short.le]
    exact ⟨by linarith, short⟩
  · refine ⟨config.burstSize - 2, by omega, ?_⟩
    have taken : ((config.burstSize - 2 + 1 : Nat) : ℚ) = config.burstSize - 1 := by
      rw [show config.burstSize - 2 + 1 = config.burstSize - 1 by omega, Nat.cast_pred (by omega)]
    rw [level, taken, sub_sub_cancel, min_eq_left (by linarith)]
    exact ⟨by linarith, by linarith⟩

end RateLimiter

/-- At one a second and a TTL of zero: a client takes two tokens, and half a second later, evicted, shows a full bucket
instead of 98.5. -/
theorem eviction_seen :
    ¬ EvictionUnseen Unit { RateLimitConfig.default with requestsPerSecond := 1, burstSize := 100, clientTtl := 0 } := by
  intro unseen
  have same := unseen 0 [⟨59500000000, some ()⟩, ⟨59500000000, some ()⟩, ⟨60000000000, some ()⟩] (by decide)
  exact absurd same (by decide +kernel)

open RateLimiter in
/-- **When an eviction is not seen.** Without a limit for each client; with buckets of one token at most; or when a bucket
fills up in the shortest time after which an entry can be evicted, its TTL and a nanosecond. For no other
configuration. -/
theorem eviction_unseen_iff (Ip : Type) [DecidableEq Ip] [Inhabited Ip] (config : RateLimitConfig) :
    EvictionUnseen Ip config ↔ config.perClient = false ∨ config.burstSize ≤ 1 ∨
      config.burstSize * 10 ^ 9 ≤ config.requestsPerSecond * (config.clientTtl + 1) := by
  constructor
  · intro unseen
    by_contra otherwise
    simp only [not_or, Bool.not_eq_false, not_le] at otherwise
    obtain ⟨on, big, slow⟩ := otherwise
    -- the cleanup is due just when the client's entry is expired
    have recent : 60 * 10 ^ 9 - (config.clientTtl + 1) < 60 * 10 ^ 9 := by omega
    generalize start : 60 * 10 ^ 9 - (config.clientTtl + 1) = t at recent
    obtain ⟨k, more, enough, less⟩ := exists_drawn big slow t
    have charged : (drawn config t (k + 1) (default : Ip)).charges (t + (config.clientTtl + 1)) = true := by
      rw [charges, drawn, TokenBucket.tryConsume_eq_true_iff.mpr enough, on]
      rfl
    have same := unseen 0 (List.replicate (k + 1) ⟨t, some default⟩ ++ [⟨t + (config.clientTtl + 1), some default⟩])
      (drawn_ordered (Nat.le_add_right _ _) k default)
    rw [trace_append, trace_append, run_drawn recent on more, run_drawn recent on more, trace_cons, trace_cons, trace_nil,
      trace_nil] at same
    have last := (List.cons.inj (List.append_inj' same (List.length_singleton.trans List.length_singleton.symm)).2).1
    rw [present, present, presented_evicted charged (by omega) (by omega), presented_kept charged] at last
    have back : (config.burstSize : ℚ) = _ := Option.some.inj last
    linarith
  · intro fits t₀ requests ordered
    exact (trace_eq_timed (Alike.step fits) ordered
      ⟨sound_new config t₀, sound_new config t₀, rfl, rfl, rfl, fun _ => rfl⟩).1

end ServiceMesh.RateLimit
