import ServiceMesh.RateLimit.Tasks

/-!
# The subtraction of the cleanup

`maybe_cleanup` reads the size of the map twice and subtracts the second from the first. The lock of `last_cleanup` is
released before the first reading, so other checks may put new clients into the map in between: two checks are enough
for a difference below zero (`subtraction_underflows`). The two moments at which this comes about are the insertion of a
client and the end of a `retain`; `subtraction_safe_iff` says what has to hold at each of them.
-/

namespace ServiceMesh.RateLimit

open Conc

variable {Ip : Type} [DecidableEq Ip]

/-- What a check about to read the size of the map again has counted before. -/
def counted : Status (Pc Ip) Reply → Option Nat
  | .running (.countAfter _ initialCount) => some initialCount
  | _ => none

/-- A check is about to subtract from `initialCount`. -/
def Subtracts (initialCount : Nat) (c : Checks Ip) : Prop :=
  ∃ (i : Nat) (st : Status (Pc Ip) Reply), c.calls[i]? = some st ∧ counted st = some initialCount

/-- No check that is about to subtract has counted less than the map holds. -/
def SubtractionSafe (c : Checks Ip) : Prop :=
  ∀ initialCount, Subtracts initialCount c → c.shared.clientBuckets.length ≤ initialCount

/-- The entries that a `retain` at this moment leaves in the map. -/
def unexpired (c : Checks Ip) : List (Ip × Nat) :=
  c.shared.clientBuckets.filter fun client => !(c.shared.entries client.2).isExpired c.clock c.shared.config.clientTtl

/-- What a step must meet: a `retain` leaves no more entries than its check has counted, and a client is put into the map
only if every check about to subtract has counted more entries than there are. -/
def Pc.leavesRoom (c : Checks Ip) : Pc Ip → Prop
  | .retain _ initialCount => (unexpired c).length ≤ initialCount
  | .lookup ip =>
    c.shared.clientBuckets.lookup ip = none →
      ∀ initialCount, Subtracts initialCount c → c.shared.clientBuckets.length < initialCount
  | _ => True

/-- The label takes no step, or one that meets this. -/
def LeavesRoom (c : Checks Ip) : Label (Option Ip) → Prop
  | .step i => ∀ k, c.calls[i]? = some (.running k) → k.leavesRoom c
  | _ => True

/-- The other steps leave the map as it is, and make no check ready to subtract. -/
theorem step_cases (overflowChecks : Bool) (now : Nat) (l : RateLimiter Ip) (k : Pc Ip) :
    (∃ ip initialCount, k = .retain ip initialCount) ∨ (∃ ip, k = .lookup ip) ∨
      counted (k.step overflowChecks now l).2 = none ∧
        (k.step overflowChecks now l).1.clientBuckets = l.clientBuckets ∧ ∀ c, k.leavesRoom c := by
  cases k with
  | retain ip initialCount => exact .inl ⟨ip, initialCount, rfl⟩
  | lookup ip => exact .inr (.inl ⟨ip, rfl⟩)
  | consumeGlobal clientIp =>
    refine .inr (.inr ⟨?_, rfl, fun _ => trivial⟩)
    simp only [Pc.step]
    split
    · rcases Pc.granted_cases l.config clientIp with granted | ⟨ip, granted⟩ <;> rw [granted] <;> rfl
    · rfl
  | cleanup ip =>
    refine .inr (.inr ?_)
    simp only [Pc.step]
    split <;> exact ⟨rfl, rfl, fun _ => trivial⟩
  | countAfter ip initialCount =>
    refine .inr (.inr ⟨?_, rfl, fun _ => trivial⟩)
    simp only [Pc.step]
    split <;> rfl
  | consumeClient place =>
    refine .inr (.inr ⟨?_, rfl, fun _ => trivial⟩)
    simp only [Pc.step]
    split <;> rfl
  | waitGlobal | countBefore ip | readClock place | touch place t | waitClient place =>
    exact .inr (.inr ⟨rfl, rfl, fun _ => trivial⟩)

section
variable {overflowChecks : Bool} {c : Checks Ip} {i : Nat} {k : Pc Ip} {initialCount : Nat}

/-- Ready to subtract after a step is whoever was before it, and perhaps the check that took the step. -/
theorem subtracts_of_exec (running : c.calls[i]? = some (.running k))
    (after : Subtracts initialCount ((shared Ip overflowChecks).exec c (.step i))) :
    Subtracts initialCount c ∨ counted (k.step overflowChecks c.clock c.shared).2 = some initialCount := by
  obtain ⟨j, st, at_j, count⟩ := after
  rcases Object.status_of_step running at_j with ⟨-, rfl⟩ | ⟨-, before⟩
  · exact .inr count
  · exact .inl ⟨j, st, before, count⟩

/-- A check that is not yet ready to subtract leaves the others ready. -/
theorem Subtracts.exec (h : Subtracts initialCount c) (running : c.calls[i]? = some (.running k))
    (notYet : counted (.running k) = none) : Subtracts initialCount ((shared Ip overflowChecks).exec c (.step i)) := by
  obtain ⟨j, st, at_j, count⟩ := h
  have apart : ¬ (Label.step i : Label (Option Ip)).isStep j = true := by
    intro mine
    cases Label.eq_step_of_isStep mine
    rw [running] at at_j
    cases at_j
    rw [notYet] at count
    cases count
  exact ⟨j, st, Object.status_of_not_step at_j apart, count⟩

/-- **A retain** leads to a safe state exactly if it leaves no more entries than were counted. -/
theorem subtractionSafe_retain {ip : Ip} (safe : SubtractionSafe c)
    (running : c.calls[i]? = some (.running (.retain ip initialCount))) :
    SubtractionSafe ((shared Ip overflowChecks).exec c (.step i)) ↔ (unexpired c).length ≤ initialCount := by
  have size : ((shared Ip overflowChecks).exec c (.step i)).shared.clientBuckets.length = (unexpired c).length := by
    rw [Object.shared_exec running]
    rfl
  constructor
  · intro safe'
    rw [← size]
    exact safe' initialCount ⟨i, _, Object.status_exec running, rfl⟩
  · intro room n after
    rw [size]
    rcases subtracts_of_exec running after with before | mine
    · exact (List.length_filter_le _ _).trans (safe n before)
    · cases mine
      exact room

/-- **An insertion** leads to a safe state exactly if every check about to subtract has counted one entry more. -/
theorem subtractionSafe_lookup {ip : Ip} (safe : SubtractionSafe c) (running : c.calls[i]? = some (.running (.lookup ip))) :
    SubtractionSafe ((shared Ip overflowChecks).exec c (.step i)) ↔
      (c.shared.clientBuckets.lookup ip = none →
        ∀ initialCount, Subtracts initialCount c → c.shared.clientBuckets.length < initialCount) := by
  have mapped : ((shared Ip overflowChecks).exec c (.step i)).shared.clientBuckets =
      (c.shared.entry c.clock ip).2.clientBuckets := by
    rw [Object.shared_exec running]
    rfl
  have others : ∀ {n}, Subtracts n ((shared Ip overflowChecks).exec c (.step i)) → Subtracts n c := by
    intro n after
    rcases subtracts_of_exec running after with before | mine
    · exact before
    · cases mine
  cases found : c.shared.clientBuckets.lookup ip with
  | some place =>
    refine iff_of_true ?_ ?_
    · intro n after
      rw [mapped, RateLimiter.entry, found]
      exact safe n (others after)
    · intro unmapped
      cases unmapped
  | none =>
    have size : ((shared Ip overflowChecks).exec c (.step i)).shared.clientBuckets.length =
        c.shared.clientBuckets.length + 1 := by
      rw [mapped, RateLimiter.entry, found]
      rfl
    constructor
    · intro safe' _ n before
      have still := safe' n (before.exec running rfl)
      omega
    · intro room n after
      rw [size]
      exact room rfl n (others after)

/-- **One label** from a safe state leads to a safe state exactly if it leaves room. -/
theorem subtractionSafe_exec (overflowChecks : Bool) (c : Checks Ip) (label : Label (Option Ip)) (safe : SubtractionSafe c) :
    SubtractionSafe ((shared Ip overflowChecks).exec c label) ↔ LeavesRoom c label := by
  cases label with
  | tick d => exact iff_of_true safe trivial
  | call m =>
    refine iff_of_true ?_ trivial
    rintro initialCount ⟨i, st, at_i, count⟩
    rcases Object.status_of_call at_i with before | rfl
    · exact safe initialCount ⟨i, st, before, count⟩
    · cases count
  | step i =>
    by_cases busy : ∃ k, c.calls[i]? = some (.running k)
    · obtain ⟨k, running⟩ := busy
      have mine : LeavesRoom c (.step i) ↔ k.leavesRoom c := by
        refine ⟨fun all => all k running, ?_⟩
        intro room k' running'
        rw [running] at running'
        cases running'
        exact room
      rw [mine]
      rcases step_cases overflowChecks c.clock c.shared k with ⟨ip, initialCount, rfl⟩ | ⟨ip, rfl⟩ | ⟨silent, same, free⟩
      · exact subtractionSafe_retain safe running
      · exact subtractionSafe_lookup safe running
      · refine iff_of_true ?_ (free c)
        intro n after
        rw [Object.shared_exec running]
        rcases subtracts_of_exec running after with before | mine
        · exact (congrArg List.length same).trans_le (safe n before)
        · rw [silent] at mine
          cases mine
    · rw [(Object.exec_step_cases (shared Ip overflowChecks) c i).resolve_left busy]
      exact iff_of_true safe fun k running => absurd ⟨k, running⟩ busy

end

omit [DecidableEq Ip] in
theorem subtractionSafe_fresh (config : RateLimitConfig) (t₀ : Nat) : SubtractionSafe (fresh Ip config t₀) :=
  fun _ _ => Nat.zero_le _

/-- Check 0 has counted no client when check 1 puts one into the map, and check 0's `retain` leaves it there. -/
def grown : List (Label (Option Bool)) :=
  [.call (some true), .call (some false), .tick (60 * 10 ^ 9), .step 0, .step 0, .step 0, .step 1, .step 1, .step 1,
    .step 0]

/-- Check 0 is about to subtract one from zero; with overflow checks it panics. -/
theorem subtraction_underflows :
    ¬ SubtractionSafe ((shared Bool true).run (fresh Bool .default 0) grown) ∧
    ((shared Bool true).run (fresh Bool .default 0) (grown ++ [.step 0])).calls[0]? =
      some (.done (.panicked .PerClient)) := by
  have ready : ((shared Bool true).run (fresh Bool .default 0) grown).calls[0]? = some (.running (.countAfter true 0)) := by
    decide +kernel
  have size : ((shared Bool true).run (fresh Bool .default 0) grown).shared.clientBuckets.length = 1 := by decide +kernel
  refine ⟨?_, by decide +kernel⟩
  intro safe
  have bound := safe 0 ⟨0, _, ready, rfl⟩
  omega

/-- **When the subtraction is safe.** In every interleaving: no state is reached in which a check is about to subtract
more than it counted, exactly if every `retain` leaves no more entries than its check counted, and every client put into the
map finds each check that is about to subtract with a count above the size of the map. -/
theorem subtraction_safe_iff (overflowChecks : Bool) (config : RateLimitConfig) (t₀ : Nat)
    (labels : List (Label (Option Ip))) :
    (∀ ks, ks <+: labels → SubtractionSafe ((shared Ip overflowChecks).run (fresh Ip config t₀) ks)) ↔
      (shared Ip overflowChecks).Every LeavesRoom (fresh Ip config t₀) labels :=
  Object.every_iff_prefixes (subtractionSafe_exec overflowChecks) (subtractionSafe_fresh config t₀) labels

end ServiceMesh.RateLimit
