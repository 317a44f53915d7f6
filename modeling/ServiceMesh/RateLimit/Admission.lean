import ServiceMesh.RateLimit.Bucket
import ServiceMesh.Logic.Transducer

/-!
# The admission law of the token bucket

One running count with a cap at every refill, against a law about all windows of the history
at once. `le_balance_iff` is the min-plus invariant that relates them: a number fits under the
balance after a run of calls exactly when, from every point of the run, it fits under the line
that starts there full. A call is admitted when 1 fits.
-/

namespace ServiceMesh.RateLimit

open Transducer

/-- The answers of `try_consume` at the given times. -/
def answers (b : TokenBucket) (times : List Nat) : List Bool := trace TokenBucket.tryConsume b times

/-- The bucket after calls at the given times. -/
def consumed (b : TokenBucket) (times : List Nat) : TokenBucket := run TokenBucket.tryConsume b times

/-- How many calls at times from `s` to `e` were accepted. -/
def acceptedWithin (times : List Nat) (accepted : List Bool) (s e : Nat) : Nat :=
  (times.zip accepted).countP fun call => s ≤ call.1 ∧ call.1 ≤ e ∧ call.2

/-- How many of the calls `i, …, j - 1` were accepted. -/
def acceptedBetween (accepted : List Bool) (i j : Nat) : Nat := ((accepted.take j).drop i).count true

theorem Wf.consumed {b : TokenBucket} (wf : b.Wf) (times : List Nat) : (consumed b times).Wf :=
  run_invariant (fun now _ h => h.tryConsume now) wf times

theorem consumed_capacity (b : TokenBucket) (times : List Nat) : (consumed b times).capacity = b.capacity :=
  run_invariant (I := fun c : TokenBucket => c.capacity = b.capacity)
    (fun _ _ h => TokenBucket.tryConsume_capacity.trans h) rfl times

theorem count_answers_cons (b : TokenBucket) (u : Nat) (times : List Nat) :
    (answers b (u :: times)).count true = (answers (b.tryConsume u).2 times).count true + (b.tryConsume u).1.toNat := by
  unfold answers
  rw [trace_cons, List.count_cons]
  cases (b.tryConsume u).1 <;> rfl

/-- **The min-plus invariant.** After calls at `times`, a number `x` fits under the balance at `t`
exactly when `x` plus the accepted calls fits under the line from the bucket's own level, and from
each call on under the line that starts there with a full bucket. The last point is `t` itself. -/
theorem le_balance_iff {b : TokenBucket} (wf : b.Wf) {times : List Nat} {t : Nat}
    (ordered : (b.lastUpdate :: times ++ [t]).IsChain (· ≤ ·)) (x : ℚ) :
    x ≤ (consumed b times).balance t ↔
      x + (answers b times).count true ≤ b.tokens + b.refillRate * secs (t - b.lastUpdate) ∧
      ∀ i ≤ times.length,
        x + ((answers b times).drop i).count true ≤ b.capacity + b.refillRate * secs (t - times[i]?.getD t) := by
  induction times generalizing b with
  | nil =>
    simp only [consumed, run_nil, answers, trace_nil, TokenBucket.balance, Fluid.le_fill_iff]
    simp [mul_comm]
  | cons u times ih =>
    obtain ⟨past, rest⟩ := List.isChain_cons_cons.mp ordered
    have late : u ≤ t := rest.rel_cons (by simp)
    have step := ih (wf.tryConsume u) (by rw [TokenBucket.tryConsume_lastUpdate]; exact rest)
    rw [TokenBucket.tryConsume_lastUpdate, TokenBucket.tryConsume_capacity, TokenBucket.tryConsume_refillRate,
      TokenBucket.tryConsume_tokens] at step
    have elapsed := secs_add past late
    have split := count_answers_cons b u times
    have capped : ∀ y, y ≤ b.balance u ↔ y ≤ b.tokens + secs (u - b.lastUpdate) * b.refillRate ∧ y ≤ b.capacity :=
      fun _ => Fluid.le_fill_iff
    change x ≤ (consumed (b.tryConsume u).2 times).balance t ↔ _
    rw [step]
    constructor
    · rintro ⟨level, points⟩
      obtain ⟨line, full⟩ := (capped (x + (answers (b.tryConsume u).2 times).count true + (b.tryConsume u).1.toNat -
        b.refillRate * secs (t - u))).mp (by linarith)
      refine ⟨?_, ?_⟩
      · rw [split, ← elapsed]
        push_cast
        linarith
      · intro i bound
        cases i with
        | zero =>
          rw [List.drop_zero, split]
          simp only [List.getElem?_cons_zero, Option.getD_some]
          push_cast
          linarith
        | succ i => exact points i (by simpa using bound)
    · rintro ⟨line, points⟩
      have full := points 0 (Nat.zero_le _)
      rw [split, ← elapsed] at line
      rw [List.drop_zero, split] at full
      simp only [List.getElem?_cons_zero, Option.getD_some] at full
      push_cast at line full
      refine ⟨?_, fun i bound => points (i + 1) (by simpa using bound)⟩
      have fits := (capped (x + (answers (b.tryConsume u).2 times).count true + (b.tryConsume u).1.toNat -
        b.refillRate * secs (t - u))).mpr ⟨by linarith, by linarith⟩
      linarith

/-! ## One call -/

theorem answers_take (b : TokenBucket) (times : List Nat) (j : Nat) :
    (answers b times).take j = answers b (times.take j) := by
  induction times generalizing b j with
  | nil => simp [answers]
  | cons u times ih =>
    cases j with
    | zero => simp [answers]
    | succ j => exact congrArg _ (ih _ j)

/-- The `j`th answer is that of `try_consume` on the bucket the earlier calls left. -/
theorem answers_get {b : TokenBucket} {times : List Nat} {j t : Nat} (call : times[j]? = some t) :
    (answers b times)[j]? = some ((consumed b (times.take j)).tryConsume t).1 := by
  induction times generalizing b j with
  | nil => cases call
  | cons u times ih =>
    cases j with
    | zero => cases call; rfl
    | succ j => exact ih call

theorem chain_take {t₀ j t : Nat} {times : List Nat} (ordered : (t₀ :: times).IsChain (· ≤ ·))
    (call : times[j]? = some t) : (t₀ :: times.take j ++ [t]).IsChain (· ≤ ·) := by
  obtain ⟨bound, rfl⟩ := List.getElem?_eq_some_iff.mp call
  have whole : t₀ :: times = (t₀ :: times.take j ++ [times[j]]) ++ times.drop (j + 1) := by simp
  rw [whole] at ordered
  exact ordered.left_of_append

/-- A call is accepted exactly when it fits under every line of the history. -/
theorem accepted_iff {b : TokenBucket} (wf : b.Wf) {times : List Nat}
    (ordered : (b.lastUpdate :: times).IsChain (· ≤ ·)) {j t : Nat} (call : times[j]? = some t) :
    (answers b times)[j]? = some true ↔
      (acceptedBetween (answers b times) 0 j + 1 ≤ b.tokens + b.refillRate * secs (t - b.lastUpdate)) ∧
      ∀ i ≤ j, ∀ u, times[i]? = some u →
        acceptedBetween (answers b times) i j + 1 ≤ b.capacity + b.refillRate * secs (t - u) := by
  have bound : j < times.length := (List.getElem?_eq_some_iff.mp call).1
  have length : (times.take j).length = j := by simp; omega
  -- the points of the first `j` calls and of call `j` itself are the calls `0, …, j`
  have point : ∀ i ≤ j, ∀ u, times[i]? = some u → (times.take j)[i]?.getD t = u := by
    intro i le u earlier
    rw [List.getElem?_take]
    split
    · rw [earlier]; rfl
    · have same : i = j := by omega
      subst same
      exact Option.some.inj (call.symm.trans earlier)
  rw [answers_get call, Option.some.injEq, TokenBucket.tryConsume_eq_true_iff,
    le_balance_iff wf (chain_take ordered call), length]
  simp only [acceptedBetween, answers_take, List.drop_zero]
  constructor
  · rintro ⟨line, points⟩
    refine ⟨by linarith, fun i le u earlier => ?_⟩
    have full := points i le
    rw [point i le u earlier] at full
    linarith
  · rintro ⟨line, points⟩
    refine ⟨by linarith, fun i le => ?_⟩
    obtain ⟨u, earlier⟩ : ∃ u, times[i]? = some u := ⟨times[i], List.getElem?_eq_getElem (by omega)⟩
    have full := points i le u earlier
    rw [point i le u earlier]
    linarith

/-! ## Windows -/

/-- The first call adds at most its own answer, and nothing if it is outside the window. -/
theorem acceptedWithin_cons (b : TokenBucket) (u : Nat) (times : List Nat) (s e : Nat) :
    acceptedWithin (u :: times) (answers b (u :: times)) s e =
      acceptedWithin times (answers (b.tryConsume u).2 times) s e +
        (if s ≤ u ∧ u ≤ e then (b.tryConsume u).1.toNat else 0) := by
  unfold acceptedWithin answers
  rw [trace_cons, List.zip_cons_cons, List.countP_cons]
  cases (b.tryConsume u).1 <;> simp

/-- Nothing falls within a window that ended before the first call. -/
theorem acceptedWithin_late {u : Nat} {times : List Nat} (ordered : (u :: times).IsChain (· ≤ ·))
    {accepted : List Bool} {s e : Nat} (late : e < u) : acceptedWithin times accepted s e = 0 := by
  unfold acceptedWithin
  apply List.countP_eq_zero.mpr
  intro call member
  have after : u ≤ call.1 := ordered.rel_cons (List.of_mem_zip member).1
  simp only [decide_eq_true_eq, not_and]
  omega

/-- From the bucket's level on, calls up to time `e` spend at most the level and what flows in. -/
theorem acceptedWithin_le_tokens {b : TokenBucket} (wf : b.Wf) {times : List Nat}
    (ordered : (b.lastUpdate :: times).IsChain (· ≤ ·)) (s : Nat) {e : Nat} (future : b.lastUpdate ≤ e) :
    acceptedWithin times (answers b times) s e ≤ b.tokens + b.refillRate * secs (e - b.lastUpdate) := by
  induction times generalizing b with
  | nil =>
    have inflow := mul_nonneg wf.rising (secs_nonneg (e - b.lastUpdate))
    have level := wf.nonneg
    simp only [acceptedWithin, List.zip_nil_left, List.countP_nil, Nat.cast_zero]
    linarith
  | cons u times ih =>
    obtain ⟨past, rest⟩ := List.isChain_cons_cons.mp ordered
    rw [acceptedWithin_cons]
    by_cases late : e < u
    · have inflow := mul_nonneg wf.rising (secs_nonneg (e - b.lastUpdate))
      have level := wf.nonneg
      rw [acceptedWithin_late rest late, if_neg (by omega), Nat.zero_add, Nat.cast_zero]
      linarith
    · have later := ih (wf.tryConsume u) (by rw [TokenBucket.tryConsume_lastUpdate]; exact rest)
        (by rw [TokenBucket.tryConsume_lastUpdate]; omega)
      rw [TokenBucket.tryConsume_tokens, TokenBucket.tryConsume_refillRate, TokenBucket.tryConsume_lastUpdate] at later
      have elapsed := secs_add past (Nat.le_of_not_lt late)
      have line : b.balance u ≤ b.tokens + secs (u - b.lastUpdate) * b.refillRate := Fluid.fill_le_add
      have own : (if s ≤ u ∧ u ≤ e then (b.tryConsume u).1.toNat else 0) ≤ (b.tryConsume u).1.toNat := by
        split <;> omega
      have own' : ((if s ≤ u ∧ u ≤ e then (b.tryConsume u).1.toNat else 0 : ℕ) : ℚ) ≤ (b.tryConsume u).1.toNat := by
        exact_mod_cast own
      rw [← elapsed]
      push_cast at own' ⊢
      linarith

/-- **Windows.** In any stretch of length `T` at most the capacity and the inflow of `T` are accepted. -/
theorem acceptedWithin_le {b : TokenBucket} (wf : b.Wf) {times : List Nat}
    (ordered : (b.lastUpdate :: times).IsChain (· ≤ ·)) (s T : Nat) :
    acceptedWithin times (answers b times) s (s + T) ≤ b.capacity + b.refillRate * secs T := by
  have inflow := mul_nonneg wf.rising (secs_nonneg T)
  have room := wf.nonneg.trans wf.below
  induction times generalizing b with
  | nil =>
    simp only [acceptedWithin, List.zip_nil_left, List.countP_nil, Nat.cast_zero]
    linarith
  | cons u times ih =>
    obtain ⟨past, rest⟩ := List.isChain_cons_cons.mp ordered
    have rest' : ((b.tryConsume u).2.lastUpdate :: times).IsChain (· ≤ ·) := by
      rw [TokenBucket.tryConsume_lastUpdate]; exact rest
    rw [acceptedWithin_cons]
    by_cases early : u < s
    · have later := ih (wf.tryConsume u) rest' (by simpa using inflow) (by simpa using room)
      rw [TokenBucket.tryConsume_capacity, TokenBucket.tryConsume_refillRate] at later
      rw [if_neg (by omega), Nat.add_zero]
      exact later
    · by_cases late : s + T < u
      · rw [acceptedWithin_late rest late, if_neg (by omega), Nat.zero_add, Nat.cast_zero]
        linarith
      · have later := acceptedWithin_le_tokens (wf.tryConsume u) rest' s
          (e := s + T) (by rw [TokenBucket.tryConsume_lastUpdate]; omega)
        rw [TokenBucket.tryConsume_tokens, TokenBucket.tryConsume_refillRate, TokenBucket.tryConsume_lastUpdate] at later
        have capped : b.balance u ≤ b.capacity := TokenBucket.balance_le_capacity
        have shorter := mul_le_mul_of_nonneg_left (secs_mono (show s + T - u ≤ T by omega)) wf.rising
        rw [if_pos ⟨by omega, by omega⟩]
        push_cast
        linarith

/-- **The admission law.** For a bucket created at `t₀` and any calls at non-decreasing times: the
level stays between empty and full; the `j`th call is accepted exactly when, for the creation and
for every call `i ≤ j`, the calls accepted from there up to `j` and one more fit under the line
from there; hence every window of length `T` sees at most `capacity + rate * T` acceptances. -/
theorem admission_law (capacity rate : ℚ) (room : 0 ≤ capacity) (rising : 0 ≤ rate) (t₀ : Nat) (times : List Nat)
    (ordered : (t₀ :: times).IsChain (· ≤ ·)) :
    (∀ j, 0 ≤ (consumed (.new capacity rate t₀) (times.take j)).tokens ∧
      (consumed (.new capacity rate t₀) (times.take j)).tokens ≤ capacity) ∧
    (∀ j t, times[j]? = some t →
      ((answers (.new capacity rate t₀) times)[j]? = some true ↔
        (acceptedBetween (answers (.new capacity rate t₀) times) 0 j + 1 ≤ capacity + rate * secs (t - t₀)) ∧
        ∀ i ≤ j, ∀ u, times[i]? = some u →
          acceptedBetween (answers (.new capacity rate t₀) times) i j + 1 ≤ capacity + rate * secs (t - u))) ∧
    (∀ s T, acceptedWithin times (answers (.new capacity rate t₀) times) s (s + T) ≤ capacity + rate * secs T) := by
  have wf := TokenBucket.Wf.new room rising t₀
  refine ⟨fun j => ?_, fun j t call => accepted_iff wf ordered call, fun s T => acceptedWithin_le wf ordered s T⟩
  have reached := Wf.consumed wf (times.take j)
  refine ⟨reached.nonneg, ?_⟩
  have same := consumed_capacity (.new capacity rate t₀) (times.take j)
  exact reached.below.trans_eq same

/-- Capacity 2, one token per second, calls at 0 s, 0 s, 0 s and 1 s. -/
theorem admission_law_burst :
    answers (.new 2 1 0) [0, 0, 0, 10 ^ 9] = [true, true, false, true] ∧
    (acceptedWithin [0, 0, 0, 10 ^ 9] (answers (.new 2 1 0) [0, 0, 0, 10 ^ 9]) 0 (0 + 10 ^ 9) : ℚ) ≤
      2 + 1 * secs (10 ^ 9) :=
  ⟨by decide +kernel, (admission_law 2 1 (by norm_num) (by norm_num) 0 [0, 0, 0, 10 ^ 9] (by decide)).2.2 0 (10 ^ 9)⟩

end ServiceMesh.RateLimit
