import ServiceMesh.Logic.Fluid
import ServiceMesh.Logic.Rounding
import Mathlib.Data.Rat.Cast.Order
import Mathlib.Data.Rat.Floor

/-!
# The token bucket (`ratelimit.rs`)

`TokenBucket` with its `f64` fields as exact rationals. Clock readings and `Duration`s are in
nanoseconds, so `as_secs_f64` divides by `10 ^ 9`, `from_secs_f64` rounds to a whole number of them and
`duration_since` (zero for an earlier time) is subtraction on `Nat`. `balance` is the level the bucket would show if it were
refilled now; every operation is a fact about balances.
-/

namespace ServiceMesh.RateLimit

/-- `Duration::as_secs_f64` of a number of nanoseconds. -/
def secs (ns : Nat) : ℚ := ns / 10 ^ 9

theorem secs_nonneg (ns : Nat) : 0 ≤ secs ns := by
  unfold secs
  positivity

@[simp] theorem secs_zero : secs 0 = 0 := by simp [secs]

theorem secs_mono {a b : Nat} (le : a ≤ b) : secs a ≤ secs b := by
  have cast : (a : ℚ) ≤ b := by exact_mod_cast le
  unfold secs
  gcongr

/-- Time passed over two stretches is the time passed over both. -/
theorem secs_add {a b c : Nat} (first : a ≤ b) (second : b ≤ c) : secs (b - a) + secs (c - b) = secs (c - a) := by
  unfold secs
  rw [Nat.cast_sub first, Nat.cast_sub second, Nat.cast_sub (first.trans second)]
  ring

/-- The number of nanoseconds nearest to a number of seconds. -/
def nanos (x : ℚ) : Nat := Rounding.roundTiesEven (x * 10 ^ 9)

@[simp] theorem secs_second : secs (10 ^ 9) = 1 := by norm_num [secs]

/-- A second at most is rounded to a second at most. -/
theorem nanos_le_second {x : ℚ} (forward : 0 ≤ x) (atMost : x ≤ 1) : nanos x ≤ 10 ^ 9 := by
  have scaled : x * 10 ^ 9 ≤ (10 ^ 9 : Nat) := by
    push_cast
    linarith
  exact Rounding.roundTiesEven_le (by positivity) scaled

structure TokenBucket where
  tokens : ℚ
  capacity : ℚ
  refillRate : ℚ
  lastUpdate : Nat
deriving Repr, DecidableEq

/-- `Duration::from_secs_f64`, to the nearest nanosecond: it panics on a negative number and past `Duration::MAX`. -/
def fromSecsF64 (x : ℚ) : Option Nat :=
  if 0 ≤ x ∧ nanos x < 2 ^ 64 * 10 ^ 9 then some (nanos x) else none

namespace TokenBucket

def new (capacity refillRate : ℚ) (now : Nat) : TokenBucket :=
  { tokens := capacity, capacity, refillRate, lastUpdate := now }

def refill (now : Nat) (b : TokenBucket) : TokenBucket :=
  let elapsed := secs (now - b.lastUpdate)
  { b with tokens := min (b.tokens + elapsed * b.refillRate) b.capacity, lastUpdate := now }

def tryConsume (now : Nat) (b : TokenBucket) : Bool × TokenBucket :=
  let b := b.refill now
  if b.tokens ≥ 1 then (true, { b with tokens := b.tokens - 1 }) else (false, b)

/-- `wait_time`; `none` is a panic (`needed / 0.0` is infinite, and `from_secs_f64` refuses it). -/
def waitTime (b : TokenBucket) : Option Nat :=
  if b.tokens ≥ 1 then some 0
  else if b.refillRate = 0 then none
  else fromSecsF64 ((1 - b.tokens) / b.refillRate)

/-- The tokens the bucket would hold if it were refilled at `now`. -/
def balance (now : Nat) (b : TokenBucket) : ℚ :=
  Fluid.fill b.capacity b.refillRate b.tokens (secs (now - b.lastUpdate))

/-- A bucket that the code can build and reach: capacity and rate come from `u64`s, and the level
is between empty and full. -/
structure Wf (b : TokenBucket) : Prop where
  rising : 0 ≤ b.refillRate
  nonneg : 0 ≤ b.tokens
  below : b.tokens ≤ b.capacity

section
variable {b : TokenBucket} {now later : Nat}

@[simp] theorem refill_tokens : (b.refill now).tokens = b.balance now := rfl

@[simp] theorem refill_capacity : (b.refill now).capacity = b.capacity := rfl

@[simp] theorem refill_refillRate : (b.refill now).refillRate = b.refillRate := rfl

@[simp] theorem refill_lastUpdate : (b.refill now).lastUpdate = now := rfl

/-- The two outcomes of `try_consume`, told by the balance. -/
theorem tryConsume_cases (now : Nat) (b : TokenBucket) :
    (1 ≤ b.balance now ∧ b.tryConsume now = (true, { b.refill now with tokens := b.balance now - 1 })) ∨
    (b.balance now < 1 ∧ b.tryConsume now = (false, b.refill now)) := by
  by_cases enough : 1 ≤ b.balance now
  · exact .inl ⟨enough, if_pos enough⟩
  · exact .inr ⟨not_le.mp enough, if_neg enough⟩

theorem tryConsume_eq_true_iff : (b.tryConsume now).1 = true ↔ 1 ≤ b.balance now := by
  rcases tryConsume_cases now b with ⟨enough, eq⟩ | ⟨short, eq⟩
  · simp [eq, enough]
  · simp [eq, not_le.mpr short]

@[simp] theorem tryConsume_capacity : (b.tryConsume now).2.capacity = b.capacity := by
  rcases tryConsume_cases now b with ⟨-, eq⟩ | ⟨-, eq⟩ <;> simp [eq]

@[simp] theorem tryConsume_refillRate : (b.tryConsume now).2.refillRate = b.refillRate := by
  rcases tryConsume_cases now b with ⟨-, eq⟩ | ⟨-, eq⟩ <;> simp [eq]

@[simp] theorem tryConsume_lastUpdate : (b.tryConsume now).2.lastUpdate = now := by
  rcases tryConsume_cases now b with ⟨-, eq⟩ | ⟨-, eq⟩ <;> simp [eq]

/-- `try_consume` takes one token off the balance when it succeeds and none when it fails. -/
theorem tryConsume_tokens : (b.tryConsume now).2.tokens = b.balance now - (b.tryConsume now).1.toNat := by
  rcases tryConsume_cases now b with ⟨-, eq⟩ | ⟨-, eq⟩ <;> simp [eq]

theorem balance_le_capacity : b.balance now ≤ b.capacity := Fluid.fill_le_cap

theorem Wf.new {capacity rate : ℚ} (room : 0 ≤ capacity) (rising : 0 ≤ rate) (now : Nat) :
    Wf (TokenBucket.new capacity rate now) := ⟨rising, room, le_refl _⟩

theorem Wf.le_balance (wf : Wf b) (now : Nat) : b.tokens ≤ b.balance now :=
  Fluid.le_fill wf.below wf.rising (secs_nonneg _)

theorem Wf.tryConsume (wf : Wf b) (now : Nat) : Wf (b.tryConsume now).2 := by
  have level := wf.nonneg.trans (wf.le_balance now)
  have capped : b.balance now ≤ b.capacity := balance_le_capacity
  rcases tryConsume_cases now b with ⟨enough, eq⟩ | ⟨-, eq⟩
  · rw [eq]
    refine ⟨wf.rising, ?_, ?_⟩
    · change 0 ≤ b.balance now - 1
      linarith
    · change b.balance now - 1 ≤ b.capacity
      linarith
  · rw [eq]
    exact ⟨wf.rising, level, capped⟩

/-- The balance of a refilled bucket is the balance it would have had. -/
theorem Wf.balance_fill (wf : Wf b) (past : b.lastUpdate ≤ now) (ordered : now ≤ later) :
    Fluid.fill b.capacity b.refillRate (b.balance now) (secs (later - now)) = b.balance later := by
  unfold balance
  rw [Fluid.fill_fill wf.rising (secs_nonneg _), secs_add past ordered]

/-- A bucket just consumed from shows its level. -/
theorem Wf.balance_tryConsume (wf : Wf b) (now : Nat) :
    (b.tryConsume now).2.balance now = b.balance now - (b.tryConsume now).1.toNat := by
  have next := wf.tryConsume now
  unfold balance
  rw [tryConsume_lastUpdate, Nat.sub_self, secs_zero, Fluid.fill_zero next.below, tryConsume_tokens]
  rfl

/-- A full bucket stays full. -/
theorem balance_new {capacity rate : ℚ} (rising : 0 ≤ rate) (created now : Nat) :
    (TokenBucket.new capacity rate created).balance now = capacity := by
  apply le_antisymm balance_le_capacity
  exact Fluid.le_fill (le_refl _) rising (secs_nonneg _)

end

end TokenBucket

end ServiceMesh.RateLimit
