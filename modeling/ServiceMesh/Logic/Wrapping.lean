import Mathlib.Data.UInt

/-!
# Wrapping 64-bit counters

An atomic counter that is only added to and subtracted from equals, modulo `2 ^ 64`, the
number of increments less the number of decrements. `Wraps x n` says so; while the true
number fits, the counter is that number (`Wraps.exact`).
-/

/-- The counter `x` holds `n` modulo `2 ^ 64`. -/
def Wraps (x : UInt64) (n : Nat) : Prop := x.toNat = n % 2 ^ 64

/-- A counter and something it may count, in one step: nothing changes, the counter goes up as the thing becomes
counted, or down as it stops being counted. -/
def Moves (x x' : UInt64) (before after : Bool) : Prop :=
  (x' = x ∧ after = before) ∨ (x' = x + 1 ∧ before = false ∧ after = true) ∨
    (x' = x - 1 ∧ before = true ∧ after = false)

namespace Wraps

variable {x : UInt64} {n : Nat}

theorem zero : Wraps 0 0 := rfl

theorem add_one (h : Wraps x n) : Wraps (x + 1) (n + 1) := by
  unfold Wraps at *
  rw [UInt64.toNat_add, UInt64.toNat_one, h]
  omega

theorem sub_one (h : Wraps x (n + 1)) : Wraps (x - 1) n := by
  unfold Wraps at *
  rw [UInt64.toNat_sub, UInt64.toNat_one, h]
  omega

/-- The counter keeps up with the number of things counted. -/
theorem move {x' : UInt64} {n' : Nat} {before after : Bool} (h : Wraps x n)
    (moves : n' + before.toNat = n + after.toNat) (effect : Moves x x' before after) : Wraps x' n' := by
  rcases effect with ⟨rfl, rfl⟩ | ⟨rfl, rfl, rfl⟩ | ⟨rfl, rfl, rfl⟩
  · have same : n' = n := by omega
    rw [same]
    exact h
  · have up : n' = n + 1 := moves
    rw [up]
    exact h.add_one
  · have down : n = n' + 1 := moves.symm
    rw [down] at h
    exact h.sub_one

theorem exact (h : Wraps x n) (fits : n < 2 ^ 64) : x.toNat = n := by
  unfold Wraps at h
  omega

end Wraps
