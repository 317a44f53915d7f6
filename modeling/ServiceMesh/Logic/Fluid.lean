import Mathlib.Algebra.Order.Field.Basic
import Mathlib.Tactic.Ring
import Mathlib.Tactic.Linarith

/-!
# A level that rises at a constant rate up to a cap

`fill cap rate x dt` is the level `x` after `dt` units of time at `rate`, cut off at `cap`.
Filling twice is filling once for the whole time (`fill_fill`), so a level that is brought up
to date only when somebody looks at it is the level that rises all the time; and a number
is below the filled level exactly when it is below both bounds (`le_fill_iff`), which turns a
chain of capped refills into one linear bound for each link.
-/

namespace Fluid

variable {𝕜 : Type*} [Field 𝕜] [LinearOrder 𝕜] [IsStrictOrderedRing 𝕜]
variable {cap rate x y a b dt : 𝕜}

/-- The level `x` after `dt`, capped. -/
def fill (cap rate x dt : 𝕜) : 𝕜 := min (x + dt * rate) cap

omit [IsStrictOrderedRing 𝕜] in
theorem le_fill_iff : y ≤ fill cap rate x dt ↔ y ≤ x + dt * rate ∧ y ≤ cap := le_min_iff

omit [IsStrictOrderedRing 𝕜] in
theorem fill_le_cap : fill cap rate x dt ≤ cap := min_le_right _ _

omit [IsStrictOrderedRing 𝕜] in
theorem fill_le_add : fill cap rate x dt ≤ x + dt * rate := min_le_left _ _

omit [IsStrictOrderedRing 𝕜] in
theorem fill_zero (below : x ≤ cap) : fill cap rate x 0 = x := by
  simp [fill, below]

theorem le_fill (below : x ≤ cap) (rising : 0 ≤ rate) (forward : 0 ≤ dt) : x ≤ fill cap rate x dt := by
  have gain := mul_nonneg forward rising
  exact le_fill_iff.mpr ⟨by linarith, below⟩

/-- A higher level stays higher. -/
theorem fill_mono (le : x ≤ y) : fill cap rate x dt ≤ fill cap rate y dt := by
  refine le_fill_iff.mpr ⟨?_, fill_le_cap⟩
  have bound : fill cap rate x dt ≤ x + dt * rate := fill_le_add
  linarith

/-- **Filling is lazy**: twice in a row is once for the sum. -/
theorem fill_fill (rising : 0 ≤ rate) (forward : 0 ≤ b) :
    fill cap rate (fill cap rate x a) b = fill cap rate x (a + b) := by
  have gain := mul_nonneg forward rising
  apply le_antisymm
  · have inner : fill cap rate x a ≤ x + a * rate := fill_le_add
    refine le_fill_iff.mpr ⟨?_, fill_le_cap⟩
    calc fill cap rate (fill cap rate x a) b ≤ fill cap rate x a + b * rate := fill_le_add
      _ ≤ x + a * rate + b * rate := by linarith
      _ = x + (a + b) * rate := by ring
  · have below : fill cap rate x (a + b) ≤ x + (a + b) * rate := fill_le_add
    have capped : fill cap rate x (a + b) ≤ cap := fill_le_cap
    refine le_fill_iff.mpr ⟨?_, capped⟩
    rcases le_total (x + a * rate) cap with low | high
    · have inner : fill cap rate x a = x + a * rate := min_eq_left low
      linarith
    · have inner : fill cap rate x a = cap := min_eq_right high
      linarith

end Fluid
