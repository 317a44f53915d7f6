import ServiceMesh.Logic.Accounts
import Mathlib.Algebra.Order.Ring.Cast
import Mathlib.Tactic.Linarith

/-!
# A resource that is paid for and refilled

Calls take one unit each from a resource whose level rises by itself as the clock moves, up to a cap. However the calls
interleave, units are neither made nor lost on the way: over any stretch of any schedule, what has been taken and what is
left is at most what there was and what the clock brought, and at least what the clock brought as far as there is room
for it (`Refilled.run`). One step of a call only moves a unit from those left to those taken (`stock_step`).
-/

namespace Conc

variable {σ μ κ ρ 𝕜 : Type*} [Field 𝕜] [LinearOrder 𝕜]

/-- A call has taken a unit when it is `paid`; `gain d` is what `d` units of time bring. -/
structure Refilled (O : Object σ μ κ ρ) (level : Nat → σ → 𝕜) (I : Pool σ κ ρ → Prop) (paid : Status κ ρ → Bool)
    (cap : 𝕜) (gain : Nat → 𝕜) : Prop where
  priced : Priced O level I fun st => ((paid st).toNat : 𝕜)
  stays : ∀ t s k, paid (.running k) = true → paid (O.step t s k).2 = true
  gain_nonneg : ∀ d, 0 ≤ gain d
  gain_zero : gain 0 = 0
  gain_add : ∀ a b, gain (a + b) = gain a + gain b
  level_nonneg : ∀ c, I c → 0 ≤ level c.clock c.shared
  refills : ∀ c d, I c → level (c.clock + d) c.shared = min (level c.clock c.shared + gain d) cap

namespace Refilled

variable {O : Object σ μ κ ρ} {level : Nat → σ → 𝕜} {I : Pool σ κ ρ → Prop} {paid : Status κ ρ → Bool} {cap : 𝕜}
  {gain : Nat → 𝕜}

/-- Units taken so far, and units left. -/
def stock (level : Nat → σ → 𝕜) (paid : Status κ ρ → Bool) (c : Pool σ κ ρ) : 𝕜 :=
  c.count paid + level c.clock c.shared

theorem stock_call (R : Refilled O level I paid cap gain) (c : Pool σ κ ρ) (m : μ) :
    stock level paid (O.exec c (.call m)) = stock level paid c := by
  have free : ((paid (.running (O.start m))).toNat : 𝕜) = 0 := R.priced.start m
  unfold stock
  rw [count_call, Nat.cast_add, free, add_zero]
  rfl

theorem stock_tick (R : Refilled O level I paid cap gain) {c : Pool σ κ ρ} (inv : I c) (d : Nat) :
    stock level paid (O.exec c (.tick d)) = c.count paid + min (level c.clock c.shared + gain d) cap :=
  congrArg _ (R.refills c d inv)

/-- What has been taken stays taken. -/
theorem count_le_exec (R : Refilled O level I paid cap gain) (c : Pool σ κ ρ) (l : Label μ) :
    c.count paid ≤ (O.exec c l).count paid := by
  cases l with
  | call m =>
    rw [count_call]
    exact Nat.le_add_right _ _
  | tick d => exact Nat.le_refl _
  | step i =>
    rcases Object.exec_step_cases O c i with ⟨k, running⟩ | idle
    · have moves := count_step (O := O) paid running
      have kept : (paid (.running k)).toNat ≤ (paid (O.step c.clock c.shared k).2).toNat := by
        cases before : paid (.running k) with
        | false => exact Nat.zero_le _
        | true => rw [R.stays c.clock c.shared k before]
      omega
    · rw [idle]

/-- What holds of the stock between the start of a stretch and any point of it. -/
structure Between (level : Nat → σ → 𝕜) (paid : Status κ ρ → Bool) (cap : 𝕜) (gain : Nat → 𝕜) (c c' : Pool σ κ ρ) :
    Prop where
  later : c.clock ≤ c'.clock
  more : c.count paid ≤ c'.count paid
  at_most : stock level paid c' ≤ stock level paid c + gain (c'.clock - c.clock)
  at_least : c.count paid + min (gain (c'.clock - c.clock)) cap ≤ stock level paid c'

variable [IsStrictOrderedRing 𝕜]

/-- **Conservation**: a step of a call moves a unit from those left to those taken, or moves none. -/
theorem stock_step (R : Refilled O level I paid cap gain) {c : Pool σ κ ρ} (inv : I c) {i : Nat} {k : κ}
    (running : c.calls[i]? = some (.running k)) : stock level paid (O.exec c (.step i)) = stock level paid c := by
  have cost := R.priced.step c i k inv running
  have moves : ((O.exec c (.step i)).count paid : 𝕜) + (paid (.running k)).toNat =
      c.count paid + (paid (O.step c.clock c.shared k).2).toNat := by
    exact_mod_cast congrArg (Nat.cast (R := 𝕜)) (count_step paid running)
  unfold stock
  rw [Object.shared_exec running, Object.clock_exec running]
  linarith

/-- Time that passes brings its gain, as far as there is room. -/
theorem Between.tick (R : Refilled O level I paid cap gain) {c c' : Pool σ κ ρ} (inv : I c')
    (h : Between level paid cap gain c c') (d : Nat) : Between level paid cap gain c (O.exec c' (.tick d)) := by
  obtain ⟨later, more, most, least⟩ := h
  have clock : (O.exec c' (.tick d)).clock - c.clock = (c'.clock - c.clock) + d :=
    Nat.sub_add_comm later
  have stocked := R.stock_tick inv d
  have forward := R.gain_nonneg d
  unfold stock at most least
  refine ⟨Nat.le_add_right_of_le later, more, ?_, ?_⟩ <;> rw [stocked, clock, R.gain_add]
  · have filled : min (level c'.clock c'.shared + gain d) cap ≤ level c'.clock c'.shared + gain d := min_le_left _ _
    unfold stock
    linarith
  · rcases le_total (level c'.clock c'.shared + gain d) cap with low | high
    · rw [min_eq_left low]
      have room : min (gain (c'.clock - c.clock) + gain d) cap ≤ min (gain (c'.clock - c.clock)) cap + gain d := by
        rcases le_total (gain (c'.clock - c.clock)) cap with under | above
        · rw [min_eq_left under]
          exact min_le_left _ _
        · rw [min_eq_right above]
          exact (min_le_right _ _).trans (le_add_of_nonneg_right forward)
      linarith
    · rw [min_eq_right high]
      have taken : (c.count paid : 𝕜) ≤ c'.count paid := Nat.cast_le.mpr more
      have full : min (gain (c'.clock - c.clock) + gain d) cap ≤ cap := min_le_right _ _
      linarith

/-- **One label** keeps the stock between its bounds. -/
theorem Between.exec (R : Refilled O level I paid cap gain) {c c' : Pool σ κ ρ} (inv : I c')
    (h : Between level paid cap gain c c') (l : Label μ) : Between level paid cap gain c (O.exec c' l) := by
  have more := h.more.trans (R.count_le_exec c' l)
  cases l with
  | tick d => exact h.tick R inv d
  | call m =>
    have same := R.stock_call c' m
    exact ⟨h.later, more, same.le.trans h.at_most, h.at_least.trans same.ge⟩
  | step i =>
    rcases Object.exec_step_cases O c' i with ⟨k, running⟩ | idle
    · have same := R.stock_step inv running
      have clock : (O.exec c' (.step i)).clock = c'.clock := Object.clock_exec running
      refine ⟨clock ▸ h.later, more, ?_, ?_⟩ <;> rw [same, clock]
      · exact h.at_most
      · exact h.at_least
    · rw [idle]
      exact h

/-- **Every stretch** of every schedule keeps the stock between its bounds. -/
theorem run (R : Refilled O level I paid cap gain) {c : Pool σ κ ρ} (start : I c) (ls : List (Label μ)) :
    Between level paid cap gain c (O.run c ls) := by
  have all : I (O.run c ls) ∧ Between level paid cap gain c (O.run c ls) := by
    refine Object.Every.run (P := fun _ _ => True) (I := fun c' => I c' ∧ Between level paid cap gain c c') ?_ ?_ ?_
      (Object.every_of_forall (fun _ _ => trivial) c ls) ⟨start, ?_⟩
    · exact fun c' d before => ⟨R.priced.keep c' _ before.1, before.2.exec R before.1 _⟩
    · exact fun c' m _ before => ⟨R.priced.keep c' _ before.1, before.2.exec R before.1 _⟩
    · exact fun c' i k _ _ before => ⟨R.priced.keep c' _ before.1, before.2.exec R before.1 _⟩
    · refine ⟨Nat.le_refl _, Nat.le_refl _, ?_, ?_⟩ <;> rw [Nat.sub_self, R.gain_zero]
      · rw [add_zero]
      · have left := R.level_nonneg c start
        have none : min 0 cap ≤ 0 := min_le_left _ _
        unfold stock
        linarith
  exact all.2

end Refilled

end Conc
