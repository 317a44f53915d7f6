import ServiceMesh.Logic.Pool
import Mathlib.Algebra.Group.Basic
import Mathlib.Algebra.BigOperators.Group.List.Basic
import Mathlib.Tactic.Abel
import Mathlib.Data.Int.Cast.Lemmas

/-!
# What calls take from a shared resource

A `level` measures some resource of the shared state at a time. What a call takes is the sum of
the drops of the level over its own steps; the resource may also change by itself as the clock
moves, and that is nobody's doing. If every step is paid for by its control state (`Priced`),
then in every schedule a call has taken exactly what the price of its present state says, and all
calls together have taken the prices of all states.
-/

namespace Conc

variable {σ μ κ ρ A : Type*} [AddCommGroup A]

namespace Object

variable (O : Object σ μ κ ρ) (level : Nat → σ → A)

/-- The drop of the level in one label, if it is a step of a call in `who`. -/
def drop (who : Nat → Bool) (c : Pool σ κ ρ) : Label μ → A
  | .step i => if who i then level c.clock c.shared - level c.clock (O.exec c (.step i)).shared else 0
  | .call _ => 0
  | .tick _ => 0

/-- What the calls in `who` take over a schedule. -/
def taken (who : Nat → Bool) : Pool σ κ ρ → List (Label μ) → A
  | _, [] => 0
  | c, l :: ls => O.drop level who c l + taken who (O.exec c l) ls

variable {O level}

/-- Accounts that every label settles are settled after every schedule. -/
theorem taken_settled (account : Pool σ κ ρ → A) {I : Pool σ κ ρ → Prop} (keep : ∀ c l, I c → I (O.exec c l))
    {who : Nat → Bool} (settled : ∀ c l, I c → O.drop level who c l = account (O.exec c l) - account c)
    {c : Pool σ κ ρ} (start : I c) (ls : List (Label μ)) :
    O.taken level who c ls = account (O.run c ls) - account c := by
  induction ls generalizing c with
  | nil => rw [taken, run_nil, sub_self]
  | cons l ls ih =>
    rw [taken, settled c l start, ih (keep c l start), run_cons]
    abel

end Object

/-- The price of a control state: nothing at the start, and each step costs what it takes. -/
structure Priced (O : Object σ μ κ ρ) (level : Nat → σ → A) (I : Pool σ κ ρ → Prop) (price : Status κ ρ → A) :
    Prop where
  keep : ∀ c l, I c → I (O.exec c l)
  start : ∀ m, price (.running (O.start m)) = 0
  step : ∀ (c : Pool σ κ ρ) (i : Nat) k, I c → c.calls[i]? = some (Status.running k) →
    level c.clock c.shared - level c.clock (O.step c.clock c.shared k).1 =
      price (O.step c.clock c.shared k).2 - price (.running k)

namespace Priced

variable {O : Object σ μ κ ρ} {level : Nat → σ → A} {I : Pool σ κ ρ → Prop} {price : Status κ ρ → A}

/-- **One call** has taken the price of its present state. -/
theorem taken_by (P : Priced O level I price) {c : Pool σ κ ρ} (start : I c) (i : Nat) (ls : List (Label μ)) :
    O.taken level (· == i) c ls = ((O.run c ls).calls[i]?).elim 0 price - (c.calls[i]?).elim 0 price := by
  refine Object.taken_settled (fun c => (c.calls[i]?).elim 0 price) P.keep ?_ start ls
  intro c l inv
  cases l with
  | tick d => exact (sub_self _).symm
  | call m =>
    have added : ((O.exec c (.call m)).calls[i]?).elim 0 price = (c.calls[i]?).elim 0 price := by
      rw [Object.exec_call, List.getElem?_append]
      by_cases old : i < c.calls.length
      · rw [if_pos old]
      · rw [if_neg old, List.getElem?_singleton, List.getElem?_eq_none (not_lt.mp old)]
        split
        · exact P.start m
        · rfl
    exact (sub_eq_zero_of_eq added).symm
  | step j =>
    rcases Object.exec_step_cases O c j with ⟨k, running⟩ | idle
    · by_cases mine : j = i
      · subst mine
        have bound := (List.getElem?_eq_some_iff.mp running).1
        simp only [Object.drop, beq_self_eq_true, if_true, Object.exec_running running, running,
          List.getElem?_set_self bound, Option.elim_some]
        exact P.step c j k inv running
      · simp [Object.drop, mine, Object.exec_running running, List.getElem?_set_ne mine]
    · simp [Object.drop, idle]

/-- **All calls** together have taken one unit for each call that has paid. -/
theorem taken_all {A : Type*} [AddCommGroupWithOne A] {level : Nat → σ → A} {paid : Status κ ρ → Bool}
    (P : Priced O level I fun st => ((paid st).toNat : A)) {c : Pool σ κ ρ} (start : I c) (ls : List (Label μ)) :
    O.taken level (fun _ => true) c ls = ((O.run c ls).count paid : A) - c.count paid := by
  refine Object.taken_settled (fun c => (c.count paid : A)) P.keep ?_ start ls
  intro c l inv
  cases l with
  | tick d => exact (sub_self _).symm
  | call m =>
    have free := P.start m
    simp only [Object.drop, count_call, Nat.cast_add, free, add_zero, sub_self]
  | step j =>
    rcases Object.exec_step_cases O c j with ⟨k, running⟩ | idle
    · have cost := P.step c j k inv running
      have moves : ((O.exec c (.step j)).count paid : A) + (paid (.running k)).toNat =
          c.count paid + (paid (O.step c.clock c.shared k).2).toNat := by
        exact_mod_cast congrArg (Nat.cast (R := A)) (count_step paid running)
      simp only [Object.drop, if_true]
      rw [eq_sub_of_add_eq moves, Object.shared_exec running, cost]
      abel
    · simp [Object.drop, idle]

/-- **The books balance**: where the clock leaves the level alone, what is left and what all calls have taken make up what
was there. -/
theorem balance (P : Priced O level I price) (still : ∀ t t' s, level t s = level t' s) {c : Pool σ κ ρ} (start : I c)
    (ls : List (Label μ)) :
    level (O.run c ls).clock (O.run c ls).shared + ((O.run c ls).calls.map price).sum =
      level c.clock c.shared + (c.calls.map price).sum := by
  have paid : O.taken level (fun _ => true) c ls = ((O.run c ls).calls.map price).sum - (c.calls.map price).sum := by
    refine Object.taken_settled (fun c => (c.calls.map price).sum) P.keep ?_ start ls
    intro c l inv
    cases l with
    | tick d => exact (sub_self _).symm
    | call m => simp [Object.drop, P.start m]
    | step j =>
      rcases Object.exec_step_cases O c j with ⟨k, running⟩ | idle
      · obtain ⟨bound, value⟩ := List.getElem?_eq_some_iff.mp running
        have cost := P.step c j k inv running
        simp only [Object.drop, if_true, Object.exec_running running, List.map_set]
        rw [List.sum_set', dif_pos (by rwa [List.length_map]), List.getElem_map, value, cost]
        abel
      · simp [Object.drop, idle]
  have spent : O.taken level (fun _ => true) c ls =
      -level (O.run c ls).clock (O.run c ls).shared - -level c.clock c.shared := by
    refine Object.taken_settled (fun c => -level c.clock c.shared) P.keep ?_ start ls
    intro c l inv
    cases l with
    | tick d =>
      have same : level (c.clock + d) c.shared = level c.clock c.shared := still _ _ _
      simp only [Object.drop, Object.exec_tick, same, sub_self]
    | call m => simp [Object.drop]
    | step j =>
      have same : level c.clock (O.exec c (.step j)).shared = level (O.exec c (.step j)).clock (O.exec c (.step j)).shared :=
        still _ _ _
      simp only [Object.drop, if_true, same]
      abel
  rw [spent] at paid
  have both := eq_add_of_sub_eq paid
  rw [neg_eq_iff_add_eq_zero] at both
  rw [← sub_eq_zero, ← both]
  abel

end Priced

end Conc
