import ServiceMesh.Logic.Pool
import Mathlib.Data.List.Basic

/-!
# What has happened

An assertion about a call may speak of the past: of a step that the call has taken earlier in the schedule, in the state
in which it was taken (`Once`). What has happened stays so, whatever comes after; so such an assertion only needs to be
established where a call begins and where it takes a step of its own (`past_of_calls`).
-/

namespace Conc.Object

variable {σ μ κ ρ : Type*} {O : Object σ μ κ ρ} {c : Pool σ κ ρ} {ls : List (Label μ)}

/-- Some label of the schedule was taken in a pool as `P` says. -/
def Once (O : Object σ μ κ ρ) (P : Pool σ κ ρ → Label μ → Prop) (c : Pool σ κ ρ) (ls : List (Label μ)) : Prop :=
  ∃ before l after, ls = before ++ l :: after ∧ P (O.run c before) l

theorem Once.later {P : Pool σ κ ρ → Label μ → Prop} (h : Once O P c ls) (l : Label μ) : Once O P c (ls ++ [l]) := by
  obtain ⟨before, k, after, rfl, holds⟩ := h
  exact ⟨before, k, after ++ [l], by simp, holds⟩

theorem once_last {P : Pool σ κ ρ → Label μ → Prop} {l : Label μ} (holds : P (O.run c ls) l) : Once O P c (ls ++ [l]) :=
  ⟨ls, l, [], rfl, holds⟩

/-- **Assertions about the past.** What every call starts with, and what its own steps establish from it in a pool with
`I`, holds of every call after a schedule all of whose pools have `I`. -/
theorem past_of_calls {I : Pool σ κ ρ → Prop} {loc : List (Label μ) → Nat → Status κ ρ → Prop}
    (later : ∀ ls l i st, loc ls i st → loc (ls ++ [l]) i st)
    (start : ∀ ls i m, .call m ∈ ls → loc ls i (.running (O.start m)))
    (own : ∀ ls i k, I (O.run c ls) → (O.run c ls).calls[i]? = some (.running k) → loc ls i (.running k) →
      loc (ls ++ [.step i]) i (O.step (O.run c ls).clock (O.run c ls).shared k).2)
    (none : c.calls = []) (ls : List (Label μ)) (all : ∀ ks, ks <+: ls → I (O.run c ks)) (i : Nat) (st : Status κ ρ)
    (at_i : (O.run c ls).calls[i]? = some st) : loc ls i st := by
  induction ls using List.reverseRecOn generalizing i st with
  | nil =>
    rw [run_nil, none] at at_i
    cases at_i
  | append_singleton ls l ih =>
    have before := ih fun ks initial => all ks (initial.trans (List.prefix_append ls [l]))
    have here := all ls (List.prefix_append ls [l])
    rw [run_append, run_cons, run_nil] at at_i
    cases l with
    | tick d => exact later ls _ i st (before i st at_i)
    | call m =>
      rcases status_of_call at_i with old | rfl
      · exact later ls _ i st (before i st old)
      · exact start _ i m (List.mem_append_right ls List.mem_cons_self)
    | step j =>
      rcases exec_step_cases O (O.run c ls) j with ⟨k, running⟩ | idle
      · rcases status_of_step running at_i with ⟨rfl, rfl⟩ | ⟨-, old⟩
        · exact own ls i k here running (before i _ running)
        · exact later ls _ i st (before i st old)
      · rw [idle] at at_i
        exact later ls _ i st (before i st at_i)

end Conc.Object
