import Mathlib.Logic.Basic

/-!
# Checks that stop at the first failure

A validation in `Except` does one check after the other and returns the error of the first that fails. So it succeeds
exactly if every check does, and an error it returns is the error of one of its checks.
-/

namespace Checks

variable {ε ε' α β : Type}

/-- Fail if the condition is met. -/
def reject (p : Prop) [Decidable p] (e : ε) : Except ε Unit := if p then .error e else .ok ()

@[simp] theorem reject_eq_ok {p : Prop} [Decidable p] {e : ε} {u : Unit} : reject p e = .ok u ↔ ¬ p := by
  unfold reject
  split
  · next met => simp [met]
  · next not => simp [not]

@[simp] theorem reject_eq_error {p : Prop} [Decidable p] {e e' : ε} : reject p e = .error e' ↔ p ∧ e = e' := by
  unfold reject
  split
  · next met => simp [met]
  · next not => simp [not]

theorem bind_eq_ok {x : Except ε α} {f : α → Except ε β} {b : β} : x >>= f = .ok b ↔ ∃ a, x = .ok a ∧ f a = .ok b := by
  cases x with
  | error e => simp [bind, Except.bind]
  | ok a => simp [bind, Except.bind]

/-- The first part fails, or it succeeds and the second fails. -/
theorem bind_eq_error {x : Except ε α} {f : α → Except ε β} {e : ε} :
    x >>= f = .error e ↔ x = .error e ∨ ∃ a, x = .ok a ∧ f a = .error e := by
  cases x with
  | error e' => simp [bind, Except.bind]
  | ok a => simp [bind, Except.bind]

@[simp] theorem mapError_eq_ok {g : ε → ε'} {x : Except ε α} {a : α} : x.mapError g = .ok a ↔ x = .ok a := by
  cases x with
  | error e => exact ⟨nofun, nofun⟩
  | ok b =>
    constructor
    · rintro ⟨⟩
      rfl
    · rintro ⟨⟩
      rfl

@[simp] theorem mapError_eq_error {g : ε → ε'} {x : Except ε α} {e : ε'} :
    x.mapError g = .error e ↔ ∃ cause, x = .error cause ∧ g cause = e := by
  cases x with
  | error cause =>
    constructor
    · rintro ⟨⟩
      exact ⟨cause, rfl, rfl⟩
    · rintro ⟨_, ⟨⟩, rfl⟩
      rfl
  | ok a => exact ⟨nofun, fun ⟨_, impossible, _⟩ => nomatch impossible⟩

/-- A loop of checks succeeds exactly if they all do. -/
@[simp] theorem forM_eq_ok {f : α → Except ε Unit} {as : List α} {u : Unit} :
    forM as f = .ok u ↔ ∀ a ∈ as, f a = .ok () := by
  induction as with
  | nil => simp [pure, Except.pure]
  | cons a as ih =>
    rw [List.forM_cons, bind_eq_ok, List.forall_mem_cons]
    constructor
    · rintro ⟨⟨⟩, first, rest⟩
      exact ⟨first, ih.mp rest⟩
    · rintro ⟨first, rest⟩
      exact ⟨(), first, ih.mpr rest⟩

/-- It fails with the error of the first that fails. -/
theorem forM_eq_error {f : α → Except ε Unit} {as : List α} {e : ε} :
    forM as f = .error e ↔
      ∃ before a after, as = before ++ a :: after ∧ (∀ b ∈ before, f b = .ok ()) ∧ f a = .error e := by
  induction as with
  | nil => simp [pure, Except.pure]
  | cons a as ih =>
    rw [List.forM_cons, bind_eq_error, ih]
    constructor
    · rintro (fails | ⟨⟨⟩, first, before, b, after, rfl, earlier, fails⟩)
      · exact ⟨[], a, as, rfl, by simp, fails⟩
      · exact ⟨a :: before, b, after, rfl, List.forall_mem_cons.mpr ⟨first, earlier⟩, fails⟩
    · rintro ⟨before, b, after, whole, earlier, fails⟩
      cases before with
      | nil =>
        cases whole
        exact .inl fails
      | cons c before =>
        cases whole
        obtain ⟨first, others⟩ := List.forall_mem_cons.mp earlier
        exact .inr ⟨(), first, before, b, after, rfl, others, fails⟩

end Checks
