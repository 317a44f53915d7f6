import Mathlib.Data.List.Chain

/-!
# Deterministic transducers

A component that is called again and again is a function `f : ι → σ → ο × σ`: an input and a
state give an output and the next state. `run` folds a list of inputs, `trace` collects the
outputs. A property of every reachable state is `run_invariant`; two components give the same
outputs when a relation between their states survives every call (`trace_eq`). The timed
forms carry the clock: inputs are stamped, the stamps never decrease, and the relation may
mention the time of the last call. That something happens in the end is a rank that some input
always lowers, and rounds of inputs that each hold that input (`run_rounds`).
-/

namespace Transducer

variable {ι ο σ τ : Type*}

/-- The state after the inputs `is`. -/
def run (f : ι → σ → ο × σ) (s : σ) (is : List ι) : σ :=
  is.foldl (fun s i => (f i s).2) s

/-- The outputs of the inputs `is`, in order. -/
def trace (f : ι → σ → ο × σ) : σ → List ι → List ο
  | _, [] => []
  | s, i :: is => (f i s).1 :: trace f (f i s).2 is

section
variable (f : ι → σ → ο × σ) (s : σ)

@[simp] theorem run_nil : run f s [] = s := rfl

@[simp] theorem run_cons (i : ι) (is : List ι) : run f s (i :: is) = run f (f i s).2 is := rfl

@[simp] theorem run_append (is js : List ι) : run f s (is ++ js) = run f (run f s is) js := by
  simp [run]

@[simp] theorem trace_nil : trace f s [] = [] := rfl

@[simp] theorem trace_cons (i : ι) (is : List ι) : trace f s (i :: is) = (f i s).1 :: trace f (f i s).2 is := rfl

theorem trace_append (is js : List ι) : trace f s (is ++ js) = trace f s is ++ trace f (run f s is) js := by
  induction is generalizing s with
  | nil => rfl
  | cons i is ih => rw [List.cons_append, trace_cons, ih, trace_cons, run_cons, List.cons_append]

end

/-- A property that every call preserves holds after every list of calls. -/
theorem run_invariant {f : ι → σ → ο × σ} {I : σ → Prop} (step : ∀ i s, I s → I (f i s).2)
    {s : σ} (start : I s) (is : List ι) : I (run f s is) := by
  induction is generalizing s with
  | nil => exact start
  | cons i is ih => exact ih (step i s start)

/-- Every output has what every call from an invariant state gives. -/
theorem trace_forall {f : ι → σ → ο × σ} {I : σ → Prop} {P : ο → Prop}
    (step : ∀ i s, I s → P (f i s).1 ∧ I (f i s).2) {s : σ} (start : I s) (is : List ι) :
    ∀ o ∈ trace f s is, P o := by
  induction is generalizing s with
  | nil =>
    intro o mem
    exact absurd mem List.not_mem_nil
  | cons i is ih =>
    obtain ⟨first, next⟩ := step i s start
    intro o mem
    rcases List.mem_cons.mp mem with rfl | mem
    · exact first
    · exact ih next o mem

/-- **Simulation.** Related states stay related and answer alike, so the traces are equal. -/
theorem trace_eq {f : ι → σ → ο × σ} {g : ι → τ → ο × τ} {R : σ → τ → Prop}
    (step : ∀ i a b, R a b → (f i a).1 = (g i b).1 ∧ R (f i a).2 (g i b).2)
    {a : σ} {b : τ} (start : R a b) (is : List ι) : trace f a is = trace g b is := by
  induction is generalizing a b with
  | nil => rfl
  | cons i is ih =>
    obtain ⟨same, next⟩ := step i a b start
    rw [trace_cons, trace_cons, same, ih next]

/-- The states of a simulation are related after every list of calls. -/
theorem run_related {f : ι → σ → ο × σ} {g : ι → τ → ο × τ} {R : σ → τ → Prop}
    (step : ∀ i a b, R a b → R (f i a).2 (g i b).2)
    {a : σ} {b : τ} (start : R a b) (is : List ι) : R (run f a is) (run g b is) := by
  induction is generalizing a b with
  | nil => exact start
  | cons i is ih => exact ih (step i a b start)

/-! ## Fair rounds -/

/-- A rank that no input raises, and that one input lowers: the helper, the same until the rank is lower. -/
structure Ranked (f : ι → σ → ο × σ) (I : σ → Prop) (rank : σ → Nat) (helper : σ → ι) : Prop where
  keeps : ∀ i s, I s → I (f i s).2
  lowers : ∀ s, I s → 0 < rank s → rank (f (helper s) s).2 < rank s
  others : ∀ i s, I s → rank (f i s).2 < rank s ∨ (rank (f i s).2 = rank s ∧ helper (f i s).2 = helper s)

namespace Ranked

variable {f : ι → σ → ο × σ} {I : σ → Prop} {rank : σ → Nat} {helper : σ → ι}

theorem run_le (R : Ranked f I rank helper) {s : σ} (inv : I s) (is : List ι) : rank (run f s is) ≤ rank s := by
  induction is generalizing s with
  | nil => exact Nat.le_refl _
  | cons i is ih =>
    have rest := ih (R.keeps i s inv)
    rcases R.others i s inv with lower | ⟨same, -⟩
    · exact Nat.le_trans rest (Nat.le_of_lt lower)
    · exact Nat.le_trans rest (Nat.le_of_eq same)

/-- Inputs that hold the helper lower the rank. -/
theorem run_lt (R : Ranked f I rank helper) {s : σ} (inv : I s) (positive : 0 < rank s) {is : List ι}
    (fair : helper s ∈ is) : rank (run f s is) < rank s := by
  induction is generalizing s with
  | nil => cases fair
  | cons i is ih =>
    have rest := R.run_le (R.keeps i s inv) is
    rcases R.others i s inv with lower | ⟨same, still⟩
    · exact Nat.lt_of_le_of_lt rest lower
    · rcases List.mem_cons.mp fair with rfl | later
      · exact Nat.lt_of_le_of_lt rest (R.lowers s inv positive)
      · rw [← same]
        exact ih (R.keeps i s inv) (same ▸ positive) (still ▸ later)

/-- **As many rounds as the rank** bring it to nothing, if every round holds every helper. -/
theorem run_rounds (R : Ranked f I rank helper) {s : σ} (inv : I s) {rounds : List (List ι)}
    (fair : ∀ round ∈ rounds, ∀ s, I s → 0 < rank s → helper s ∈ round) (enough : rank s ≤ rounds.length) :
    rank (run f s rounds.flatten) = 0 := by
  induction rounds generalizing s with
  | nil => exact Nat.le_zero.mp enough
  | cons round rounds ih =>
    rw [List.flatten_cons, run_append]
    refine ih (run_invariant R.keeps inv round) (fun r mem => fair r (List.mem_cons_of_mem _ mem)) ?_
    rcases Nat.eq_zero_or_pos (rank s) with zero | positive
    · have le := R.run_le inv round
      omega
    · have lower := R.run_lt inv positive (fair round List.mem_cons_self s inv positive)
      rw [List.length_cons] at enough
      omega

end Ranked

/-! ## Timed inputs -/

/-- Times that never decrease, in two stretches. -/
theorem ordered_append {t : Nat} {first second : List Nat} :
    (t :: (first ++ second)).IsChain (· ≤ ·) ↔
      (t :: first).IsChain (· ≤ ·) ∧ (first.getLastD t :: second).IsChain (· ≤ ·) := by
  induction first generalizing t with
  | nil => simp
  | cons u first ih => rw [List.cons_append, List.isChain_cons_cons, ih, List.isChain_cons_cons, List.getLastD_cons, and_assoc]

/-- **Timed simulation.** The inputs carry times that never decrease; the relation is kept at the
time of the last input. -/
theorem trace_eq_timed {f : ι → σ → ο × σ} {g : ι → τ → ο × τ} {time : ι → Nat} {R : Nat → σ → τ → Prop}
    (step : ∀ t i a b, t ≤ time i → R t a b → (f i a).1 = (g i b).1 ∧ R (time i) (f i a).2 (g i b).2)
    {t : Nat} {is : List ι} (ordered : (t :: is.map time).IsChain (· ≤ ·)) {a : σ} {b : τ} (start : R t a b) :
    trace f a is = trace g b is ∧ R ((is.map time).getLastD t) (run f a is) (run g b is) := by
  induction is generalizing t a b with
  | nil => exact ⟨rfl, start⟩
  | cons i is ih =>
    obtain ⟨le, rest⟩ := List.isChain_cons_cons.mp ordered
    obtain ⟨same, next⟩ := step t i a b le start
    obtain ⟨later, last⟩ := ih rest next
    refine ⟨?_, ?_⟩
    · rw [trace_cons, trace_cons, same, later]
    · rw [List.map_cons, List.getLastD_cons]
      exact last

/-- **Timed invariant.** What every input of the list gives and keeps, from a state that has the property at the time of
the input before. -/
theorem forall_timed {f : ι → σ → ο × σ} {time : ι → Nat} {I : Nat → σ → Prop} {P : ο → Prop} {is : List ι}
    (step : ∀ i ∈ is, ∀ t s, t ≤ time i → I t s → P (f i s).1 ∧ I (time i) (f i s).2) {t : Nat}
    (ordered : (t :: is.map time).IsChain (· ≤ ·)) {s : σ} (start : I t s) :
    (∀ o ∈ trace f s is, P o) ∧ I ((is.map time).getLastD t) (run f s is) := by
  induction is generalizing t s with
  | nil =>
    refine ⟨?_, start⟩
    intro o mem
    exact absurd mem List.not_mem_nil
  | cons i is ih =>
    obtain ⟨le, rest⟩ := List.isChain_cons_cons.mp ordered
    obtain ⟨first, next⟩ := step i List.mem_cons_self t s le start
    obtain ⟨others, last⟩ := ih (fun j mem => step j (List.mem_cons_of_mem i mem)) rest next
    rw [List.map_cons, List.getLastD_cons]
    refine ⟨?_, last⟩
    intro o mem
    rcases List.mem_cons.mp mem with rfl | mem
    · exact first
    · exact others o mem

end Transducer
