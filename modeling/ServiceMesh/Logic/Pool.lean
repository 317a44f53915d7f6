import ServiceMesh.Logic.Transducer
import Mathlib.Data.List.Induction

/-!
# Shared objects under any interleaving

An `Object` is shared state with methods; a method call is a local control state that one
atomic `step` at a time turns into the next or into the call's result. A `Pool` runs any
number of calls at once: a `Label` starts a call, lets one call take one step, or advances
the clock, and every list of labels is a schedule (a step of a call that has ended does
nothing). Calls keep their position, so the `n`th call is the same call in every later state.

Ways to reason about all schedules:

* `Every.run`: a property of the whole pool that the clock, new calls and single steps keep, and
  `every_iff_prefixes`: which schedules keep it; `run_methods`: the same with the methods called so far;
* `run_called`: what the own steps of a method's calls keep holds of each of its calls;
* `Outline.run`: a global invariant plus an assertion for each call, kept by the call's own
  steps and not disturbed by the steps of the others; `Outline.keeps` joins the two;
* `Outline.run_call` and `Outline.ends`: what the own steps of one call keep, and that they come to an end;
* `Pool.count`: how many calls satisfy a test, and how one step changes that number; `Outline.flow`: what the calls
  take in and let out is accounted for by those inside;
* `Solo.history`: calls that nothing interleaves with run as the sequential methods.
-/

namespace Conc

variable {σ μ κ ρ : Type*}

/-- A call in a pool: at control state `k`, or finished with result `r`. -/
inductive Status (κ ρ : Type*) where
  | running (k : κ)
  | done (r : ρ)
deriving Repr, DecidableEq

/-- Shared state `σ` with methods `μ`: the control state a call starts in, and one atomic
step at a clock reading. -/
structure Object (σ μ κ ρ : Type*) where
  start : μ → κ
  step : Nat → σ → κ → σ × Status κ ρ

/-- The clock, the shared state, and the calls made so far in the order of their start. -/
structure Pool (σ κ ρ : Type*) where
  clock : Nat
  shared : σ
  calls : List (Status κ ρ)

/-- What the `i`th call has returned. -/
def Pool.result (c : Pool σ κ ρ) (i : Nat) : Option ρ :=
  match c.calls[i]? with
  | some (.done r) => some r
  | _ => none

theorem Pool.done_of_result {c : Pool σ κ ρ} {i : Nat} {r : ρ} (returned : c.result i = some r) :
    c.calls[i]? = some (.done r) := by
  unfold Pool.result at returned
  split at returned
  · next ended => rw [ended, Option.some.inj returned]
  · cases returned

inductive Label (μ : Type*) where
  | call (m : μ)
  | step (i : Nat)
  | tick (d : Nat)
deriving Repr, DecidableEq

/-- The label lets the `i`th call take a step. -/
def Label.isStep {μ : Type*} (i : Nat) : Label μ → Bool
  | .step j => j == i
  | _ => false

theorem Label.eq_step_of_isStep {μ : Type*} {i : Nat} {l : Label μ} (mine : l.isStep i = true) : l = .step i := by
  cases l with
  | step j => exact congrArg Label.step (beq_iff_eq.mp mine)
  | call m => cases mine
  | tick d => cases mine

namespace Object

def exec (O : Object σ μ κ ρ) (c : Pool σ κ ρ) : Label μ → Pool σ κ ρ
  | .call m => { c with calls := c.calls ++ [.running (O.start m)] }
  | .tick d => { c with clock := c.clock + d }
  | .step i =>
    match c.calls[i]? with
    | some (.running k) =>
      { c with shared := (O.step c.clock c.shared k).1,
               calls := c.calls.set i (O.step c.clock c.shared k).2 }
    | _ => c

/-- The pool after a schedule. -/
def run (O : Object σ μ κ ρ) (c : Pool σ κ ρ) (labels : List (Label μ)) : Pool σ κ ρ :=
  labels.foldl O.exec c

section
variable (O : Object σ μ κ ρ) (c : Pool σ κ ρ)

@[simp] theorem run_nil : O.run c [] = c := rfl

@[simp] theorem run_cons (l : Label μ) (ls : List (Label μ)) : O.run c (l :: ls) = O.run (O.exec c l) ls := rfl

@[simp] theorem run_append (ls ks : List (Label μ)) : O.run c (ls ++ ks) = O.run (O.run c ls) ks := by
  simp [run]

@[simp] theorem exec_call (m : μ) :
    O.exec c (.call m) = { c with calls := c.calls ++ [.running (O.start m)] } := rfl

@[simp] theorem exec_tick (d : Nat) : O.exec c (.tick d) = { c with clock := c.clock + d } := rfl

variable {O c}

theorem exec_running {i : Nat} {k : κ} (at_k : c.calls[i]? = some (.running k)) :
    O.exec c (.step i) =
      { c with shared := (O.step c.clock c.shared k).1,
               calls := c.calls.set i (O.step c.clock c.shared k).2 } := by
  simp only [exec, at_k]

theorem shared_exec {i : Nat} {k : κ} (at_k : c.calls[i]? = some (.running k)) :
    (O.exec c (.step i)).shared = (O.step c.clock c.shared k).1 := by
  rw [exec_running at_k]

theorem clock_exec {i : Nat} {k : κ} (at_k : c.calls[i]? = some (.running k)) :
    (O.exec c (.step i)).clock = c.clock := by
  rw [exec_running at_k]

theorem status_exec {i : Nat} {k : κ} (at_k : c.calls[i]? = some (.running k)) :
    (O.exec c (.step i)).calls[i]? = some (O.step c.clock c.shared k).2 := by
  rw [exec_running at_k, List.getElem?_set_self (List.getElem?_eq_some_iff.mp at_k).1]

/-- A scheduled step is one step of a running call, or nothing. -/
theorem exec_step_cases (O : Object σ μ κ ρ) (c : Pool σ κ ρ) (i : Nat) :
    (∃ k, c.calls[i]? = some (.running k)) ∨ O.exec c (.step i) = c := by
  rcases h : c.calls[i]? with _ | ⟨k⟩ | ⟨r⟩
  · exact .inr (by simp only [exec, h])
  · exact .inl ⟨k, rfl⟩
  · exact .inr (by simp only [exec, h])

theorem length_le_exec (O : Object σ μ κ ρ) (c : Pool σ κ ρ) (l : Label μ) :
    c.calls.length ≤ (O.exec c l).calls.length := by
  cases l with
  | call m => simp
  | tick d => exact Nat.le_refl _
  | step i =>
    rcases exec_step_cases O c i with ⟨k, running⟩ | idle
    · simp [exec_running running]
    · simp [idle]

/-- After a call there are the calls from before, and one that has just begun. -/
theorem status_of_call {m : μ} {i : Nat} {st : Status κ ρ} (at_i : (O.exec c (.call m)).calls[i]? = some st) :
    c.calls[i]? = some st ∨ st = .running (O.start m) := by
  rw [exec_call, List.getElem?_append] at at_i
  split at at_i
  · exact .inl at_i
  · rw [List.getElem?_singleton] at at_i
    split at at_i
    · cases at_i
      exact .inr rfl
    · cases at_i

theorem status_called (O : Object σ μ κ ρ) (c : Pool σ κ ρ) (m : μ) :
    (O.exec c (.call m)).calls[c.calls.length]? = some (.running (O.start m)) := by
  rw [exec_call, List.getElem?_append_right (Nat.le_refl _), Nat.sub_self]
  rfl

/-- After a step there is what it made of its own call, and the others as they were. -/
theorem status_of_step {j : Nat} {k : κ} (running : c.calls[j]? = some (.running k)) {i : Nat} {st : Status κ ρ}
    (at_i : (O.exec c (.step j)).calls[i]? = some st) :
    (i = j ∧ st = (O.step c.clock c.shared k).2) ∨ (i ≠ j ∧ c.calls[i]? = some st) := by
  by_cases mine : i = j
  · subst mine
    rw [status_exec running] at at_i
    exact .inl ⟨rfl, (Option.some.inj at_i).symm⟩
  · rw [exec_running running, List.getElem?_set_ne (Ne.symm mine)] at at_i
    exact .inr ⟨mine, at_i⟩

/-- A label that gives a call no step leaves it where it is. -/
theorem status_of_not_step {i : Nat} {st : Status κ ρ} (at_i : c.calls[i]? = some st) {l : Label μ}
    (other : ¬ l.isStep i = true) : (O.exec c l).calls[i]? = some st := by
  cases l with
  | tick d => exact at_i
  | call m => rw [exec_call, List.getElem?_append_left (List.getElem?_eq_some_iff.mp at_i).1, at_i]
  | step j =>
    have apart : j ≠ i := fun same => other (decide_eq_true same)
    rcases exec_step_cases O c j with ⟨k, running⟩ | idle
    · rw [exec_running running, List.getElem?_set_ne apart, at_i]
    · rw [idle, at_i]

/-- What a call has returned stays. -/
theorem done_run {i : Nat} {r : ρ} (ended : c.calls[i]? = some (.done r)) (ls : List (Label μ)) :
    (O.run c ls).calls[i]? = some (.done r) := by
  induction ls generalizing c with
  | nil => exact ended
  | cons l ls ih =>
    apply ih
    by_cases mine : l.isStep i = true
    · obtain rfl := Label.eq_step_of_isStep mine
      simp only [exec, ended]
    · exact status_of_not_step ended mine

/-- The clock goes on. -/
theorem clock_le_run (O : Object σ μ κ ρ) (c : Pool σ κ ρ) (ls : List (Label μ)) : c.clock ≤ (O.run c ls).clock := by
  induction ls generalizing c with
  | nil => exact Nat.le_refl _
  | cons l ls ih =>
    refine Nat.le_trans ?_ (ih _)
    cases l with
    | call m => exact Nat.le_refl _
    | tick d => exact Nat.le_add_right _ d
    | step i =>
      rcases exec_step_cases O c i with ⟨k, running⟩ | idle
      · exact Nat.le_of_eq (clock_exec running).symm
      · rw [idle]

/-- Calls are only added. -/
theorem length_le_run (O : Object σ μ κ ρ) (c : Pool σ κ ρ) (ls : List (Label μ)) :
    c.calls.length ≤ (O.run c ls).calls.length := by
  induction ls generalizing c with
  | nil => exact Nat.le_refl _
  | cons l ls ih => exact Nat.le_trans (length_le_exec O c l) (ih _)

end

/-! ## Restricted schedules -/

/-- What a schedule may do: which methods are called, and which steps are taken at a clock
reading and a shared state. -/
structure Env (σ μ κ : Type*) where
  calls : μ → Prop
  steps : Nat → σ → κ → Prop

/-- The label is within `E` at `c`. -/
def Permits (E : Env σ μ κ) (c : Pool σ κ ρ) : Label μ → Prop
  | .call m => E.calls m
  | .tick _ => True
  | .step i => ∀ k, c.calls[i]? = some (.running k) → E.steps c.clock c.shared k

instance (E : Env σ μ κ) [DecidablePred E.calls] [∀ t s k, Decidable (E.steps t s k)] (c : Pool σ κ ρ) :
    ∀ l : Label μ, Decidable (Permits E c l)
  | .call m => inferInstanceAs (Decidable (E.calls m))
  | .tick _ => .isTrue trivial
  | .step i =>
    match h : c.calls[i]? with
    | some (.running k) => decidable_of_iff (E.steps c.clock c.shared k) (by simp [Permits, h])
    | some (.done r) => .isTrue (by simp [Permits, h])
    | none => .isTrue (by simp [Permits, h])

/-- Every label of the schedule is within `E` where it is taken. -/
def Along (O : Object σ μ κ ρ) (E : Env σ μ κ) : Pool σ κ ρ → List (Label μ) → Prop
  | _, [] => True
  | c, l :: ls => Permits E c l ∧ Along O E (O.exec c l) ls

instance decidableAlong (O : Object σ μ κ ρ) (E : Env σ μ κ) [DecidablePred E.calls]
    [∀ t s k, Decidable (E.steps t s k)] :
    ∀ (c : Pool σ κ ρ) (ls : List (Label μ)), Decidable (O.Along E c ls)
  | _, [] => .isTrue trivial
  | c, l :: ls =>
    have := decidableAlong O E (O.exec c l) ls
    inferInstanceAs (Decidable (Permits E c l ∧ O.Along E (O.exec c l) ls))

theorem along_append {O : Object σ μ κ ρ} {E : Env σ μ κ} {c : Pool σ κ ρ} {ls ks : List (Label μ)} :
    O.Along E c (ls ++ ks) ↔ O.Along E c ls ∧ O.Along E (O.run c ls) ks := by
  induction ls generalizing c with
  | nil => simp [Along]
  | cons l ls ih => simp only [List.cons_append, Along, ih, run_cons, and_assoc]

/-- A schedule within `E` is within anything that allows more. -/
theorem Along.mono {O : Object σ μ κ ρ} {E E' : Env σ μ κ} (calls : ∀ m, E.calls m → E'.calls m)
    (steps : ∀ t s k, E.steps t s k → E'.steps t s k) {c : Pool σ κ ρ} {ls : List (Label μ)}
    (h : O.Along E c ls) : O.Along E' c ls := by
  induction ls generalizing c with
  | nil => trivial
  | cons l ls ih =>
    refine ⟨?_, ih h.2⟩
    cases l with
    | call m => exact calls m h.1
    | tick d => trivial
    | step i => exact fun k running => steps _ _ k (h.1 k running)

/-- Every label of the schedule satisfies `P` at the pool where it is taken. -/
def Every (O : Object σ μ κ ρ) (P : Pool σ κ ρ → Label μ → Prop) : Pool σ κ ρ → List (Label μ) → Prop
  | _, [] => True
  | c, l :: ls => P c l ∧ Every O P (O.exec c l) ls

instance decidableEvery (O : Object σ μ κ ρ) (P : Pool σ κ ρ → Label μ → Prop) [∀ c l, Decidable (P c l)] :
    ∀ (c : Pool σ κ ρ) (ls : List (Label μ)), Decidable (O.Every P c ls)
  | _, [] => .isTrue trivial
  | c, l :: ls =>
    have := decidableEvery O P (O.exec c l) ls
    inferInstanceAs (Decidable (P c l ∧ O.Every P (O.exec c l) ls))

theorem every_append {O : Object σ μ κ ρ} {P : Pool σ κ ρ → Label μ → Prop} {c : Pool σ κ ρ} {ls ks : List (Label μ)} :
    O.Every P c (ls ++ ks) ↔ O.Every P c ls ∧ O.Every P (O.run c ls) ks := by
  induction ls generalizing c with
  | nil => simp [Every]
  | cons l ls ih => simp only [List.cons_append, Every, ih, run_cons, and_assoc]

theorem every_of_forall {O : Object σ μ κ ρ} {P : Pool σ κ ρ → Label μ → Prop} (all : ∀ c l, P c l) (c : Pool σ κ ρ)
    (ls : List (Label μ)) : O.Every P c ls := by
  induction ls generalizing c with
  | nil => trivial
  | cons l ls ih => exact ⟨all c l, ih _⟩

/-- Every label: whatever comes before it and after. -/
theorem every_iff_splits {O : Object σ μ κ ρ} {P : Pool σ κ ρ → Label μ → Prop} {c : Pool σ κ ρ} {ls : List (Label μ)} :
    O.Every P c ls ↔ ∀ before l after, ls = before ++ l :: after → P (O.run c before) l := by
  constructor
  · rintro every before l after rfl
    exact (every_append.mp every).2.1
  · intro all
    induction ls generalizing c with
    | nil => trivial
    | cons l ls ih =>
      refine ⟨all [] l ls rfl, ih ?_⟩
      rintro before l' after rfl
      exact all (l :: before) l' after rfl

theorem Along.every {O : Object σ μ κ ρ} {E : Env σ μ κ} {c : Pool σ κ ρ} {ls : List (Label μ)} (h : O.Along E c ls) :
    O.Every (Permits E) c ls := by
  induction ls generalizing c with
  | nil => trivial
  | cons l ls ih => exact ⟨h.1, ih h.2⟩

/-- **The invariant rule**: what the clock, every new call and every step of a running call keep, holds after every
schedule. A step of a call that has ended is nothing to prove. -/
theorem Every.run {O : Object σ μ κ ρ} {P : Pool σ κ ρ → Label μ → Prop} {I : Pool σ κ ρ → Prop}
    (tick : ∀ c d, I c → I (O.exec c (.tick d)))
    (call : ∀ c m, P c (.call m) → I c → I (O.exec c (.call m)))
    (step : ∀ c i k, c.calls[i]? = some (.running k) → P c (.step i) → I c → I (O.exec c (.step i)))
    {c : Pool σ κ ρ} {ls : List (Label μ)} (h : O.Every P c ls) (start : I c) : I (O.run c ls) := by
  induction ls generalizing c with
  | nil => exact start
  | cons l ls ih =>
    apply ih h.2
    cases l with
    | tick d => exact tick c d start
    | call m => exact call c m h.1 start
    | step i =>
      rcases exec_step_cases O c i with ⟨k, running⟩ | idle
      · exact step c i k running h.1 start
      · rw [idle]
        exact start

/-- **The exact rule**: where `P` says of every label whether it keeps `I`, a schedule goes through states with `I` only
exactly if all its labels satisfy `P`. -/
theorem every_iff_prefixes {O : Object σ μ κ ρ} {P : Pool σ κ ρ → Label μ → Prop} {I : Pool σ κ ρ → Prop}
    (exact : ∀ c l, I c → (I (O.exec c l) ↔ P c l)) {c : Pool σ κ ρ} (start : I c) (ls : List (Label μ)) :
    (∀ ks, ks <+: ls → I (O.run c ks)) ↔ O.Every P c ls := by
  induction ls generalizing c with
  | nil =>
    refine ⟨fun _ => trivial, ?_⟩
    intro _ ks nothing
    rw [List.prefix_nil.mp nothing]
    exact start
  | cons l ls ih =>
    constructor
    · intro all
      have next : I (O.exec c l) := all [l] (List.prefix_append [l] ls)
      refine ⟨(exact c l start).mp next, (ih next).mp ?_⟩
      intro ks initial
      exact all (l :: ks) (List.cons_prefix_cons.mpr ⟨rfl, initial⟩)
    · rintro ⟨first, rest⟩ ks initial
      have next := (exact c l start).mpr first
      cases ks with
      | nil => exact start
      | cons k ks =>
        obtain ⟨rfl, later⟩ := List.cons_prefix_cons.mp initial
        exact (ih next).mpr rest ks later

/-- The methods that a schedule calls, in order: the `n`th call is a call of the `n`th of them. -/
def methods (ls : List (Label μ)) : List μ :=
  ls.filterMap fun
    | .call m => some m
    | _ => none

/-- **The invariant rule with the calls made**: the invariant may speak of the methods called so far, in order. -/
theorem run_methods {O : Object σ μ κ ρ} {I : List μ → Pool σ κ ρ → Prop}
    (tick : ∀ ms c d, I ms c → I ms (O.exec c (.tick d)))
    (call : ∀ ms c m, I ms c → I (ms ++ [m]) (O.exec c (.call m)))
    (step : ∀ ms c i k, c.calls[i]? = some (.running k) → I ms c → I ms (O.exec c (.step i)))
    {c : Pool σ κ ρ} (start : I [] c) (ls : List (Label μ)) : I (methods ls) (O.run c ls) := by
  have from_any : ∀ (ms : List μ) (c : Pool σ κ ρ), I ms c → I (ms ++ methods ls) (O.run c ls) := by
    induction ls with
    | nil =>
      intro ms c before
      rw [methods, List.filterMap_nil, List.append_nil]
      exact before
    | cons l ls ih =>
      intro ms c before
      cases l with
      | tick d => exact ih ms _ (tick ms c d before)
      | call m =>
        have next := ih (ms ++ [m]) _ (call ms c m before)
        rw [List.append_assoc] at next
        exact next
      | step i =>
        apply ih ms
        rcases exec_step_cases O c i with ⟨k, running⟩ | idle
        · exact step ms c i k running before
        · rw [idle]
          exact before
  exact from_any [] c start

theorem methods_append (ls ks : List (Label μ)) : methods (ls ++ ks) = methods ls ++ methods ks :=
  List.filterMap_append

/-- **What a method's steps keep**: the `i`th call is where steps from the start of the `i`th method lead. -/
theorem run_called {O : Object σ μ κ ρ} {Q : μ → Status κ ρ → Prop} (start : ∀ m, Q m (.running (O.start m)))
    (own : ∀ m t s k, Q m (.running k) → Q m (O.step t s k).2) {c : Pool σ κ ρ} (none : c.calls = [])
    (ls : List (Label μ)) : (methods ls).length = (O.run c ls).calls.length ∧
      ∀ (i : Nat) st, (O.run c ls).calls[i]? = some st → ∃ m, (methods ls)[i]? = some m ∧ Q m st := by
  refine run_methods (I := fun ms c => ms.length = c.calls.length ∧
    ∀ (i : Nat) st, c.calls[i]? = some st → ∃ m, ms[i]? = some m ∧ Q m st) ?_ ?_ ?_ ?_ ls
  · exact fun ms c d before => before
  · rintro ms c m ⟨same, before⟩
    refine ⟨by simp [same], fun i st at_i => ?_⟩
    rw [exec_call, List.getElem?_append] at at_i
    rw [List.getElem?_append, same]
    split at at_i
    · next older =>
      rw [if_pos older]
      exact before i st at_i
    · next newer =>
      rw [if_neg newer]
      rw [List.getElem?_singleton] at at_i ⊢
      split at at_i
      · next first =>
        cases at_i
        exact ⟨m, if_pos first, start m⟩
      · cases at_i
  · rintro ms c i k running ⟨same, before⟩
    refine ⟨by rw [exec_running running, List.length_set, same], fun j st at_j => ?_⟩
    rcases status_of_step running at_j with ⟨rfl, rfl⟩ | ⟨-, old⟩
    · obtain ⟨m, made, holds⟩ := before j _ running
      exact ⟨m, made, own m _ _ k holds⟩
    · exact before j st old
  · exact ⟨by rw [none]; rfl, fun i st at_i => by rw [none] at at_i; cases at_i⟩

/-- A schedule is as good as its calls when only the calls are restricted. -/
theorem along_calls {O : Object σ μ κ ρ} {P : μ → Prop} {c : Pool σ κ ρ} {ls : List (Label μ)}
    (calls : ∀ m, .call m ∈ ls → P m) : O.Along ⟨P, fun _ _ _ => True⟩ c ls := by
  induction ls generalizing c with
  | nil => trivial
  | cons l ls ih =>
    refine ⟨?_, ih fun m later => calls m (List.mem_cons_of_mem l later)⟩
    cases l with
    | call m => exact calls m List.mem_cons_self
    | tick d => trivial
    | step i => exact fun _ _ => trivial

/-! ## What a schedule emits -/

section
variable {α : Type*} (emit : σ → κ → Option α)

/-- What the step of a label emits, if it takes one. -/
def emission (c : Pool σ κ ρ) : Label μ → Option α
  | .call _ => none
  | .tick _ => none
  | .step i =>
    match c.calls[i]? with
    | some (.running k) => emit c.shared k
    | _ => none

/-- What the steps of a schedule emit, in the order in which they are taken. -/
def emitted (O : Object σ μ κ ρ) : Pool σ κ ρ → List (Label μ) → List α
  | _, [] => []
  | c, l :: ls => (emission emit c l).toList ++ emitted O (O.exec c l) ls

variable {emit} in
theorem emission_running {c : Pool σ κ ρ} {i : Nat} {k : κ} (running : c.calls[i]? = some (.running k)) :
    emission emit c (.step i : Label μ) = emit c.shared k := by
  simp only [emission, running]

variable {emit} in
/-- What is emitted, a running call emits. -/
theorem emission_eq_some {c : Pool σ κ ρ} {i : Nat} {a : α} (out : emission emit c (.step i : Label μ) = some a) :
    ∃ k, c.calls[i]? = some (.running k) ∧ emit c.shared k = some a := by
  simp only [emission] at out
  split at out
  · next k running => exact ⟨k, running, out⟩
  · cases out

theorem emitted_append (O : Object σ μ κ ρ) (c : Pool σ κ ρ) (ls ks : List (Label μ)) :
    O.emitted emit c (ls ++ ks) = O.emitted emit c ls ++ O.emitted emit (O.run c ls) ks := by
  induction ls generalizing c with
  | nil => rfl
  | cons l ls ih => rw [List.cons_append, emitted, emitted, ih, run_cons, List.append_assoc]

variable {emit} in
/-- **The invariant rule with what was emitted**: the invariant may speak of everything emitted so far, in order. -/
theorem run_emitted {O : Object σ μ κ ρ} {I : List α → Pool σ κ ρ → Prop}
    (tick : ∀ out c d, I out c → I out (O.exec c (.tick d)))
    (call : ∀ out c m, I out c → I out (O.exec c (.call m)))
    (step : ∀ out c i k, c.calls[i]? = some (.running k) → I out c →
      I (out ++ (emit c.shared k).toList) (O.exec c (.step i))) {c : Pool σ κ ρ} (start : I [] c)
    (ls : List (Label μ)) : I (O.emitted emit c ls) (O.run c ls) := by
  induction ls using List.reverseRecOn with
  | nil => exact start
  | append_singleton ls l ih =>
    rw [emitted_append, run_append, run_cons, run_nil, emitted, emitted, List.append_nil]
    cases l with
    | tick d =>
      rw [emission, Option.toList_none, List.append_nil]
      exact tick _ _ d ih
    | call m =>
      rw [emission, Option.toList_none, List.append_nil]
      exact call _ _ m ih
    | step i =>
      rcases exec_step_cases O (O.run c ls) i with ⟨k, running⟩ | idle
      · rw [emission_running running]
        exact step _ _ i k running ih
      · cases out : emission emit (O.run c ls) (.step i : Label μ) with
        | none =>
          rw [idle, Option.toList_none, List.append_nil]
          exact ih
        | some a =>
          obtain ⟨k, running, emits⟩ := emission_eq_some out
          rw [← emits]
          exact step _ _ i k running ih

end

end Object

/-! ## Invariants with one assertion for each call -/

/-- The invariant and every call's assertion, at the pool's clock and shared state. -/
def Holds (inv : Nat → σ → Prop) (loc : Nat → Nat → σ → Status κ ρ → Prop) (c : Pool σ κ ρ) : Prop :=
  inv c.clock c.shared ∧ ∀ i st, c.calls[i]? = some st → loc i c.clock c.shared st

/-- Before any call only the invariant is left to prove. -/
theorem Holds.of_no_calls {inv : Nat → σ → Prop} {loc : Nat → Nat → σ → Status κ ρ → Prop} {t : Nat} {s : σ}
    (start : inv t s) : Holds inv loc ⟨t, s, []⟩ :=
  ⟨start, fun _ _ at_i => by cases at_i⟩

/-- The proof obligations of a global invariant `inv` and an assertion `loc i` for the `i`th
call. `other` is the freedom from interference: a step of one call leaves the assertion of
another in place. -/
structure Outline (O : Object σ μ κ ρ) (E : Object.Env σ μ κ) (inv : Nat → σ → Prop)
    (loc : Nat → Nat → σ → Status κ ρ → Prop) : Prop where
  start : ∀ i t s m, E.calls m → inv t s → loc i t s (.running (O.start m))
  own : ∀ i t s k, E.steps t s k → inv t s → loc i t s (.running k) →
    inv t (O.step t s k).1 ∧ loc i t (O.step t s k).1 (O.step t s k).2
  other : ∀ i j t s k st, i ≠ j → E.steps t s k → inv t s → loc i t s (.running k) → loc j t s st →
    loc j t (O.step t s k).1 st
  tick : ∀ t d s, inv t s → inv (t + d) s
  tickLoc : ∀ i t d s st, inv t s → loc i t s st → loc i (t + d) s st

namespace Outline

variable {O : Object σ μ κ ρ} {E : Object.Env σ μ κ} {inv : Nat → σ → Prop}
  {loc : Nat → Nat → σ → Status κ ρ → Prop}

/-- One label keeps the invariant and every assertion. -/
theorem exec (P : Outline O E inv loc) {c : Pool σ κ ρ} (h : Holds inv loc c) {l : Label μ}
    (ok : Object.Permits E c l) : Holds inv loc (O.exec c l) := by
  obtain ⟨hi, hl⟩ := h
  cases l with
  | call m =>
    refine ⟨hi, fun i st hst => ?_⟩
    rcases Object.status_of_call hst with before | rfl
    · exact hl i st before
    · exact P.start i _ _ m ok hi
  | tick d => exact ⟨P.tick _ d _ hi, fun i st hst => P.tickLoc i _ d _ st hi (hl i st hst)⟩
  | step i =>
    rcases Object.exec_step_cases O c i with ⟨k, running⟩ | idle
    · have mine := hl i _ running
      obtain ⟨hi', hl'⟩ := P.own i _ _ k (ok k running) hi mine
      rw [Holds, Object.shared_exec running, Object.clock_exec running]
      refine ⟨hi', fun j st hst => ?_⟩
      rcases Object.status_of_step running hst with ⟨rfl, rfl⟩ | ⟨different, before⟩
      · exact hl'
      · exact P.other i j _ _ k st (Ne.symm different) (ok k running) hi mine (hl j st before)
    · rw [idle]; exact ⟨hi, hl⟩

/-- **Every schedule** within `E` keeps the invariant and every assertion. -/
theorem run (P : Outline O E inv loc) {c : Pool σ κ ρ} (h : Holds inv loc c) {ls : List (Label μ)}
    (ok : O.Along E c ls) : Holds inv loc (O.run c ls) := by
  induction ls generalizing c with
  | nil => exact h
  | cons l ls ih => exact ih (P.exec h ok.1) ok.2

/-- The invariant rule with the assertions of an outline at hand. -/
theorem keeps (P : Outline O E inv loc) {I : Pool σ κ ρ → Prop} (tick : ∀ c d, I c → I (O.exec c (.tick d)))
    (call : ∀ c m, E.calls m → I c → I (O.exec c (.call m)))
    (step : ∀ c i k, c.calls[i]? = some (.running k) → Holds inv loc c → I c → I (O.exec c (.step i)))
    {c : Pool σ κ ρ} (h : Holds inv loc c) (start : I c) {ls : List (Label μ)} (ok : O.Along E c ls) :
    I (O.run c ls) := by
  have both : Holds inv loc (O.run c ls) ∧ I (O.run c ls) := by
    refine Object.Every.run (I := fun c => Holds inv loc c ∧ I c) ?_ ?_ ?_ ok.every ⟨h, start⟩
    · exact fun c d before => ⟨P.exec before.1 trivial, tick c d before.2⟩
    · exact fun c m permitted before => ⟨P.exec before.1 permitted, call c m permitted before.2⟩
    · exact fun c i k running permitted before => ⟨P.exec before.1 permitted, step c i k running before.1 before.2⟩
  exact both.2

/-- What the own steps of one call keep of its status, given the invariant, holds after every schedule within `E`. -/
theorem run_call (P : Outline O E inv loc) {Q : Status κ ρ → Prop}
    (own : ∀ t s k, E.steps t s k → inv t s → Q (.running k) → Q (O.step t s k).2) {c : Pool σ κ ρ}
    (h : Holds inv loc c) {i : Nat} (now : ∃ st, c.calls[i]? = some st ∧ Q st) {ls : List (Label μ)}
    (ok : O.Along E c ls) : ∃ st, (O.run c ls).calls[i]? = some st ∧ Q st := by
  induction ls generalizing c with
  | nil => exact now
  | cons l ls ih =>
    refine ih (P.exec h ok.1) ?_ ok.2
    obtain ⟨st, at_i, holds⟩ := now
    by_cases mine : l.isStep i = true
    · obtain rfl := Label.eq_step_of_isStep mine
      rcases Object.exec_step_cases O c i with ⟨k, running⟩ | idle
      · cases at_i.symm.trans running
        exact ⟨_, Object.status_exec running, own _ _ k (ok.1 k running) h.1 holds⟩
      · rw [idle]
        exact ⟨st, at_i, holds⟩
    · exact ⟨st, Object.status_of_not_step at_i mine, holds⟩

/-- What every step emits, given the invariant and its call's assertion, everything emitted is. -/
theorem emitted_forall (P : Outline O E inv loc) {α : Type*} {emit : σ → κ → Option α} {Q : α → Prop}
    (each : ∀ i t s k a, E.steps t s k → inv t s → loc i t s (.running k) → emit s k = some a → Q a)
    {c : Pool σ κ ρ} (h : Holds inv loc c) {ls : List (Label μ)} (ok : O.Along E c ls) :
    ∀ a ∈ O.emitted emit c ls, Q a := by
  induction ls generalizing c with
  | nil => exact fun a mem => by cases mem
  | cons l ls ih =>
    intro a mem
    rcases List.mem_append.mp mem with first | later
    · have out := Option.mem_toList.mp first
      cases l with
      | call m => cases out
      | tick d => cases out
      | step i =>
        obtain ⟨k, running, emits⟩ := Object.emission_eq_some out
        exact each i _ _ k a (ok.1 k running) h.1 (h.2 i _ running) emits
    · exact ih (P.exec h ok.1) ok.2 a later

/-- **Calls end.** A call whose own steps lower a rank has returned once it has been given more steps than that, whatever
the others did in between. -/
theorem ends (P : Outline O E inv loc) (Q : Status κ ρ → Prop) (rank : κ → Nat)
    (own : ∀ t s k, E.steps t s k → inv t s → Q (.running k) →
      Q (O.step t s k).2 ∧ ∀ k', (O.step t s k).2 = .running k' → rank k' < rank k)
    {c : Pool σ κ ρ} (h : Holds inv loc c) {i : Nat} {k : κ} (now : c.calls[i]? = some (.running k))
    (holds : Q (.running k)) {ls : List (Label μ)} (ok : O.Along E c ls) (enough : rank k < ls.countP (Label.isStep i)) :
    ∃ r, (O.run c ls).calls[i]? = some (.done r) := by
  induction ls generalizing c k with
  | nil => cases enough
  | cons l ls ih =>
    have next := P.exec h ok.1
    by_cases mine : l.isStep i = true
    · obtain rfl := Label.eq_step_of_isStep mine
      obtain ⟨still, lower⟩ := own _ _ k (ok.1 k now) h.1 holds
      have status := Object.status_exec (O := O) now
      rw [List.countP_cons_of_pos mine] at enough
      cases result : (O.step c.clock c.shared k).2 with
      | done r =>
        rw [result] at status
        exact ⟨r, Object.done_run status ls⟩
      | running k' =>
        rw [result] at status still
        have less := lower k' result
        exact ih next status still ok.2 (by omega)
    · rw [List.countP_cons_of_neg mine] at enough
      exact ih next (Object.status_of_not_step now mine) holds ok.2 enough

end Outline

/-! ## Counting calls -/

/-- The number of calls that satisfy `p`. -/
def Pool.count (p : Status κ ρ → Bool) (c : Pool σ κ ρ) : Nat := c.calls.countP p

/-- A test that splits into two splits its count. -/
theorem Pool.count_add {p q r : Status κ ρ → Bool} {c : Pool σ κ ρ}
    (splits : ∀ st ∈ c.calls, (p st).toNat = (q st).toNat + (r st).toNat) : c.count p = c.count q + c.count r := by
  unfold Pool.count
  generalize c.calls = calls at splits
  induction calls with
  | nil => rfl
  | cons st rest ih =>
    have first := splits st List.mem_cons_self
    have others := ih fun st mem => splits st (List.mem_cons_of_mem _ mem)
    have each : ∀ f : Status κ ρ → Bool, (if f st = true then 1 else 0) = (f st).toNat := by
      intro f
      cases f st <;> rfl
    simp only [List.countP_cons, others, each]
    omega

section Count
variable {O : Object σ μ κ ρ} {c : Pool σ κ ρ} (p : Status κ ρ → Bool)

theorem count_call (m : μ) :
    (O.exec c (.call m)).count p = c.count p + (p (.running (O.start m))).toNat := by
  cases h : p (.running (O.start m)) <;> simp [Pool.count, h]

/-- **How a count changes when one call takes a step.** -/
theorem count_step {i : Nat} {k : κ} (running : c.calls[i]? = some (.running k)) :
    (O.exec c (.step i)).count p + (p (.running k)).toNat =
      c.count p + (p (O.step c.clock c.shared k).2).toNat := by
  obtain ⟨bound, value⟩ := List.getElem?_eq_some_iff.mp running
  have one : (p (.running k)).toNat ≤ c.count p := by
    cases h : p (.running k) with
    | false => exact Nat.zero_le _
    | true => exact List.countP_pos_iff.mpr ⟨_, List.mem_of_getElem? running, h⟩
  rw [Object.exec_running running]
  simp only [Pool.count] at one ⊢
  rw [List.countP_set bound, value]
  cases h : p (.running k) <;> cases h' : p (O.step c.clock c.shared k).2 <;>
    simp only [h, Bool.toNat_true, Bool.toNat_false, Bool.false_eq_true, if_true, if_false] at one ⊢ <;> omega

end Count

theorem countP_toList {α : Type*} (p : α → Bool) (out : Option α) : out.toList.countP p = (out.any p).toNat := by
  cases out with
  | none => rfl
  | some a => cases this : p a <;> simp [this]

/-- **What has come in is inside or has gone out.** Where a step that takes an item in or lets one out moves its call in
or out as well, the items in each run are accounted for. -/
theorem Outline.flow {α β : Type*} {O : Object σ μ κ ρ} {E : Object.Env σ μ κ} {inv : Nat → σ → Prop}
    {loc : Nat → Nat → σ → Status κ ρ → Prop} (P : Outline O E inv loc) (enter : σ → κ → Option α)
    (leave : σ → κ → Option β) (p : α → Bool) (q : β → Bool) (inside : Status κ ρ → Bool)
    (outside : ∀ m, inside (.running (O.start m)) = false)
    (moves : ∀ i t s k, E.steps t s k → inv t s → loc i t s (.running k) →
      (inside (.running k)).toNat + ((enter s k).any p).toNat =
        (inside (O.step t s k).2).toNat + ((leave s k).any q).toNat)
    {c : Pool σ κ ρ} (h : Holds inv loc c) {ls : List (Label μ)} (ok : O.Along E c ls) :
    c.count inside + (O.emitted enter c ls).countP p = (O.run c ls).count inside + (O.emitted leave c ls).countP q := by
  induction ls generalizing c with
  | nil => rfl
  | cons l ls ih =>
    have rest := ih (P.exec h ok.1) ok.2
    have first : c.count inside + (Object.emission enter c l).toList.countP p =
        (O.exec c l).count inside + (Object.emission leave c l).toList.countP q := by
      cases l with
      | tick d => rfl
      | call m =>
        rw [count_call, outside]
        rfl
      | step i =>
        rcases at_i : c.calls[i]? with _ | ⟨k⟩ | ⟨r⟩
        · simp only [Object.emission, Object.exec, at_i]
          rfl
        · have counted := count_step (O := O) inside at_i
          have moved := moves i _ _ k (ok.1 k at_i) h.1 (h.2 i _ at_i)
          rw [Object.emission_running at_i, Object.emission_running at_i, countP_toList, countP_toList]
          omega
        · simp only [Object.emission, Object.exec, at_i]
          rfl
    simp only [Object.emitted, List.countP_append, Object.run_cons]
    omega

/-- What has come in is inside, where nothing goes out. -/
theorem Outline.arrivals {α : Type*} {O : Object σ μ κ ρ} {E : Object.Env σ μ κ} {inv : Nat → σ → Prop}
    {loc : Nat → Nat → σ → Status κ ρ → Prop} (P : Outline O E inv loc) (enter : σ → κ → Option α) (p : α → Bool)
    (inside : Status κ ρ → Bool) (outside : ∀ m, inside (.running (O.start m)) = false)
    (moves : ∀ i t s k, E.steps t s k → inv t s → loc i t s (.running k) →
      (inside (.running k)).toNat + ((enter s k).any p).toNat = (inside (O.step t s k).2).toNat)
    {c : Pool σ κ ρ} (h : Holds inv loc c) {ls : List (Label μ)} (ok : O.Along E c ls) :
    c.count inside + (O.emitted enter c ls).countP p = (O.run c ls).count inside := by
  have flows := P.flow enter enter p (fun _ => false) inside outside ?_ h ok
  · rw [flows]
    simp
  · intro i t s k permitted holds mine
    rw [moves i t s k permitted holds mine]
    simp

/-! ## Calls that nothing interleaves with -/

/-- From shared state `s` the call at `k` takes all its steps at time `t` and ends in `s'`
with result `r`. -/
inductive Solo (O : Object σ μ κ ρ) (t : Nat) : σ → κ → σ → ρ → Prop where
  | ret {s s' : σ} {k : κ} {r : ρ} (step : O.step t s k = (s', .done r)) : Solo O t s k s' r
  | next {s s' s'' : σ} {k k' : κ} {r : ρ} (step : O.step t s k = (s', .running k'))
      (rest : Solo O t s' k' s'' r) : Solo O t s k s'' r

theorem Solo.steps {O : Object σ μ κ ρ} {t : Nat} {s s' : σ} {k : κ} {r : ρ} (h : Solo O t s k s' r)
    (calls : List (Status κ ρ)) :
    ∃ n, O.run ⟨t, s, calls ++ [.running k]⟩ (List.replicate n (.step calls.length)) =
      ⟨t, s', calls ++ [.done r]⟩ := by
  induction h with
  | ret step =>
    refine ⟨1, ?_⟩
    simp [Object.exec, step]
  | next step _ ih =>
    obtain ⟨n, rest⟩ := ih
    refine ⟨n + 1, ?_⟩
    rw [List.replicate_succ, Object.run_cons, ← rest]
    simp [Object.exec, step]

/-- **A call alone** in a pool runs as its solo run. -/
theorem Solo.run {O : Object σ μ κ ρ} {c : Pool σ κ ρ} {m : μ} {s' : σ} {r : ρ}
    (h : Solo O c.clock c.shared (O.start m) s' r) :
    ∃ n, O.run c (.call m :: List.replicate n (.step c.calls.length)) =
      { c with shared := s', calls := c.calls ++ [.done r] } := by
  obtain ⟨n, steps⟩ := h.steps c.calls
  exact ⟨n, steps⟩

/-- **Histories are schedules.** When every call alone computes the sequential `f`, any list of calls
at non-decreasing times is what some schedule does, with the same final state and the same answers. -/
theorem Solo.history {ι ο : Type*} {O : Object σ μ κ ρ} {f : ι → σ → ο × σ} (time : ι → Nat) (method : ι → μ)
    (out : ρ → ο) (alone : ∀ i s, ∃ r, out r = (f i s).1 ∧ Solo O (time i) s (O.start (method i)) (f i s).2 r)
    (is : List ι) {c : Pool σ κ ρ} (ordered : (c.clock :: is.map time).IsChain (· ≤ ·)) :
    ∃ (labels : List (Label μ)) (replies : List ρ), O.run c labels = ⟨(is.map time).getLastD c.clock, Transducer.run f c.shared is,
        c.calls ++ replies.map .done⟩ ∧ replies.map out = Transducer.trace f c.shared is := by
  induction is generalizing c with
  | nil => exact ⟨[], [], by simp, rfl⟩
  | cons i is ih =>
    obtain ⟨le, rest⟩ := List.isChain_cons_cons.mp ordered
    obtain ⟨r, answer, solo⟩ := alone i c.shared
    -- wait for the time of the call, let it run alone, and go on from there
    have waited : O.exec c (.tick (time i - c.clock)) = { c with clock := time i } := by
      rw [Object.exec_tick, Nat.add_sub_cancel' le]
    obtain ⟨n, steps⟩ := Solo.run (c := { c with clock := time i }) (m := method i) solo
    obtain ⟨labels, replies, reached, answers⟩ := ih (c := ⟨time i, (f i c.shared).2, c.calls ++ [.done r]⟩) rest
    refine ⟨.tick (time i - c.clock) :: (.call (method i) :: List.replicate n (.step c.calls.length)) ++ labels,
      r :: replies, ?_, ?_⟩
    · rw [List.cons_append, Object.run_cons, waited, Object.run_append, steps, reached]
      simp only [List.map_cons, List.getLastD_cons, Transducer.run_cons, List.append_assoc, List.singleton_append]
    · rw [List.map_cons, answer, answers, Transducer.trace_cons]

end Conc
