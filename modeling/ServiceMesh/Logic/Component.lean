import ServiceMesh.Logic.Pool
import Mathlib.Data.List.Perm.Basic

/-!
# A shared object inside another

The steps of an object `O` may be, among other things, the steps of an object `P` that its state contains: `get` is the
state of `P` in that of `O`, and `inside` the control state of `P` that a call of `O` is at, when it is in one of the
methods of `P` (`Component`). Then whatever the calls of `O` do together, they do to the part what a schedule of `P` does,
with the same methods of `P` in progress at every moment (`Component.run`): what holds of `P` under every schedule holds of
the part.
-/

namespace Conc

variable {σ μ κ ρ σ' μ' κ' ρ' : Type*}

/-- The control state of a call that has not ended. -/
def Status.inProgress : Status κ ρ → Option κ
  | .running k => some k
  | .done _ => none

/-- The calls in progress in a part, in the order of their start. -/
def Pool.inside (inside : κ → Option κ') (c : Pool σ κ ρ) : List κ' :=
  c.calls.filterMap fun st => st.inProgress.bind inside

/-- The calls in progress. -/
def Pool.inProgress (c : Pool σ κ ρ) : List κ := c.inside some

theorem Pool.mem_inside {inside : κ → Option κ'} {c : Pool σ κ ρ} {k' : κ'} :
    k' ∈ c.inside inside ↔ ∃ (i : Nat) (k : κ), c.calls[i]? = some (.running k) ∧ inside k = some k' := by
  rw [Pool.inside, List.mem_filterMap]
  constructor
  · rintro ⟨st, mem, into⟩
    obtain ⟨i, at_i⟩ := List.getElem?_of_mem mem
    cases st with
    | running k => exact ⟨i, k, at_i, into⟩
    | done r => cases into
  · rintro ⟨i, k, running, into⟩
    exact ⟨_, List.mem_of_getElem? running, into⟩

/-- What replacing an element does to a list of results. -/
theorem filterMap_set_perm {α β : Type*} (f : α → Option β) {l : List α} {i : Nat} {old : α} (at_i : l[i]? = some old)
    (new : α) : ((f old).toList ++ (l.set i new).filterMap f).Perm ((f new).toList ++ l.filterMap f) := by
  induction l generalizing i with
  | nil => cases at_i
  | cons x l ih =>
    have split : ∀ (y : α) (l' : List α), (y :: l').filterMap f = (f y).toList ++ l'.filterMap f := by
      intro y l'
      rw [List.filterMap_cons]
      cases f y <;> rfl
    cases i with
    | zero =>
      cases at_i
      rw [List.set_cons_zero, split, split]
      exact List.perm_append_comm_assoc _ _ _
    | succ i =>
      have rest : ((f old).toList ++ (l.set i new).filterMap f).Perm ((f new).toList ++ l.filterMap f) := ih at_i
      rw [List.set_cons_succ, split, split]
      calc (f old).toList ++ ((f x).toList ++ (l.set i new).filterMap f)
          _ |>.Perm ((f x).toList ++ ((f old).toList ++ (l.set i new).filterMap f)) := List.perm_append_comm_assoc _ _ _
          _ |>.Perm ((f x).toList ++ ((f new).toList ++ l.filterMap f)) := rest.append_left _
          _ |>.Perm ((f new).toList ++ ((f x).toList ++ l.filterMap f)) := List.perm_append_comm_assoc _ _ _

/-- How one step changes what is in progress in a part. -/
theorem inside_step {O : Object σ μ κ ρ} (inside : κ → Option κ') {c : Pool σ κ ρ} {i : Nat} {k : κ}
    (running : c.calls[i]? = some (.running k)) :
    ((inside k).toList ++ (O.exec c (.step i)).inside inside).Perm
      (((O.step c.clock c.shared k).2.inProgress.bind inside).toList ++ c.inside inside) := by
  rw [Pool.inside, Object.exec_running running]
  exact filterMap_set_perm (fun st : Status κ ρ => st.inProgress.bind inside) running _

theorem inside_call (O : Object σ μ κ ρ) (inside : κ → Option κ') (c : Pool σ κ ρ) (m : μ) :
    (O.exec c (.call m)).inside inside = c.inside inside ++ (inside (O.start m)).toList := by
  rw [Pool.inside, Object.exec_call, List.filterMap_append, ← Pool.inside, List.filterMap_cons, List.filterMap_nil,
    Status.inProgress, Option.bind_some]
  cases inside (O.start m) <;> rfl

/-- Outside the part, or at the start of one of its methods in `calls`. -/
def Entered (P : Object σ' μ' κ' ρ') (calls : μ' → Prop) (inside : κ → Option κ') (st : Status κ ρ) : Prop :=
  ∀ k', st.inProgress.bind inside = some k' → ∃ m, calls m ∧ k' = P.start m

/-- `P` is a part of `O`, of which only the methods in `calls` are called, where the invariant and the assertions hold. -/
structure Component (O : Object σ μ κ ρ) (P : Object σ' μ' κ' ρ') (calls : μ' → Prop) (get : σ → σ')
    (inside : κ → Option κ') (inv : Nat → σ → Prop) (loc : Nat → Nat → σ → Status κ ρ → Prop) : Prop where
  start : ∀ m, Entered P calls inside (.running (O.start m) : Status κ ρ)
  without : ∀ i t s k, inv t s → loc i t s (.running k) → inside k = none →
    get (O.step t s k).1 = get s ∧ Entered P calls inside (O.step t s k).2
  within : ∀ i t s k k', inv t s → loc i t s (.running k) → inside k = some k' →
    get (O.step t s k).1 = (P.step t (get s) k').1 ∧
    ((O.step t s k).2.inProgress.bind inside = (P.step t (get s) k').2.inProgress ∨
      (P.step t (get s) k').2.inProgress = none ∧ Entered P calls inside (O.step t s k).2)

/-- The part of `c` is at the state of `c'`, with the same methods in progress. -/
structure Projects (get : σ → σ') (inside : κ → Option κ') (c : Pool σ κ ρ) (c' : Pool σ' κ' ρ') : Prop where
  clock : c'.clock = c.clock
  shared : c'.shared = get c.shared
  calls : (c.inside inside).Perm c'.inProgress

namespace Component

variable {O : Object σ μ κ ρ} {P : Object σ' μ' κ' ρ'} {calls : μ' → Prop} {get : σ → σ'} {inside : κ → Option κ'}
  {inv : Nat → σ → Prop} {loc : Nat → Nat → σ → Status κ ρ → Prop}

/-- A call that may have entered is followed by a call of the part. -/
theorem enter {c : Pool σ κ ρ} {c' : Pool σ' κ' ρ'} {st : Status κ ρ} (clock : c'.clock = c.clock)
    (shared : c'.shared = get c.shared) (entered : Entered P calls inside st)
    (calls_perm : (c.inside inside).Perm ((st.inProgress.bind inside).toList ++ c'.inProgress)) :
    ∃ ls', (∀ m, .call m ∈ ls' → calls m) ∧ Projects get inside c (P.run c' ls') := by
  cases into : st.inProgress.bind inside with
  | none =>
    rw [into] at calls_perm
    exact ⟨[], fun m called => absurd called List.not_mem_nil, clock, shared, calls_perm⟩
  | some k' =>
    rw [into] at calls_perm
    obtain ⟨m, allowed, rfl⟩ := entered k' into
    refine ⟨[.call m], fun m' called => ?_, clock, shared, calls_perm.trans ?_⟩
    · cases List.mem_singleton.mp called
      exact allowed
    · have added : (P.run c' [.call m]).inProgress = c'.inProgress ++ [P.start m] := inside_call P some c' m
      rw [added]
      exact List.perm_append_comm

/-- A step of the whole that is one of the part. -/
theorem advance {c : Pool σ κ ρ} {c' : Pool σ' κ' ρ'} (same : Projects get inside c c') {i : Nat} {k : κ} {k' : κ'}
    (running : c.calls[i]? = some (.running k)) (at_k : inside k = some k')
    (state : get (O.step c.clock c.shared k).1 = (P.step c.clock (get c.shared) k').1)
    (next : (O.step c.clock c.shared k).2.inProgress.bind inside = (P.step c.clock (get c.shared) k').2.inProgress ∨
      (P.step c.clock (get c.shared) k').2.inProgress = none ∧ Entered P calls inside (O.step c.clock c.shared k).2) :
    ∃ ls', (∀ m, .call m ∈ ls' → calls m) ∧ Projects get inside (O.exec c (.step i)) (P.run c' ls') := by
  -- the same method is in progress in the part
  obtain ⟨n, _, at_n, here⟩ := Pool.mem_inside.mp (same.calls.subset (Pool.mem_inside.mpr ⟨i, k, running, at_k⟩))
  cases here
  have whole := inside_step (O := O) inside running
  have part := inside_step (O := P) some at_n
  rw [at_k] at whole
  rw [same.clock, same.shared] at part
  have clock : (P.exec c' (.step n)).clock = (O.exec c (.step i)).clock := by
    rw [Object.clock_exec at_n, Object.clock_exec running, same.clock]
  have shared : (P.exec c' (.step n)).shared = get (O.exec c (.step i)).shared := by
    rw [Object.shared_exec at_n, Object.shared_exec running, same.clock, same.shared, state]
  rcases next with still | ⟨ended, entered⟩
  · refine ⟨[.step n], fun m called => (by cases List.mem_singleton.mp called), clock, shared, ?_⟩
    rw [still] at whole
    rw [Option.bind_fun_some] at part
    exact (List.perm_append_left_iff [k']).mp (whole.trans ((same.calls.append_left _).trans part.symm))
  · rw [ended] at part
    have left : ((O.exec c (.step i)).inside inside).Perm
        (((O.step c.clock c.shared k).2.inProgress.bind inside).toList ++ (P.exec c' (.step n)).inProgress) := by
      refine (List.perm_append_left_iff [k']).mp (whole.trans ?_)
      exact ((same.calls.trans part.symm).append_left _).trans (List.perm_append_comm_assoc _ _ _)
    obtain ⟨ls', allowed, projects⟩ := enter clock shared entered left
    refine ⟨.step n :: ls', fun m called => allowed m ?_, projects⟩
    rcases List.mem_cons.mp called with first | later
    · cases first
    · exact later

/-- **One label** of the whole is a schedule of the part. -/
theorem exec (C : Component O P calls get inside inv loc) {c : Pool σ κ ρ} {c' : Pool σ' κ' ρ'} (h : Holds inv loc c)
    (same : Projects get inside c c') (l : Label μ) :
    ∃ ls', (∀ m, .call m ∈ ls' → calls m) ∧ Projects get inside (O.exec c l) (P.run c' ls') := by
  cases l with
  | tick d =>
    refine ⟨[.tick d], fun m called => ?_, ?_⟩
    · cases List.mem_singleton.mp called
    · exact ⟨congrArg (· + d) same.clock, same.shared, same.calls⟩
  | call m =>
    refine enter same.clock same.shared (C.start m) ?_
    rw [inside_call]
    exact List.perm_append_comm.trans (same.calls.append_left _)
  | step i =>
    rcases Object.exec_step_cases O c i with ⟨k, running⟩ | idle
    · have mine := h.2 i _ running
      cases at_k : inside k with
      | none =>
        obtain ⟨state, entered⟩ := C.without i c.clock c.shared k h.1 mine at_k
        have whole := inside_step (O := O) inside running
        rw [at_k] at whole
        refine enter (same.clock.trans (Object.clock_exec running).symm) ?_ entered (whole.trans (same.calls.append_left _))
        rw [Object.shared_exec running, state, same.shared]
      | some k' =>
        obtain ⟨state, next⟩ := C.within i c.clock c.shared k k' h.1 mine at_k
        exact advance same running at_k state next
    · rw [idle]
      exact ⟨[], fun m called => absurd called List.not_mem_nil, same⟩

/-- **Any schedule of the whole** is a schedule of the part. -/
theorem run (C : Component O P calls get inside inv loc) {E : Object.Env σ μ κ} (A : Outline O E inv loc) {c : Pool σ κ ρ}
    {c' : Pool σ' κ' ρ'} (h : Holds inv loc c) (same : Projects get inside c c') {ls : List (Label μ)} (ok : O.Along E c ls) :
    ∃ ls', (∀ m, .call m ∈ ls' → calls m) ∧ Projects get inside (O.run c ls) (P.run c' ls') := by
  induction ls generalizing c c' with
  | nil => exact ⟨[], fun m called => absurd called List.not_mem_nil, same⟩
  | cons l ls ih =>
    obtain ⟨first, allowed, projects⟩ := C.exec h same l
    obtain ⟨rest, allowed', projects'⟩ := ih (A.exec h ok.1) projects ok.2
    refine ⟨first ++ rest, fun m called => ?_, ?_⟩
    · rcases List.mem_append.mp called with early | late
      · exact allowed m early
      · exact allowed' m late
    · rw [Object.run_append]
      exact projects'

end Component

end Conc
