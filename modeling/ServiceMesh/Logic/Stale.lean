import ServiceMesh.Logic.Pool

/-!
# Decisions on a value read earlier

A method that reads a cell of the shared state, decides, and stores into the cell later acts on
what the cell was. `Decides` says of an object which control states have such a decision in hand
and which of them store. A decision is current until another call stores: then it has been
overtaken, and the cell holds what the last such store left (`Decides.current_or_overtaken`).
So whatever can go wrong with stale decisions goes wrong in a schedule that `Overtaken` describes.
-/

namespace Conc

variable {σ μ κ ρ ν : Type*}

/-- `cell` is written by `stored` only, and a call that has `decided` on a value either sees it in
the cell in that step, or had decided on it before. -/
structure Decides (O : Object σ μ κ ρ) (cell : σ → ν) (stored decided : κ → Option ν) : Prop where
  start : ∀ m, decided (O.start m) = none
  cell_step : ∀ t s k, cell (O.step t s k).1 = (stored k).getD (cell s)
  step : ∀ t s k k' v, (O.step t s k).2 = .running k' → decided k' = some v →
    stored k = none ∧ (decided k = some v ∨ cell s = v)

/-- Steps that leave the cell alone. -/
def Quiet (stored : κ → Option ν) : Object.Env σ μ κ := ⟨fun _ => True, fun _ _ k => stored k = none⟩

/-- Call `i` had decided on `v` when call `j` stored `w`, and nothing was stored after that. -/
structure Overtaken (O : Object σ μ κ ρ) (stored decided : κ → Option ν) (c : Pool σ κ ρ)
    (before : List (Label μ)) (j : Nat) (rest : List (Label μ)) (i : Nat) (v w : ν) : Prop where
  decides : ∃ k, (O.run c before).calls[i]? = some (.running k) ∧ decided k = some v
  other : i ≠ j
  stores : ∃ k, (O.run c before).calls[j]? = some (.running k) ∧ stored k = some w
  quiet : O.Along (Quiet stored) (O.exec (O.run c before) (.step j)) rest

namespace Decides

variable {O : Object σ μ κ ρ} {cell : σ → ν} {stored decided : κ → Option ν} {c : Pool σ κ ρ}

theorem cell_exec (D : Decides O cell stored decided) {i : Nat} {k : κ}
    (running : c.calls[i]? = some (.running k)) :
    cell (O.exec c (.step i)).shared = (stored k).getD (cell c.shared) := by
  rw [Object.exec_running running]
  exact D.cell_step _ _ k

/-- Quiet steps keep the cell. -/
theorem cell_quiet (D : Decides O cell stored decided) {ls : List (Label μ)} (quiet : O.Along (Quiet stored) c ls) :
    cell (O.run c ls).shared = cell c.shared := by
  induction ls generalizing c with
  | nil => rfl
  | cons l ls ih =>
    rw [Object.run_cons, ih quiet.2]
    cases l with
    | call m => rfl
    | tick d => rfl
    | step i =>
      rcases Object.exec_step_cases O c i with ⟨k, running⟩ | idle
      · rw [D.cell_exec running, show stored k = none from quiet.1 k running, Option.getD_none]
      · rw [idle]

/-- The cell still holds what the overtaking call stored. -/
theorem cell_overtaken (D : Decides O cell stored decided) {before rest : List (Label μ)} {i j : Nat} {v w : ν}
    (h : Overtaken O stored decided c before j rest i v w) :
    cell (O.run c (before ++ .step j :: rest)).shared = w := by
  obtain ⟨k, running, stores⟩ := h.stores
  rw [Object.run_append, Object.run_cons, D.cell_quiet h.quiet, D.cell_exec running, stores, Option.getD_some]

end Decides

theorem Overtaken.snoc {O : Object σ μ κ ρ} {stored decided : κ → Option ν} {c : Pool σ κ ρ}
    {before rest : List (Label μ)} {i j : Nat} {v w : ν} (h : Overtaken O stored decided c before j rest i v w)
    {l : Label μ} (quiet : Object.Permits (Quiet stored) (O.run c (before ++ .step j :: rest)) l) :
    Overtaken O stored decided c before j (rest ++ [l]) i v w := by
  refine ⟨h.decides, h.other, h.stores, Object.along_append.mpr ⟨h.quiet, ?_, trivial⟩⟩
  rw [Object.run_append, Object.run_cons] at quiet
  exact quiet

/-- A decision is current, or it has been overtaken by what is in the cell. -/
def CurrentOrOvertaken (O : Object σ μ κ ρ) (cell : σ → ν) (stored decided : κ → Option ν) (c : Pool σ κ ρ)
    (ls : List (Label μ)) (i : Nat) (v : ν) : Prop :=
  cell (O.run c ls).shared = v ∨
    ∃ before j rest w, ls = before ++ .step j :: rest ∧ Overtaken O stored decided c before j rest i v w

/-- A step that stores nothing changes neither. -/
theorem CurrentOrOvertaken.snoc {O : Object σ μ κ ρ} {cell : σ → ν} {stored decided : κ → Option ν}
    (D : Decides O cell stored decided) {c : Pool σ κ ρ} {ls : List (Label μ)} {i : Nat} {v : ν}
    (h : CurrentOrOvertaken O cell stored decided c ls i v) {l : Label μ}
    (quiet : Object.Permits (Quiet stored) (O.run c ls) l) :
    CurrentOrOvertaken O cell stored decided c (ls ++ [l]) i v := by
  rcases h with current | ⟨before, j, rest, w, rfl, passed⟩
  · refine .inl ?_
    have kept : O.Along (Quiet stored) (O.run c ls) [l] := ⟨quiet, trivial⟩
    rw [Object.run_append, D.cell_quiet kept, current]
  · exact .inr ⟨before, j, rest ++ [l], w, by simp, passed.snoc quiet⟩

/-- **Stale decisions were overtaken.** In every schedule from a pool without calls. -/
theorem Decides.current_or_overtaken {O : Object σ μ κ ρ} {cell : σ → ν} {stored decided : κ → Option ν}
    (D : Decides O cell stored decided) {c : Pool σ κ ρ} (empty : c.calls = []) (ls : List (Label μ)) {i : Nat} {k : κ} {v : ν}
    (running : (O.run c ls).calls[i]? = some (.running k)) (holds : decided k = some v) :
    CurrentOrOvertaken O cell stored decided c ls i v := by
  induction ls using List.reverseRecOn generalizing i k with
  | nil =>
    rw [Object.run_nil, empty] at running
    cases running
  | append_singleton ls l ih =>
    have ran : O.run c (ls ++ [l]) = O.exec (O.run c ls) l := by simp
    rw [ran] at running
    cases l with
    | tick d => exact (ih running holds).snoc D trivial
    | call m =>
      rcases Object.status_of_call running with before | begun
      · exact (ih before holds).snoc D trivial
      · -- a call that has just begun has decided nothing
        cases begun
        rw [D.start m] at holds
        cases holds
    | step j =>
      by_cases idle : ∃ kj, (O.run c ls).calls[j]? = some (.running kj)
      · obtain ⟨kj, stepping⟩ := idle
        have permitted : stored kj = none → Object.Permits (Quiet stored) (O.run c ls) (.step j : Label μ) := by
          intro silent k' at_k'
          rw [stepping] at at_k'
          cases at_k'
          exact silent
        rcases Object.status_of_step stepping running with ⟨rfl, result⟩ | ⟨other, before⟩
        · -- its own step: it decides now, or it had decided and keeps quiet
          obtain ⟨silent, earlier⟩ := D.step _ _ kj k v result.symm holds
          rcases earlier with before | now
          · exact (ih stepping before).snoc D (permitted silent)
          · exact CurrentOrOvertaken.snoc D (.inl now) (permitted silent)
        · cases stores : stored kj with
          | none => exact (ih before holds).snoc D (permitted stores)
          | some w => exact .inr ⟨ls, j, [], w, rfl, ⟨k, before, holds⟩, other, ⟨kj, stepping, stores⟩, trivial⟩
      · rw [(Object.exec_step_cases O (O.run c ls) j).resolve_left idle] at running
        exact (ih running holds).snoc D fun k' at_k' => absurd ⟨k', at_k'⟩ idle

end Conc
