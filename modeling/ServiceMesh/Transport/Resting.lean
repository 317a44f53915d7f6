import ServiceMesh.Transport.Breakers
import ServiceMesh.Transport.Routing

/-!
# Open endpoints get no traffic

From a moment at which the breaker of an endpoint is open and no call is inside it, whatever goes on in the transport is to
the breaker a schedule of its own from a state of rest (`Shadows.run`, `CircuitBreaker.resting_outline`): until the timeout
after the failure on record every call inside is one that it turns away. What a `select` returns has let it in at a step of
its own (`knows_run`); so for an endpoint at rest that step lies before the rest began.
-/

namespace ServiceMesh.Transport

open Conc Object

/-- The breaker of `e` has been open since a failure at `u` or later, and lets in none of the calls that are inside. -/
structure AtRest (e u : Nat) (c : Tasks) : Prop where
  opened : (c.shared.heap e).circuitBreaker.state = .Open
  recorded : ∃ v, u ≤ v ∧ (c.shared.heap e).circuitBreaker.lastFailureTime = some v
  inside : ∀ k ∈ c.inside (inBreaker e), CircuitBreaker.Resting u (.running k)

section
variable {now e u : Nat} {ls : List (Label Method)}

/-- The times on record are of the past, and the timeout is the default one. -/
theorem breaker_frame (now : Nat) (ls : List (Label Method)) (e : Nat) :
    (∀ u ∈ ((shared.run (fresh now) ls).shared.heap e).circuitBreaker.lastFailureTime,
      u ≤ (shared.run (fresh now) ls).clock) ∧
    ((shared.run (fresh now) ls).shared.heap e).circuitBreaker.config = .default := by
  obtain ⟨ls', -, clock, state, -⟩ := shadows_run now ls e
  have past := ((CircuitBreaker.recorded_outline fun _ => True).run (c := CircuitBreaker.fresh .default)
    (.of_no_calls fun _ none => by cases none) (along_calls fun m (_ : .call m ∈ ls') => trivial)).1
  rw [← state, ← clock]
  exact ⟨past, CircuitBreaker.config_run .default ls'⟩

/-- **The rest lasts** until thirty seconds after the failure on record, whatever is called in the meantime. -/
theorem atRest_run (nobody : (shared.run (fresh now) ls).inside (inBreaker e) = [])
    (opened : ((shared.run (fresh now) ls).shared.heap e).circuitBreaker.state = .Open)
    (recorded : ((shared.run (fresh now) ls).shared.heap e).circuitBreaker.lastFailureTime = some u)
    (ks : List (Label Method)) (early : (shared.run (fresh now) (ls ++ ks)).clock < u + 30 * 10 ^ 9) :
    AtRest e u (shared.run (fresh now) (ls ++ ks)) := by
  obtain ⟨past, config⟩ := breaker_frame now ls e
  rw [run_append] at early ⊢
  -- the breaker by itself, with nothing in progress
  have quiet : Shadows e (shared.run (fresh now) ls)
      ⟨(shared.run (fresh now) ls).clock, ((shared.run (fresh now) ls).shared.heap e).circuitBreaker, []⟩ := by
    refine ⟨rfl, rfl, ?_⟩
    rw [nobody]
    exact List.Perm.refl []
  obtain ⟨ks', used, clock, state, inside⟩ := quiet.run (stands_run now ls) ks
  have rests := (CircuitBreaker.resting_outline (30 * 10 ^ 9) u).run
    (.of_no_calls ⟨past u recorded, congrArg (·.timeout) config, fun _ => ⟨opened, u, Nat.le_refl u, recorded⟩⟩)
    (along_calls used)
  rw [← clock] at early
  obtain ⟨still, v, since, time⟩ := rests.1.2.2 early
  refine ⟨state ▸ still, ⟨v, since, state ▸ time⟩, fun k mem => ?_⟩
  obtain ⟨i, k', running, same⟩ := Pool.mem_inside.mp (inside.subset mem)
  cases same
  exact rests.2 i _ running early

/-- At rest, nobody is let in. -/
theorem AtRest.not_asked {c : Tasks} (rest : AtRest e u c) (i : Nat) (l : Label Method) : ¬ Asked i true e c l := by
  rintro ⟨-, b, address, others, running⟩
  have inside : inBreaker e (.select b (.ask e (.ret .allowRequest (some true)) address others)) =
      some (.ret .allowRequest (some true)) := if_pos rfl
  have refused := rest.inside _ (Pool.mem_inside.mpr ⟨i, _, running, inside⟩)
  cases refused rfl

/-- What has happened by the end, but not in the second part, has happened in the first. -/
theorem past_of_append {ks : List (Label Method)} {P : Tasks → Label Method → Prop} (happened : Past now (ls ++ ks) P)
    (never : ∀ before l after, ks = before ++ l :: after → ¬ P (shared.run (fresh now) (ls ++ before)) l) :
    Past now ls P := by
  obtain ⟨before, l, after, split, holds⟩ := happened
  rcases List.append_eq_append_iff.mp split with ⟨early, rfl, late⟩ | ⟨rest, whole, late⟩
  · exact absurd holds (never early l after late)
  · cases rest with
    | nil =>
      rw [List.append_nil] at whole
      subst whole
      refine absurd ?_ (never [] l after late.symm)
      rw [List.append_nil]
      exact holds
    | cons first rest =>
      obtain ⟨rfl, -⟩ := List.cons.inj late
      exact ⟨before, l, rest, whole, holds⟩

end

/-- **An open endpoint rests**: from a moment at which its breaker is open with a failure at `u` on record and nobody is
inside, until thirty seconds after `u` and whatever all tasks do, the breaker stays open with a failure at `u` or later on
record, and a call that returns the endpoint was let in before that moment. -/
theorem endpoint_rests (now : Nat) (ls ks : List (Label Method)) (e u : Nat)
    (nobody : (shared.run (fresh now) ls).inside (inBreaker e) = [])
    (opened : ((shared.run (fresh now) ls).shared.heap e).circuitBreaker.state = .Open)
    (recorded : ((shared.run (fresh now) ls).shared.heap e).circuitBreaker.lastFailureTime = some u)
    (early : (shared.run (fresh now) (ls ++ ks)).clock < u + 30 * 10 ^ 9) :
    let c := shared.run (fresh now) (ls ++ ks)
    (c.shared.heap e).circuitBreaker.state = .Open ∧
    (∃ v, u ≤ v ∧ (c.shared.heap e).circuitBreaker.lastFailureTime = some v) ∧
    ∀ i, c.calls[i]? = some (.done (.endpoint (some e))) →
      i < (shared.run (fresh now) ls).calls.length ∧ Past now ls (Asked i true e) := by
  intro c
  have rest := atRest_run nobody opened recorded ks early
  refine ⟨rest.opened, rest.recorded, fun i ended => ?_⟩
  have asked : Past now (ls ++ ks) (Asked i true e) := by
    rcases knows_run now (ls ++ ks) ended with ⟨none, -⟩ | ⟨b, -, lb, -, -, known⟩
    · cases none
    · exact (known _ ⟨rfl, fun _ _ => rfl⟩).2.2
  have before : Past now ls (Asked i true e) := by
    refine past_of_append asked ?_
    rintro first l after rfl
    have sooner : (shared.run (fresh now) (ls ++ first)).clock < u + 30 * 10 ^ 9 := by
      have later := clock_le_run shared (shared.run (fresh now) (ls ++ first)) (l :: after)
      rw [← run_append, List.append_assoc] at later
      omega
    exact (atRest_run nobody opened recorded first sooner).not_asked i l
  refine ⟨?_, before⟩
  obtain ⟨first, l, after, rfl, -, b, address, others, running⟩ := before
  rw [run_append]
  exact Nat.lt_of_lt_of_le (List.getElem?_eq_some_iff.mp running).1 (length_le_run shared _ _)

/-- A selection from the opened endpoint's cluster, 29 seconds later. -/
def asking : List (Label Method) :=
  [.tick (29 * 10 ^ 9), .call (.selectEndpoint "api" 0)] ++ List.replicate 12 (.step 6)

theorem endpoint_rests_opened :
    (shared.run (fresh 0) (opening ++ asking)).calls[6]? = some (.done (.endpoint none)) ∧
      ((shared.run (fresh 0) (opening ++ asking)).shared.heap 0).circuitBreaker.state = .Open ∧
      ∀ i, (shared.run (fresh 0) (opening ++ asking)).calls[i]? = some (.done (.endpoint (some 0))) →
        i < (shared.run (fresh 0) opening).calls.length := by
  obtain ⟨still, -, only⟩ := endpoint_rests 0 opening asking 0 7 (by decide +kernel) (by decide +kernel) (by decide +kernel)
    (by decide +kernel)
  exact ⟨Pool.done_of_result (by decide +kernel), still, fun i ended => (only i ended).1⟩

end ServiceMesh.Transport
