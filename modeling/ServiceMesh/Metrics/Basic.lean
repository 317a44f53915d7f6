import Mathlib.Algebra.BigOperators.Group.List.Basic
import Mathlib.Data.UInt

/-!
# Metrics (`metrics.rs`)

A `Family` keeps one metric for each set of labels that has been used, and makes it on first use. `record_request`
holds the lock on the metrics from its first update to its last, so it is one step for everybody else. A counter has
64 bits and wraps. Of a histogram there are the calls of `observe` made on it: what it exports, a sum, a count and the
buckets, is computed from them outside.
-/

namespace ServiceMesh

/-- `HttpLabels`. -/
structure HttpLabels where
  method : String
  status : String
  upstream : String
deriving Repr, DecidableEq

/-- `prometheus_client`'s `Family`: the metrics made so far, each under its labels. -/
abbrev Family (L V : Type) := List (L × V)

namespace Family

variable {L V : Type} [DecidableEq L]

/-- `get_or_create(labels)`, and an update of the metric. -/
def update (labels : L) (fresh : V) (f : V → V) : Family L V → Family L V
  | [] => [(labels, f fresh)]
  | (l, v) :: rest => if l = labels then (l, f v) :: rest else (l, v) :: update labels fresh f rest

/-- `get_or_create(labels).inc()`. -/
def inc (labels : L) (family : Family L UInt64) : Family L UInt64 := family.update labels 0 (· + 1)

/-- The sum of the counters over all labels. -/
def total (family : Family L UInt64) : Nat := (family.map (·.2.toNat)).sum

/-- The counters together hold `n`, but for the times that one of them went round. -/
def Tallies (family : Family L UInt64) (n : Nat) : Prop := ∃ rounds, family.total + rounds * 2 ^ 64 = n

end Family

/-- `prometheus_client`'s `Histogram`, by the calls of `observe` made on it, the durations in nanoseconds. -/
abbrev Histogram := List Nat

def Histogram.observe (duration : Nat) (calls : Histogram) : Histogram := calls ++ [duration]

/-- The metrics that requests are recorded in. -/
structure Metrics where
  requestsTotal : Family HttpLabels UInt64
  requestDurationSeconds : Family HttpLabels Histogram
  errorsTotal : Family HttpLabels UInt64
deriving Repr, DecidableEq

/-- The arguments of `Metrics::record_request`. -/
structure RequestRecord where
  method : String
  status : UInt16
  upstream : String
  duration : Nat
deriving Repr, DecidableEq

namespace Metrics

def new : Metrics := { requestsTotal := [], requestDurationSeconds := [], errorsTotal := [] }

def labels (r : RequestRecord) : HttpLabels :=
  { method := r.method, status := toString r.status, upstream := r.upstream }

/-- `record_request`; the lock is not poisoned. -/
def recordRequest (r : RequestRecord) (m : Metrics) : Metrics :=
  let m := { m with
    requestsTotal := m.requestsTotal.inc (labels r)
    requestDurationSeconds := m.requestDurationSeconds.update (labels r) [] (Histogram.observe r.duration) }
  if r.status ≥ 400 then { m with errorsTotal := m.errorsTotal.inc (labels r) } else m

end Metrics

/-! ## Totals -/

namespace Family

variable {L : Type} [DecidableEq L]

omit [DecidableEq L] in
theorem tallies_nil : Tallies ([] : Family L UInt64) 0 := ⟨0, rfl⟩

omit [DecidableEq L] in
theorem Tallies.exact {family : Family L UInt64} {n : Nat} (h : family.Tallies n) (few : n < 2 ^ 64) : family.total = n := by
  obtain ⟨rounds, sum⟩ := h
  have none : rounds = 0 := by omega
  rw [none, Nat.zero_mul, Nat.add_zero] at sum
  exact sum

/-- An increment is one more, and perhaps one more round. -/
theorem total_inc (labels : L) (family : Family L UInt64) :
    (family.inc labels).total = family.total + 1 ∨ (family.inc labels).total + 2 ^ 64 = family.total + 1 := by
  induction family with
  | nil => exact .inl rfl
  | cons entry rest ih =>
    obtain ⟨l, v⟩ := entry
    by_cases found : l = labels
    · have here : Family.inc labels ((l, v) :: rest) = (l, v + 1) :: rest := if_pos found
      have bound := v.toNat_lt
      rw [here]
      simp only [total, List.map_cons, List.sum_cons, UInt64.toNat_add, UInt64.toNat_one]
      omega
    · have later : Family.inc labels ((l, v) :: rest) = (l, v) :: Family.inc labels rest := if_neg found
      rw [later]
      simp only [total, List.map_cons, List.sum_cons] at ih ⊢
      omega

theorem Tallies.inc {family : Family L UInt64} {n : Nat} (h : family.Tallies n) (labels : L) :
    (family.inc labels).Tallies (n + 1) := by
  obtain ⟨rounds, sum⟩ := h
  rcases total_inc labels family with more | round
  · exact ⟨rounds, by omega⟩
  · exact ⟨rounds + 1, by omega⟩

end Family

end ServiceMesh
