import ServiceMesh.Transport.Basic
import Mathlib.Order.Bounds.Defs
import Mathlib.Tactic.FieldSimp
import Mathlib.Tactic.Linarith
import Mathlib.Tactic.Ring

/-!
# The average response time (`Endpoint::stats`)

`total_response_time_us` grows with every success, but `stats` divides it by `total_requests`, which counts the failures
too: a failure counts as an answer that took no time. So the average is pulled below the shortest time recorded as soon
as the failures weigh more than what the successes took beyond it (`average_within_iff`).
-/

namespace ServiceMesh

structure EndpointStats where
  totalRequests : UInt64
  successfulRequests : UInt64
  failedRequests : UInt64
  activeConnections : UInt64
  avgResponseTimeMs : ℚ
  isHealthy : Bool
deriving Repr, DecidableEq

/-- `Endpoint::with_weight`. -/
def Endpoint.withWeight (address : String) (weight : UInt64) : Endpoint := { Endpoint.new address with weight }

def Endpoint.stats (e : Endpoint) : EndpointStats :=
  let total := e.totalRequests
  let totalTime := e.totalResponseTimeUs
  let avgTime : ℚ := if total > 0 then (totalTime.toNat / total.toNat : ℚ) / 1000 else 0
  { totalRequests := total
    successfulRequests := e.successfulRequests
    failedRequests := e.failedRequests
    activeConnections := e.activeConnections
    avgResponseTimeMs := avgTime
    isHealthy := e.healthy }

/-- What is reported to an endpoint: a success that took so many microseconds, or a failure at a time. -/
inductive Report where
  | success (responseTimeUs : Nat)
  | failure (now : Nat)
deriving Repr, DecidableEq

def Endpoint.report (e : Endpoint) : Report → Endpoint
  | .success responseTimeUs => e.recordSuccess (responseTimeUs * 1000)
  | .failure now => e.recordFailure now

/-- The endpoint after the reports. -/
def Endpoint.reported (reports : List Report) (e : Endpoint) : Endpoint := reports.foldl Endpoint.report e

/-- The response times recorded, in microseconds. -/
def responseTimes (reports : List Report) : List Nat :=
  reports.filterMap fun
    | .success responseTimeUs => some responseTimeUs
    | .failure _ => none

/-- The number of failures reported. -/
def failures (reports : List Report) : Nat :=
  reports.countP fun
    | .success _ => false
    | .failure _ => true

theorem length_reports (reports : List Report) : (responseTimes reports).length + failures reports = reports.length := by
  induction reports with
  | nil => rfl
  | cons r reports ih =>
    cases r with
    | success t =>
      have times : responseTimes (.success t :: reports) = t :: responseTimes reports := rfl
      have failed : failures (.success t :: reports) = failures reports := List.countP_cons_of_neg Bool.false_ne_true
      rw [times, failed, List.length_cons, List.length_cons]
      omega
    | failure now =>
      have times : responseTimes (.failure now :: reports) = responseTimes reports := rfl
      have failed : failures (.failure now :: reports) = failures reports + 1 := List.countP_cons_of_pos rfl
      rw [times, failed, List.length_cons]
      omega

/-- A success adds its whole microseconds. -/
theorem report_success (t : Nat) (e : Endpoint) :
    (e.report (.success t)).totalResponseTimeUs = e.totalResponseTimeUs + UInt64.ofNat t := by
  have whole : t * 1000 / 1000 = t := Nat.mul_div_cancel t (by decide)
  rw [Endpoint.report, Endpoint.recordSuccess, whole]

/-- **What the reports add up to**: one request each, and the time of every success. -/
theorem reported_counters (reports : List Report) (e : Endpoint) :
    (e.reported reports).totalRequests = e.totalRequests + UInt64.ofNat reports.length ∧
      (e.reported reports).totalResponseTimeUs = e.totalResponseTimeUs + UInt64.ofNat (responseTimes reports).sum := by
  induction reports generalizing e with
  | nil => exact ⟨(UInt64.add_zero _).symm, (UInt64.add_zero _).symm⟩
  | cons r reports ih =>
    obtain ⟨requests, time⟩ := ih (e.report r)
    have one : UInt64.ofNat (reports.length + 1) = 1 + UInt64.ofNat reports.length := by
      rw [UInt64.ofNat_add, UInt64.add_comm]
      rfl
    refine ⟨?_, ?_⟩
    · rw [List.length_cons, one, ← UInt64.add_assoc]
      cases r <;> exact requests
    · cases r with
      | success t =>
        have times : responseTimes (.success t :: reports) = t :: responseTimes reports := rfl
        rw [times, List.sum_cons, UInt64.ofNat_add, ← UInt64.add_assoc, ← report_success]
        exact time
      | failure now => exact time

/-- The average of a new endpoint after reports whose times add up to no more than the counter holds. -/
theorem avgResponseTimeMs_reported (address : String) (weight : UInt64) {reports : List Report}
    (fits : (responseTimes reports).sum < 2 ^ 64) :
    ((Endpoint.withWeight address weight).reported reports).stats.avgResponseTimeMs =
      if 0 < reports.length % 2 ^ 64 then
        ((responseTimes reports).sum / (reports.length % 2 ^ 64 : Nat) : ℚ) / 1000
      else 0 := by
  obtain ⟨requests, time⟩ := reported_counters reports (.withWeight address weight)
  have requests' : ((Endpoint.withWeight address weight).reported reports).totalRequests = UInt64.ofNat reports.length :=
    requests.trans (UInt64.zero_add _)
  have time' : ((Endpoint.withWeight address weight).reported reports).totalResponseTimeUs =
      UInt64.ofNat (responseTimes reports).sum := time.trans (UInt64.zero_add _)
  rw [Endpoint.stats, requests', time']
  simp only [gt_iff_lt, UInt64.lt_iff_toNat_lt, UInt64.toNat_ofNat', UInt64.toNat_zero, Nat.mod_eq_of_lt fits]

/-- Every recorded time is between the smallest and the largest, and so is their sum. -/
theorem sum_between {times : List Nat} {lo hi : Nat} (least : ∀ t ∈ times, lo ≤ t) (greatest : ∀ t ∈ times, t ≤ hi) :
    (times.map (· - lo)).sum + lo * times.length = times.sum ∧ times.sum ≤ hi * times.length := by
  induction times with
  | nil => exact ⟨rfl, Nat.le_refl 0⟩
  | cons t times ih =>
    obtain ⟨split, bound⟩ := ih (fun u mem => least u (List.mem_cons_of_mem t mem))
      (fun u mem => greatest u (List.mem_cons_of_mem t mem))
    have low := least t List.mem_cons_self
    have high := greatest t List.mem_cons_self
    simp only [List.map_cons, List.sum_cons, List.length_cons, Nat.mul_succ]
    omega

/-- Two answers, of which one failed: the average is half of the only time recorded. -/
theorem failure_halves_average :
    let stats := ((Endpoint.new "http://localhost:8080").reported [.success 200000, .failure 0]).stats
    stats.avgResponseTimeMs = 100 ∧ ¬ (200000 / 1000 : ℚ) ≤ stats.avgResponseTimeMs := by
  decide +kernel

/-- The average of the statistics is between two times, given in microseconds. -/
def AverageWithin (lo hi : Nat) (stats : EndpointStats) : Prop :=
  (lo : ℚ) / 1000 ≤ stats.avgResponseTimeMs ∧ stats.avgResponseTimeMs ≤ (hi : ℚ) / 1000

/-- A quotient of whole numbers is between two others. -/
theorem quotient_within_iff {lo hi total n : Nat} (positive : 0 < n) :
    (lo : ℚ) / 1000 ≤ (total / n : ℚ) / 1000 ∧ (total / n : ℚ) / 1000 ≤ (hi : ℚ) / 1000 ↔ lo * n ≤ total ∧ total ≤ hi * n := by
  have cast : (0 : ℚ) < n := Nat.cast_pos.mpr positive
  rw [div_le_div_iff_of_pos_right (by norm_num), div_le_div_iff_of_pos_right (by norm_num), le_div_iff₀ cast,
    div_le_iff₀ cast]
  norm_cast

/-- **When the average is an average**: the failures, each taken for the smallest time, weigh no more than what the
successes took beyond it. From `2 ^ 64` reports on, when the count has wrapped, the same of the count that is left, and
then the largest time can be exceeded as well. -/
theorem average_within_iff (address : String) (weight : UInt64) (reports : List Report) {lo hi : Nat}
    (least : IsLeast {t | t ∈ responseTimes reports} lo) (greatest : IsGreatest {t | t ∈ responseTimes reports} hi)
    (fits : (responseTimes reports).sum < 2 ^ 64) :
    AverageWithin lo hi ((Endpoint.withWeight address weight).reported reports).stats ↔
      if reports.length < 2 ^ 64 then failures reports * lo ≤ ((responseTimes reports).map (· - lo)).sum
      else if reports.length % 2 ^ 64 = 0 then lo = 0
      else lo * (reports.length % 2 ^ 64) ≤ (responseTimes reports).sum ∧
        (responseTimes reports).sum ≤ hi * (reports.length % 2 ^ 64) := by
  obtain ⟨split, bound⟩ := sum_between (fun t mem => least.2 mem) (fun t mem => greatest.2 mem)
  have parts := length_reports reports
  have some : 0 < (responseTimes reports).length := List.length_pos_of_mem least.1
  rw [AverageWithin, avgResponseTimeMs_reported address weight fits]
  by_cases few : reports.length < 2 ^ 64
  · rw [if_pos few, Nat.mod_eq_of_lt few, if_pos (by omega), quotient_within_iff (by omega)]
    have all : hi * (responseTimes reports).length ≤ hi * reports.length := Nat.mul_le_mul_left hi (by omega)
    have weights : lo * reports.length = lo * (responseTimes reports).length + failures reports * lo := by
      rw [← parts, Nat.mul_add, Nat.mul_comm lo (failures reports)]
    omega
  · rw [if_neg few]
    by_cases wrapped : reports.length % 2 ^ 64 = 0
    · rw [if_pos wrapped, if_neg (by omega)]
      have nonneg : (0 : ℚ) ≤ hi / 1000 := div_nonneg (Nat.cast_nonneg hi) (by norm_num)
      constructor
      · rintro ⟨below, -⟩
        have zero : (lo : ℚ) ≤ 0 := by linarith
        exact Nat.le_zero.mp (by exact_mod_cast zero)
      · rintro rfl
        exact ⟨by simp, nonneg⟩
    · rw [if_neg wrapped, if_pos (Nat.pos_of_ne_zero wrapped), quotient_within_iff (Nat.pos_of_ne_zero wrapped)]

/-- The reports of a test: 100 ms, 200 ms and a failure make an average of 100 ms. -/
theorem average_within_iff_test :
    AverageWithin 100000 200000
      ((Endpoint.withWeight "http://localhost:8080" 100).reported [.success 100000, .success 200000, .failure 0]).stats := by
  have all : ∀ t ∈ responseTimes [.success 100000, .success 200000, .failure 0], 100000 ≤ t ∧ t ≤ 200000 := by decide
  have least : IsLeast {t | t ∈ responseTimes [.success 100000, .success 200000, .failure 0]} 100000 :=
    ⟨by decide, fun t mem => (all t mem).1⟩
  have greatest : IsGreatest {t | t ∈ responseTimes [.success 100000, .success 200000, .failure 0]} 200000 :=
    ⟨by decide, fun t mem => (all t mem).2⟩
  exact (average_within_iff _ _ _ least greatest (by decide)).mpr (by decide)

end ServiceMesh
