import Mathlib.Algebra.Order.BigOperators.Group.Finset
import Mathlib.Data.Finset.Max
import Mathlib.Data.Int.CardIntervalMod
import ServiceMesh.Logic.Pool

/-!
# Round robin on a counter that wraps

A counter modulo `M` hands out tickets, and a ticket reduced modulo `n` is a position. Up to a
wrap the positions go round, so over any window the positions differ by at most one in how often
they are picked. At a wrap the round starts again at position 0, wherever it stood, unless `n`
divides `M`: a window with one wrap in it is two windows without (`picks_fair`).

The tickets are taken by calls of a shared object, in any interleaving; their order is that of the
steps that take them (`emitted_fair`). Where several positions stand for one thing, it is picked once in each round for
each of them (`Fair.rounds`).
-/

namespace RoundRobin

/-- The positions of `m` tickets from `start` on. -/
def picks (M n start m : Nat) : List Nat := (List.range m).map fun k => (start + k) % M % n

/-- No two of the `n` positions are picked more than `d` times apart. -/
def Fair (d n : Nat) (picked : List Nat) : Prop := ∀ p < n, ∀ q < n, picked.count p ≤ picked.count q + d

instance (d n : Nat) (picked : List Nat) : Decidable (Fair d n picked) :=
  inferInstanceAs (Decidable (∀ p < n, ∀ q < n, picked.count p ≤ picked.count q + d))

/-- A window of picks from the counter reading `start` on is fair: within one if the counter does not wrap in it or `n`
divides `M`, within two if it wraps once; and `n` picks without a wrap are one of each position. -/
structure FairWindow (M n start : Nat) (picked : List Nat) : Prop where
  positions : ∀ p ∈ picked, p < n
  unwrapped : start + picked.length ≤ M → Fair 1 n picked
  aligned : n ∣ M → Fair 1 n picked
  wrapped : picked.length ≤ M → Fair 2 n picked
  once : picked.length = n → start + n ≤ M → ∀ p < n, picked.count p = 1

variable {M n : Nat}

@[simp] theorem length_picks (start m : Nat) : (picks M n start m).length = m := by
  simp [picks]

theorem picks_add (start m m' : Nat) : picks M n start (m + m') = picks M n start m ++ picks M n (start + m) m' := by
  simp [picks, List.range_add, Nat.add_assoc]

theorem picks_succ (start m : Nat) : picks M n start (m + 1) = start % M % n :: picks M n (start + 1) m := by
  rw [Nat.add_comm m 1, picks_add]
  rfl

/-- Only the counter's reading matters. -/
theorem picks_mod (start m : Nat) : picks M n (start % M) m = picks M n start m := by
  simp [picks]

theorem Fair.append {d d' : Nat} {picked picked' : List Nat} (first : Fair d n picked) (second : Fair d' n picked') :
    Fair (d + d') n (picked ++ picked') := by
  intro p hp q hq
  have := first p hp q hq
  have := second p hp q hq
  rw [List.count_append, List.count_append]
  omega

/-! ## One stretch without a wrap -/

/-- Positions of consecutive numbers. -/
def stretch (n start m : Nat) : List Nat := (List.range m).map fun k => (start + k) % n

theorem picks_of_fits {start m : Nat} (fits : start + m ≤ M) : picks M n start m = stretch n start m := by
  apply List.map_congr_left
  intro k mem
  have below : k < m := List.mem_range.mp mem
  rw [Nat.mod_eq_of_lt (show start + k < M by omega)]

theorem picks_of_dvd (dvd : n ∣ M) (start m : Nat) : picks M n start m = stretch n start m := by
  apply List.map_congr_left
  intro k _
  exact Nat.mod_mod_of_dvd _ dvd

/-- **How often a position is picked** in a stretch: the rounds completed, and one more or less at the ends. -/
theorem count_stretch {p : Nat} (lt : p < n) (start m : Nat) :
    (start / n + if p < start % n then 1 else 0) + (stretch n start m).count p =
      (start + m) / n + if p < (start + m) % n then 1 else 0 := by
  have pos : 0 < n := Nat.zero_lt_of_lt lt
  have upTo : ∀ b, Nat.count (fun k => k % n = p) b = b / n + if p < b % n then 1 else 0 := by
    intro b
    have counted := Nat.count_modEq_card b pos p
    simp only [Nat.ModEq, Nat.mod_eq_of_lt lt] at counted
    exact counted
  have here : (stretch n start m).count p = Nat.count (fun k => (start + k) % n = p) m := by
    rw [stretch, List.count, List.countP_map, Nat.count]
    apply List.countP_congr
    intro k _
    simp
  rw [here, ← upTo, ← upTo, Nat.count_add]

theorem fair_stretch (n start m : Nat) : Fair 1 n (stretch n start m) := by
  intro p hp q hq
  have first := count_stretch hp start m
  have second := count_stretch hq start m
  -- both ends cut one round in two: what lies before the cut is ahead, or what lies after
  split at first <;> split at first <;> split at second <;> split at second <;> omega

theorem count_round {p : Nat} (lt : p < n) (start : Nat) : (stretch n start n).count p = 1 := by
  have counted := count_stretch lt start n
  rw [Nat.add_mod_right, Nat.add_div_right _ (Nat.zero_lt_of_lt lt)] at counted
  omega

/-! ## A window -/

/-- One wrap cuts a window in two. -/
theorem fair_of_wrap {start m : Nat} (below : start < M) (le : m ≤ M) : Fair 2 n (picks M n start m) := by
  by_cases fits : start + m ≤ M
  · rw [picks_of_fits fits]
    intro p hp q hq
    have := fair_stretch n start m p hp q hq
    omega
  · obtain ⟨rest, split⟩ : ∃ rest, m = (M - start) + rest := ⟨m - (M - start), by omega⟩
    have restart : start + (M - start) = M := by omega
    have again : picks M n M rest = picks M n 0 rest := by
      rw [← picks_mod M, Nat.mod_self]
    rw [split, picks_add, restart, again, picks_of_fits (by omega), picks_of_fits (by omega)]
    exact (fair_stretch n start _).append (fair_stretch n 0 rest)

/-- **Every window of picks is fair.** -/
theorem picks_fair {start : Nat} (some : 0 < n) (below : start < M) (m : Nat) : FairWindow M n start (picks M n start m) where
  positions p mem := by
    obtain ⟨k, -, rfl⟩ := List.mem_map.mp mem
    exact Nat.mod_lt _ some
  unwrapped fits := by
    rw [length_picks] at fits
    rw [picks_of_fits fits]
    exact fair_stretch n start m
  aligned dvd := by
    rw [picks_of_dvd dvd]
    exact fair_stretch n start m
  wrapped le := by
    rw [length_picks] at le
    exact fair_of_wrap below le
  once all fits p lt := by
    rw [length_picks] at all
    rw [all, picks_of_fits fits]
    exact count_round lt start

/-! ## Tickets taken in any interleaving -/

section
open Conc

variable {σ μ κ ρ : Type*} {w : Nat} {O : Object σ μ κ ρ} {E : Object.Env σ μ κ} {inv : Nat → σ → Prop}
  {loc : Nat → Nat → σ → Status κ ρ → Prop} {emit : σ → κ → Option Nat}

/-- A step takes a ticket, or leaves the counter alone. -/
def Takes (n : Nat) (before after : BitVec w) (picked : Option Nat) : Prop :=
  (picked = none ∧ after = before) ∨ (picked = some (before.toNat % n) ∧ after = before + 1)

theorem toNat_add_one (x : BitVec w) : (x + 1).toNat = (x.toNat + 1) % 2 ^ w := by
  simp [BitVec.toNat_add]

/-- **The picks of every schedule**, from any reading of the counter, are the tickets from there on. -/
theorem emitted_eq_picks (n : Nat) (counter : σ → BitVec w) (P : Outline O E inv loc)
    (step : ∀ i t s k, E.steps t s k → inv t s → loc i t s (.running k) →
      Takes n (counter s) (counter (O.step t s k).1) (emit s k))
    {c : Pool σ κ ρ} (h : Holds inv loc c) {ls : List (Label μ)} (ok : O.Along E c ls) :
    O.emitted emit c ls = picks (2 ^ w) n (counter c.shared).toNat (O.emitted emit c ls).length := by
  induction ls generalizing c with
  | nil => rfl
  | cons l ls ih =>
    have rest := ih (P.exec h ok.1) ok.2
    have taken : Takes n (counter c.shared) (counter (O.exec c l).shared) (Object.emission emit c l) := by
      cases l with
      | call m => exact .inl ⟨rfl, rfl⟩
      | tick d => exact .inl ⟨rfl, rfl⟩
      | step i =>
        rcases hk : c.calls[i]? with _ | ⟨k⟩ | ⟨r⟩
        · exact .inl (by simp only [Object.emission, Object.exec, hk, and_self])
        · rw [Object.emission_running hk, Object.exec_running hk]
          exact step i _ _ k (ok.1 k hk) h.1 (h.2 i _ hk)
        · exact .inl (by simp only [Object.emission, Object.exec, hk, and_self])
    rcases taken with ⟨none, same⟩ | ⟨picked, moved⟩
    · rw [same] at rest
      simp only [Object.emitted, none, Option.toList_none, List.nil_append]
      exact rest
    · rw [moved, toNat_add_one, picks_mod] at rest
      simp only [Object.emitted, picked, Option.toList_some, List.singleton_append, List.length_cons]
      rw [picks_succ, Nat.mod_eq_of_lt (counter c.shared).isLt, ← rest]

/-- **Every schedule picks fairly.** -/
theorem emitted_fair (n : Nat) (some : 0 < n) (counter : σ → BitVec w) (P : Outline O E inv loc)
    (step : ∀ i t s k, E.steps t s k → inv t s → loc i t s (.running k) →
      Takes n (counter s) (counter (O.step t s k).1) (emit s k))
    {c : Pool σ κ ρ} (h : Holds inv loc c) {ls : List (Label μ)} (ok : O.Along E c ls) :
    FairWindow (2 ^ w) n (counter c.shared).toNat (O.emitted emit c ls) := by
  rw [emitted_eq_picks n counter P step h ok]
  exact picks_fair some (counter c.shared).isLt _

end

/-! ## Rounds -/

/-- Picks of some positions are the picks of each of them. -/
theorem countP_eq_sum {n : Nat} {picked : List Nat} (positions : ∀ p ∈ picked, p < n) (chosen : Nat → Bool) :
    picked.countP chosen = ∑ p ∈ (Finset.range n).filter fun p => chosen p, picked.count p := by
  have within : ∀ p ∈ (picked.filter chosen : Multiset Nat), p ∈ (Finset.range n).filter fun p => chosen p := by
    intro p mem
    obtain ⟨mem, good⟩ := List.mem_filter.mp (Multiset.mem_coe.mp mem)
    exact Finset.mem_filter.mpr ⟨Finset.mem_range.mpr (positions p mem), good⟩
  rw [List.countP_eq_length_filter, ← Multiset.coe_card, ← Multiset.sum_count_eq_card within]
  apply Finset.sum_congr rfl
  intro p mem
  rw [Multiset.coe_count, List.count_filter (Finset.mem_filter.mp mem).2]

/-- **Picks come in rounds**: fair picks are the same number for each position, and at most one more. -/
theorem Fair.rounds {n : Nat} {picked : List Nat} (fair : Fair 1 n picked) (positions : ∀ p ∈ picked, p < n) :
    ∃ rounds, ∀ chosen : Nat → Bool, (List.range n).countP chosen * rounds ≤ picked.countP chosen ∧
      picked.countP chosen ≤ (List.range n).countP chosen * (rounds + 1) := by
  have least : ∃ rounds, ∀ p < n, rounds ≤ picked.count p ∧ picked.count p ≤ rounds + 1 := by
    rcases Nat.eq_zero_or_pos n with rfl | pos
    · exact ⟨0, fun p impossible => absurd impossible (Nat.not_lt_zero p)⟩
    · obtain ⟨q, mem, least⟩ := (Finset.range n).exists_min_image picked.count ⟨0, Finset.mem_range.mpr pos⟩
      refine ⟨picked.count q, fun p below => ⟨least p (Finset.mem_range.mpr below), ?_⟩⟩
      exact fair p below q (Finset.mem_range.mp mem)
  obtain ⟨rounds, each⟩ := least
  refine ⟨rounds, fun chosen => ?_⟩
  have size : (List.range n).countP chosen = ((Finset.range n).filter fun p => chosen p).card := by
    rw [countP_eq_sum (fun p => List.mem_range.mp) chosen, Finset.card_eq_sum_ones]
    apply Finset.sum_congr rfl
    intro p mem
    exact List.count_eq_one_of_mem List.nodup_range (List.mem_range.mpr (Finset.mem_range.mp (Finset.mem_filter.mp mem).1))
  have below : ∀ p ∈ (Finset.range n).filter fun p => chosen p, p < n :=
    fun p mem => Finset.mem_range.mp (Finset.mem_filter.mp mem).1
  rw [countP_eq_sum positions, size]
  constructor
  · exact Finset.card_nsmul_le_sum _ _ _ fun p mem => (each p (below p mem)).1
  · exact Finset.sum_le_card_nsmul _ _ _ fun p mem => (each p (below p mem)).2

/-- The positions of a value in a list. -/
theorem countP_range_getElem {α : Type} [DecidableEq α] (l : List α) (a : α) :
    (List.range l.length).countP (fun p => l[p]? = some a) = l.count a := by
  have positions : l.map some = (List.range l.length).map fun p => l[p]? := by
    apply List.ext_getElem
    · simp
    · intro p below _
      simp
  calc (List.range l.length).countP (fun p => l[p]? = some a)
      = ((List.range l.length).map fun p => l[p]?).count (some a) := by
        rw [List.count, List.countP_map]
        exact List.countP_congr fun p _ => by simp
    _ = (l.map some).count (some a) := by rw [positions]
    _ = l.count a := List.count_map_of_injective l some (Option.some_injective _) a

end RoundRobin
