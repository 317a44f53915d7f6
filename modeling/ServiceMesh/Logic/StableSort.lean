import Mathlib.Order.Defs.LinearOrder
import Mathlib.Data.List.MinMax

/-!
# Stable sorting, highest key first

`sortDesc` sorts a list by a key, highest first, and keeps elements of one key in their order.
`IsStableSort` says the same without the algorithm: the result is sorted, and for each key the
elements of that key stand as they stood. That determines the result (`IsStableSort.unique`), so
a list that is sorted, extended and sorted again, or has an element taken out of its sorted
order, is the stable sort of what was inserted. Scanning the sorted list for the first element
with a property finds, among the inserted ones, the earliest of the highest key (`FirstBest`); one
more element, or one less, changes what is found only where it is itself found (`find?_snoc`,
`find?_eraseP_of_ne`).
-/

namespace StableSort

variable {α κ : Type*} [LinearOrder κ] (key : α → κ)

def sortDesc (l : List α) : List α := l.mergeSort fun a b => decide (key b ≤ key a)

structure IsStableSort (l s : List α) : Prop where
  sorted : s.Pairwise fun a b => key b ≤ key a
  stable : ∀ k, s.filter (key · = k) = l.filter (key · = k)

/-- In `before ++ x :: after`, the element `x` is the earliest of the highest key among those with `p`. -/
structure FirstBest (p : α → Bool) (before : List α) (x : α) (after : List α) : Prop where
  holds : p x = true
  earlier : ∀ a ∈ before, p a = true → key a < key x
  later : ∀ a ∈ after, p a = true → key a ≤ key x

/-- `l` without its earliest element of the highest key among those with `p`. -/
def eraseBest (p : α → Bool) (l : List α) : List α :=
  match (l.filter p).argmax key with
  | some best => l.eraseP fun a => p a && key a = key best
  | none => l

variable {key} {l s : List α} {p : α → Bool}

namespace IsStableSort

theorem mem_iff (h : IsStableSort key l s) {a : α} : a ∈ s ↔ a ∈ l := by
  have of_key : ∀ t : List α, a ∈ t ↔ a ∈ t.filter (key · = key a) := by
    intro t
    simp
  rw [of_key s, h.stable, ← of_key l]

/-- A list has one stable sort. -/
theorem unique {s' : List α} (h : IsStableSort key l s) (h' : IsStableSort key l s') : s = s' := by
  induction s generalizing l s' with
  | nil =>
    cases s' with
    | nil => rfl
    | cons b t' =>
      have inserted := h'.mem_iff.mp List.mem_cons_self
      exact absurd (h.mem_iff.mpr inserted) List.not_mem_nil
  | cons a t ih =>
    cases s' with
    | nil =>
      have inserted := h.mem_iff.mp List.mem_cons_self
      exact absurd (h'.mem_iff.mpr inserted) List.not_mem_nil
    | cons b t' =>
      -- both heads have the highest key, so both are the first of that key
      have same : key a = key b := by
        have a_mem : a ∈ b :: t' := h'.mem_iff.mpr (h.mem_iff.mp List.mem_cons_self)
        have b_mem : b ∈ a :: t := h.mem_iff.mpr (h'.mem_iff.mp List.mem_cons_self)
        apply le_antisymm
        · rcases List.mem_cons.mp a_mem with rfl | a_mem
          · exact le_refl _
          · exact List.rel_of_pairwise_cons h'.sorted a_mem
        · rcases List.mem_cons.mp b_mem with rfl | b_mem
          · exact le_refl _
          · exact List.rel_of_pairwise_cons h.sorted b_mem
      have heads := (h.stable (key a)).trans (h'.stable (key a)).symm
      rw [List.filter_cons_of_pos (by simp), List.filter_cons_of_pos (by simp [same])] at heads
      obtain ⟨rfl, -⟩ := List.cons.inj heads
      have tails : ∀ k, t.filter (key · = k) = t'.filter (key · = k) := by
        intro k
        have all := (h.stable k).trans (h'.stable k).symm
        by_cases mine : key a = k
        · rw [List.filter_cons_of_pos (by simp [mine]), List.filter_cons_of_pos (by simp [mine])] at all
          exact (List.cons.inj all).2
        · rw [List.filter_cons_of_neg (by simp [mine]), List.filter_cons_of_neg (by simp [mine])] at all
          exact all
      rw [ih (l := t') ⟨h.sorted.of_cons, tails⟩ ⟨h'.sorted.of_cons, fun _ => rfl⟩]

end IsStableSort

theorem isStableSort_sortDesc (key : α → κ) (l : List α) : IsStableSort key l (sortDesc key l) := by
  have trans : ∀ a b c : α, decide (key b ≤ key a) = true → decide (key c ≤ key b) = true →
      decide (key c ≤ key a) = true := by
    intro a b c first second
    simp only [decide_eq_true_eq] at first second ⊢
    exact second.trans first
  have total : ∀ a b : α, (decide (key b ≤ key a) || decide (key a ≤ key b)) = true := by
    intro a b
    simpa using le_total (key b) (key a)
  refine ⟨?_, ?_⟩
  · exact (List.pairwise_mergeSort trans total l).imp fun le => by simpa using le
  · intro k
    unfold sortDesc
    induction l with
    | nil => simp
    | cons a l ih =>
      obtain ⟨higher, lower, whole, rest, above⟩ := List.mergeSort_cons trans total a l
      rw [rest, List.filter_append] at ih
      rw [whole, List.filter_append]
      by_cases mine : key a = k
      · -- what stands before `a` has a higher key
        have none_above : higher.filter (key · = k) = [] := by
          rw [List.filter_eq_nil_iff]
          intro b mem
          have high := above b mem
          simp only [Bool.not_eq_true', decide_eq_false_iff_not, not_le] at high
          simp only [decide_eq_true_eq]
          exact fun eq => absurd (eq ▸ mine ▸ high) (lt_irrefl _)
        rw [none_above, List.nil_append] at ih
        rw [none_above, List.nil_append, List.filter_cons_of_pos (by simp [mine]),
          List.filter_cons_of_pos (by simp [mine]), ih]
      · rw [List.filter_cons_of_neg (by simp [mine]), List.filter_cons_of_neg (by simp [mine]), ih]

namespace IsStableSort

theorem eq_sortDesc (h : IsStableSort key l s) : s = sortDesc key l :=
  h.unique (isStableSort_sortDesc key l)

/-- Appending to the sorted list and sorting again sorts what was inserted so far. -/
theorem append (h : IsStableSort key l s) (more : List α) : IsStableSort key (l ++ more) (sortDesc key (s ++ more)) := by
  have again := isStableSort_sortDesc key (s ++ more)
  refine ⟨again.sorted, fun k => ?_⟩
  rw [again.stable, List.filter_append, List.filter_append, h.stable]

end IsStableSort

/-! ## The first of the sorted, the best of the inserted -/

/-- Elements with `p` have a best. -/
theorem exists_firstBest (key : α → κ) (p : α → Bool) (l : List α) :
    (∀ a ∈ l, p a = false) ∨ ∃ before x after, l = before ++ x :: after ∧ FirstBest key p before x after := by
  induction l with
  | nil => exact .inl fun a mem => absurd mem List.not_mem_nil
  | cons a l ih =>
    cases mine : p a with
    | false =>
      rcases ih with none | ⟨before, x, after, rfl, best⟩
      · exact .inl (List.forall_mem_cons.mpr ⟨mine, none⟩)
      · refine .inr ⟨a :: before, x, after, rfl, best.holds, ?_, best.later⟩
        intro b mem holds
        rcases List.mem_cons.mp mem with rfl | mem
        · exact absurd (mine.symm.trans holds) Bool.false_ne_true
        · exact best.earlier b mem holds
    | true =>
      rcases ih with none | ⟨before, x, after, rfl, best⟩
      · refine .inr ⟨[], a, l, rfl, mine, fun b mem => absurd mem List.not_mem_nil, ?_⟩
        intro b mem holds
        exact absurd ((none b mem).symm.trans holds) Bool.false_ne_true
      · by_cases higher : key a < key x
        · refine .inr ⟨a :: before, x, after, rfl, best.holds, ?_, best.later⟩
          intro b mem holds
          rcases List.mem_cons.mp mem with rfl | mem
          · exact higher
          · exact best.earlier b mem holds
        · have top : key x ≤ key a := not_lt.mp higher
          refine .inr ⟨[], a, before ++ x :: after, rfl, mine, fun b mem => absurd mem List.not_mem_nil, ?_⟩
          intro b mem holds
          rcases List.mem_append.mp mem with mem | mem
          · exact (best.earlier b mem holds).le.trans top
          · rcases List.mem_cons.mp mem with rfl | mem
            · exact top
            · exact (best.later b mem holds).trans top

/-- `eraseBest` takes out the best and nothing else. -/
theorem FirstBest.eraseBest_eq {before after : List α} {x : α} (best : FirstBest key p before x after) :
    eraseBest key p (before ++ x :: after) = before ++ after := by
  have mem_x : x ∈ (before ++ x :: after).filter p := by
    rw [List.mem_filter]
    exact ⟨List.mem_append_right _ List.mem_cons_self, best.holds⟩
  unfold eraseBest
  cases chosen : ((before ++ x :: after).filter p).argmax key with
  | none =>
    rw [List.argmax_eq_none] at chosen
    rw [chosen] at mem_x
    exact absurd mem_x List.not_mem_nil
  | some m =>
    have top : key m = key x := by
      apply le_antisymm
      · obtain ⟨mem, holds⟩ := List.mem_filter.mp (List.argmax_mem chosen)
        rcases List.mem_append.mp mem with mem | mem
        · exact (best.earlier m mem holds).le
        · rcases List.mem_cons.mp mem with rfl | mem
          · exact le_refl _
          · exact best.later m mem holds
      · exact List.le_of_mem_argmax mem_x chosen
    have skipped : ∀ b ∈ before, ¬ (p b && decide (key b = key m)) = true := by
      intro b mem both
      simp only [Bool.and_eq_true, decide_eq_true_eq] at both
      have lower := best.earlier b mem both.1
      rw [both.2, top] at lower
      exact lt_irrefl _ lower
    show (before ++ x :: after).eraseP (fun a => p a && decide (key a = key m)) = before ++ after
    rw [List.eraseP_append_right _ skipped, List.eraseP_cons_of_pos (by simp [best.holds, top])]

theorem eraseBest_of_none (none : ∀ a ∈ l, p a = false) : eraseBest key p l = l := by
  have empty : l.filter p = [] := by
    rw [List.filter_eq_nil_iff]
    intro a mem
    simp [none a mem]
  rw [eraseBest, empty, List.argmax_nil]

/-- In a sorted list the first element with `p` has the highest key among those with `p`. -/
theorem sorted_first {k : κ} (sorted : s.Pairwise fun a b => key b ≤ key a)
    (bound : ∀ a ∈ s, p a = true → key a ≤ k) (top : ∃ a ∈ s, p a = true ∧ key a = k) :
    s.find? p = s.find? (fun a => decide (key a = k) && p a) ∧
      s.eraseP p = s.eraseP (fun a => p a && decide (key a = k)) := by
  induction s with
  | nil =>
    obtain ⟨a, mem, -⟩ := top
    exact absurd mem List.not_mem_nil
  | cons x t ih =>
    obtain ⟨a, mem, holds, eq⟩ := top
    by_cases mine : p x = true
    · have highest : key x = k := by
        apply le_antisymm (bound x List.mem_cons_self mine)
        rcases List.mem_cons.mp mem with rfl | mem
        · exact eq.ge
        · exact eq.ge.trans (List.rel_of_pairwise_cons sorted mem)
      refine ⟨?_, ?_⟩
      · rw [List.find?_cons_of_pos mine, List.find?_cons_of_pos (by simp [mine, highest])]
      · rw [List.eraseP_cons_of_pos mine, List.eraseP_cons_of_pos (by simp [mine, highest])]
    · have later : a ∈ t := by
        rcases List.mem_cons.mp mem with rfl | mem
        · exact absurd holds mine
        · exact mem
      obtain ⟨finds, erases⟩ := ih sorted.of_cons (fun b mem => bound b (List.mem_cons_of_mem _ mem))
        ⟨a, later, holds, eq⟩
      refine ⟨?_, ?_⟩
      · rw [List.find?_cons_of_neg mine, List.find?_cons_of_neg (by simp [mine]), finds]
      · rw [List.eraseP_cons_of_neg mine, List.eraseP_cons_of_neg (by simp [mine]), erases]

section
variable {before after : List α} {x : α}

/-- What `sorted_first` needs, from the best of the inserted. -/
theorem IsStableSort.first (h : IsStableSort key (before ++ x :: after) s) (best : FirstBest key p before x after) :
    s.find? p = s.find? (fun a => decide (key a = key x) && p a) ∧
      s.eraseP p = s.eraseP (fun a => p a && decide (key a = key x)) := by
  apply sorted_first h.sorted
  · intro a mem holds
    rcases List.mem_append.mp (h.mem_iff.mp mem) with mem | mem
    · exact (best.earlier a mem holds).le
    · rcases List.mem_cons.mp mem with rfl | mem
      · exact le_refl _
      · exact best.later a mem holds
  · exact ⟨x, h.mem_iff.mpr (List.mem_append_right _ List.mem_cons_self), best.holds, rfl⟩

/-- The inserted elements of the best's key: none with `p` stands before the best. -/
theorem FirstBest.skips (best : FirstBest key p before x after) :
    ∀ a ∈ before.filter (key · = key x), ¬ p a = true := by
  intro a mem holds
  obtain ⟨mem, eq⟩ := List.mem_filter.mp mem
  have lower := best.earlier a mem holds
  rw [of_decide_eq_true eq] at lower
  exact lt_irrefl _ lower

omit [LinearOrder κ] in
theorem filter_split [DecidableEq κ] (key : α → κ) (before : List α) (x : α) (after : List α) :
    (before ++ x :: after).filter (key · = key x) =
      before.filter (key · = key x) ++ x :: after.filter (key · = key x) := by
  simp

/-- Taking out an element of another key leaves the elements of key `k`. -/
theorem filter_eraseP_of_ne {k : κ} {q : α → Bool} (other : ∀ a, q a = true → key a ≠ k) (l : List α) :
    (l.eraseP q).filter (key · = k) = l.filter (key · = k) := by
  rcases List.exists_or_eq_self_of_eraseP q l with same | ⟨a, l₁, l₂, -, holds, whole, rest⟩
  · rw [same]
  · rw [rest, whole, List.filter_append, List.filter_append, List.filter_cons_of_neg (by simpa using other a holds)]

/-- **The first match of the sorted list is the best match of the inserted.** -/
theorem IsStableSort.find? (h : IsStableSort key (before ++ x :: after) s) (best : FirstBest key p before x after) :
    s.find? p = some x := by
  rw [(h.first best).1]
  calc s.find? (fun a => decide (key a = key x) && p a)
      = (s.filter (key · = key x)).find? p := by rw [List.find?_filter]; simp
    _ = ((before ++ x :: after).filter (key · = key x)).find? p := by rw [h.stable]
    _ = some x := by
      rw [filter_split, List.find?_append, List.find?_eq_none.mpr best.skips, Option.none_or,
        List.find?_cons_of_pos best.holds]

/-- **Taking the first match out of the sorted list** takes the best match out of the inserted. -/
theorem IsStableSort.eraseP (h : IsStableSort key (before ++ x :: after) s) (best : FirstBest key p before x after) :
    IsStableSort key (before ++ after) (s.eraseP p) := by
  refine ⟨h.sorted.sublist List.eraseP_sublist, fun k => ?_⟩
  rw [(h.first best).2]
  by_cases mine : key x = k
  · subst mine
    calc (s.eraseP fun a => p a && decide (key a = key x)).filter (key · = key x)
        = (s.filter (key · = key x)).eraseP p := by rw [List.eraseP_filter]
      _ = ((before ++ x :: after).filter (key · = key x)).eraseP p := by rw [h.stable]
      _ = (before ++ after).filter (key · = key x) := by
        rw [filter_split, List.eraseP_append_right _ best.skips, List.eraseP_cons_of_pos best.holds,
          List.filter_append]
  · have other : ∀ a, (p a && decide (key a = key x)) = true → key a ≠ k := by
      intro a both eq
      simp only [Bool.and_eq_true, decide_eq_true_eq] at both
      exact mine (both.2.symm.trans eq)
    rw [filter_eraseP_of_ne other, h.stable, List.filter_append, List.filter_append,
      List.filter_cons_of_neg (by simpa using mine)]
end

/-! ## One more, one less -/

/-- **One more element**, inserted last: it is the first match of the sorted list if it is a match and all others have a
lower key; if not, the first match is what it was. -/
theorem IsStableSort.find?_snoc (h : IsStableSort key l s) {x : α} {s' : List α} (h' : IsStableSort key (l ++ [x]) s') :
    ((p x = true ∧ ∀ a ∈ l, p a = true → key a < key x) → s'.find? p = some x) ∧
      (¬ (p x = true ∧ ∀ a ∈ l, p a = true → key a < key x) → s'.find? p = s.find? p) := by
  constructor
  · rintro ⟨holds, lower⟩
    have best : FirstBest key p l x [] := ⟨holds, lower, fun a mem => absurd mem List.not_mem_nil⟩
    exact h'.find? best
  · intro other
    rcases exists_firstBest key p l with none | ⟨before, y, after, rfl, best⟩
    · have missed : ¬ p x = true := fun holds =>
        other ⟨holds, fun a mem hit => absurd ((none a mem).symm.trans hit) Bool.false_ne_true⟩
      have old : s.find? p = Option.none := List.find?_eq_none.mpr fun a mem => by simp [none a (h.mem_iff.mp mem)]
      rw [old, List.find?_eq_none]
      intro a mem
      rcases List.mem_append.mp (h'.mem_iff.mp mem) with mem | mem
      · simp [none a mem]
      · rw [List.mem_singleton.mp mem]
        exact missed
    · -- the best of the others is still the best
      have still : FirstBest key p before y (after ++ [x]) := by
        refine ⟨best.holds, best.earlier, ?_⟩
        intro a mem holds
        rcases List.mem_append.mp mem with mem | mem
        · exact best.later a mem holds
        · rw [List.mem_singleton.mp mem] at holds ⊢
          by_contra higher
          refine other ⟨holds, fun b mem hit => lt_of_le_of_lt ?_ (not_le.mp higher)⟩
          rcases List.mem_append.mp mem with mem | mem
          · exact (best.earlier b mem hit).le
          · rcases List.mem_cons.mp mem with rfl | mem
            · exact le_refl _
            · exact best.later b mem hit
      rw [List.append_assoc, List.cons_append] at h'
      rw [h.find? best, h'.find? still]

/-- The first match of `p` stays when the first match of `q` is taken out, if they are not the same. -/
theorem find?_eraseP_of_ne {q : α → Bool} (apart : s.find? p ≠ s.find? q) : (s.eraseP q).find? p = s.find? p := by
  induction s with
  | nil => rfl
  | cons a t ih =>
    by_cases out : q a = true
    · rw [List.eraseP_cons_of_pos out]
      by_cases hit : p a = true
      · rw [List.find?_cons_of_pos hit, List.find?_cons_of_pos out] at apart
        exact absurd rfl apart
      · rw [List.find?_cons_of_neg hit]
    · rw [List.eraseP_cons_of_neg out]
      by_cases hit : p a = true
      · rw [List.find?_cons_of_pos hit, List.find?_cons_of_pos hit]
      · rw [List.find?_cons_of_neg hit, List.find?_cons_of_neg out] at apart
        rw [List.find?_cons_of_neg hit, List.find?_cons_of_neg hit, ih apart]

/-- Only the order within each key counts. -/
theorem IsStableSort.congr {l' : List α} (h : IsStableSort key l s)
    (same : ∀ k, l.filter (key · = k) = l'.filter (key · = k)) : IsStableSort key l' s :=
  ⟨h.sorted, fun k => (h.stable k).trans (same k)⟩

end StableSort
