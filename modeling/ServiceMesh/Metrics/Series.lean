import ServiceMesh.Metrics.Basic
import Mathlib.Data.List.Induction

/-!
# The series of the metrics

A family that is only written through `update` is what a list of records made of it. It has one series for each set of
labels (`nodup_collect`), and that series holds what the records with these labels made of it in their order; the
records with other labels leave it alone (`lookup_collect`). Adding counters up over any choice of labels gives the
number of records with such labels, as long as 64 bits hold it (`tallies_collect`). `Metrics.Reports` says the same of
the three families that `record_request` writes, in terms of method, status and upstream: the text of a status tells
statuses apart, so the labels tell apart what the records do.
-/

namespace ServiceMesh

namespace Family

variable {L V R : Type} [DecidableEq L]

/-- The family that a list of records makes, each of them updating the metric under its own labels. -/
def collect (key : R → L) (fresh : V) (f : R → V → V) (records : List R) : Family L V :=
  records.foldl (fun family r => family.update (key r) fresh (f r)) []

section
variable {key : R → L} {fresh : V} {f : R → V → V}

theorem collect_append (records : List R) (r : R) :
    collect key fresh f (records ++ [r]) = (collect key fresh f records).update (key r) fresh (f r) := by
  rw [collect, List.foldl_append]
  rfl

theorem lookup_cons (l labels : L) (v : V) (family : Family L V) :
    List.lookup l ((labels, v) :: family) = if l = labels then some v else family.lookup l := by
  by_cases same : l = labels
  · subst same
    rw [if_pos rfl, List.lookup_cons_self]
  · rw [if_neg same, List.lookup_cons, beq_eq_false_iff_ne.mpr same]

/-- An update changes one series, and makes it if it is not there. -/
theorem lookup_update (labels : L) (g : V → V) (family : Family L V) (l : L) :
    (family.update labels fresh g).lookup l =
      if l = labels then some (g ((family.lookup labels).getD fresh)) else family.lookup l := by
  induction family with
  | nil => exact lookup_cons l labels _ []
  | cons entry rest ih =>
    obtain ⟨first, v⟩ := entry
    by_cases here : first = labels
    · subst here
      have found : Family.update first fresh g ((first, v) :: rest) = (first, g v) :: rest := if_pos rfl
      rw [found]
      by_cases same : l = first <;> simp [lookup_cons, same]
    · have later : Family.update labels fresh g ((first, v) :: rest) = (first, v) :: Family.update labels fresh g rest :=
        if_neg here
      rw [later, lookup_cons, lookup_cons, lookup_cons, ih, if_neg (Ne.symm here)]
      by_cases same : l = first
      · subst same
        rw [if_pos rfl, if_neg here, if_pos rfl]
      · rw [if_neg same, if_neg same]

theorem keys_update (labels : L) (g : V → V) (family : Family L V) :
    (family.update labels fresh g).map Prod.fst =
      if labels ∈ family.map Prod.fst then family.map Prod.fst else family.map Prod.fst ++ [labels] := by
  induction family with
  | nil => rfl
  | cons entry rest ih =>
    obtain ⟨first, v⟩ := entry
    by_cases here : first = labels
    · subst here
      simp [update]
    · have later : Family.update labels fresh g ((first, v) :: rest) = (first, v) :: Family.update labels fresh g rest :=
        if_neg here
      rw [later, List.map_cons, List.map_cons, ih]
      by_cases there : labels ∈ rest.map Prod.fst
      · rw [if_pos there, if_pos (List.mem_cons_of_mem _ there)]
      · rw [if_neg there, if_neg (List.not_mem_cons_of_ne_of_not_mem (Ne.symm here) there), List.cons_append]

/-- **One series for each set of labels.** -/
theorem nodup_collect (records : List R) : ((collect key fresh f records).map Prod.fst).Nodup := by
  induction records using List.reverseRecOn with
  | nil => exact List.nodup_nil
  | append_singleton records r ih =>
    rw [collect_append, keys_update]
    split
    · exact ih
    · next absent => exact ih.append (List.nodup_singleton _) (List.disjoint_singleton.mpr absent)

/-- There is a series for the labels that were used. -/
theorem mem_keys_collect (records : List R) (l : L) :
    l ∈ (collect key fresh f records).map Prod.fst ↔ ∃ r ∈ records, l = key r := by
  induction records using List.reverseRecOn with
  | nil => simp [collect]
  | append_singleton records r ih =>
    have either : l ∈ (collect key fresh f (records ++ [r])).map Prod.fst ↔
        l ∈ (collect key fresh f records).map Prod.fst ∨ l = key r := by
      rw [collect_append, keys_update]
      split
      · next there =>
        refine ⟨.inl, ?_⟩
        rintro (mem | rfl)
        · exact mem
        · exact there
      · rw [List.mem_append, List.mem_singleton]
    rw [either, ih]
    simp only [List.mem_append, List.mem_singleton, or_and_right, exists_or, exists_eq_left]

/-- **What a series holds**: what the records with its labels made of it, one after the other. -/
theorem lookup_collect (records : List R) (l : L) :
    (collect key fresh f records).lookup l =
      if records.filter (key · = l) = [] then none
      else some ((records.filter (key · = l)).foldl (fun v r => f r v) fresh) := by
  induction records using List.reverseRecOn with
  | nil => rfl
  | append_singleton records r ih =>
    rw [collect_append, lookup_update, List.filter_append]
    by_cases mine : key r = l
    · subst mine
      have one : [r].filter (fun q => decide (key q = key r)) = [r] := List.filter_cons_of_pos (by simp)
      rw [if_pos rfl, one, if_neg (by simp), List.foldl_append, ih]
      split
      · next none =>
        rw [none]
        rfl
      · rfl
    · have nothing : [r].filter (fun q => decide (key q = l)) = [] := List.filter_cons_of_neg (by simpa using mine)
      rw [if_neg (Ne.symm mine), nothing, List.append_nil, ih]

end

/-! ## Sums over some of the series -/

/-- Choosing labels and updating can be done in either order. -/
theorem filter_update (chosen : L → Bool) (labels : L) (fresh : V) (g : V → V) (family : Family L V) :
    List.filter (fun series => chosen series.1) (family.update labels fresh g) =
      if chosen labels then Family.update labels fresh g (family.filter fun series => chosen series.1)
      else family.filter fun series => chosen series.1 := by
  induction family with
  | nil => cases this : chosen labels <;> simp [update, this]
  | cons entry rest ih =>
    obtain ⟨first, v⟩ := entry
    by_cases here : first = labels
    · subst here
      cases this : chosen first <;> simp [update, this]
    · have later : Family.update labels fresh g ((first, v) :: rest) = (first, v) :: Family.update labels fresh g rest :=
        if_neg here
      rw [later, List.filter_cons, List.filter_cons, ih]
      cases this : chosen first <;> cases that : chosen labels <;> simp [update, here]

/-- **A sum of counters** over a choice of labels is the number of records with such labels. -/
theorem tallies_collect (chosen : L → Bool) (key : R → L) (records : List R) :
    Tallies ((collect key 0 (fun _ v => v + 1) records).filter fun series => chosen series.1)
      (records.countP fun r => chosen (key r)) := by
  induction records using List.reverseRecOn with
  | nil => exact tallies_nil
  | append_singleton records r ih =>
    rw [collect_append, filter_update, List.countP_append, List.countP_singleton]
    split
    · exact ih.inc (key r)
    · exact ih

end Family

/-! ## The families of `record_request` -/

namespace Metrics

/-- The metrics after a sequence of records. -/
def recorded (records : List RequestRecord) : Metrics := records.foldl (fun m r => m.recordRequest r) new

theorem recorded_append (records : List RequestRecord) (r : RequestRecord) :
    recorded (records ++ [r]) = (recorded records).recordRequest r := by
  rw [recorded, List.foldl_append]
  rfl

/-- What some requests make a series show, if there are any. -/
def shown {V : Type} (value : List RequestRecord → V) (requests : List RequestRecord) : Option V :=
  if requests = [] then none else some (value requests)

/-- The requests with this method, status and upstream. -/
def alike (method : String) (status : UInt16) (upstream : String) (records : List RequestRecord) : List RequestRecord :=
  records.filter fun r => r.method = method ∧ r.status = status ∧ r.upstream = upstream

/-- What the metrics say of the requests recorded: for each method, status and upstream, how many there were, which
durations the histogram was given, and, where the status is an error, how many failed. -/
structure Reports (m : Metrics) (records : List RequestRecord) : Prop where
  requests : ∀ (method : String) (status : UInt16) (upstream : String),
    m.requestsTotal.lookup ⟨method, toString status, upstream⟩ =
      shown (fun rs => UInt64.ofNat rs.length) (alike method status upstream records)
  durations : ∀ (method : String) (status : UInt16) (upstream : String),
    m.requestDurationSeconds.lookup ⟨method, toString status, upstream⟩ =
      shown (List.map (·.duration)) (alike method status upstream records)
  errors : ∀ (method : String) (status : UInt16) (upstream : String),
    m.errorsTotal.lookup ⟨method, toString status, upstream⟩ =
      if status ≥ 400 then m.requestsTotal.lookup ⟨method, toString status, upstream⟩ else none
  labels : ∀ l ∈ m.requestsTotal.map Prod.fst ++ m.requestDurationSeconds.map Prod.fst ++ m.errorsTotal.map Prod.fst,
    ∃ r ∈ records, l = labels r
  single : (m.requestsTotal.map Prod.fst).Nodup ∧ (m.requestDurationSeconds.map Prod.fst).Nodup ∧
    (m.errorsTotal.map Prod.fst).Nodup

/-- The text of a status tells it from all others. -/
theorem statusText_inj {n m : UInt16} (same : toString n = toString m) : n = m := by
  have digits : Nat.toDigits 10 n.toNat = Nat.toDigits 10 m.toNat := String.ofList_injective same
  have number : n.toNat = m.toNat := by
    rw [← Nat.ofDigitChars_ten_toDigits (n := n.toNat), digits, Nat.ofDigitChars_ten_toDigits]
  exact UInt16.toNat_inj.mp number

theorem labels_eq_iff {r : RequestRecord} {method : String} {status : UInt16} {upstream : String} :
    labels r = ⟨method, toString status, upstream⟩ ↔ r.method = method ∧ r.status = status ∧ r.upstream = upstream := by
  constructor
  · intro same
    injection same with method text upstream
    exact ⟨method, statusText_inj text, upstream⟩
  · rintro ⟨rfl, rfl, rfl⟩
    rfl

/-- The requests that share a series are alike. -/
theorem filter_labels (records : List RequestRecord) (method : String) (status : UInt16) (upstream : String) :
    records.filter (labels · = ⟨method, toString status, upstream⟩) = alike method status upstream records := by
  apply List.filter_congr
  intro r _
  exact decide_eq_decide.mpr labels_eq_iff

/-- Requests with an error for a status are all that are alike, or none of them. -/
theorem alike_errors (records : List RequestRecord) (method : String) (status : UInt16) (upstream : String) :
    alike method status upstream (records.filter (·.status ≥ 400)) =
      if status ≥ 400 then alike method status upstream records else [] := by
  rw [alike, List.filter_filter]
  split
  · next bad =>
    apply List.filter_congr
    intro r _
    rw [← Bool.decide_and]
    refine decide_eq_decide.mpr ⟨And.left, fun same => ⟨same, ?_⟩⟩
    rw [same.2.1]
    exact bad
  · next good =>
    apply List.filter_eq_nil_iff.mpr
    intro r _ both
    rw [← Bool.decide_and, decide_eq_true_iff] at both
    exact good (both.1.2.1 ▸ both.2)

theorem foldl_succ {R : Type} (rs : List R) : rs.foldl (fun n _ => n + 1) (0 : UInt64) = UInt64.ofNat rs.length := by
  induction rs using List.reverseRecOn with
  | nil => rfl
  | append_singleton rs r ih =>
    rw [List.foldl_append, ih, List.length_append, UInt64.ofNat_add]
    rfl

theorem foldl_observe (rs : List RequestRecord) :
    rs.foldl (fun calls r => Histogram.observe r.duration calls) [] = rs.map (·.duration) := by
  induction rs using List.reverseRecOn with
  | nil => rfl
  | append_singleton rs r ih =>
    rw [List.foldl_append, ih, List.map_append]
    rfl

/-- `record_request` writes each family for itself. -/
theorem recorded_eq (records : List RequestRecord) :
    recorded records =
      { requestsTotal := .collect labels 0 (fun _ n => n + 1) records
        requestDurationSeconds := .collect labels [] (fun r => Histogram.observe r.duration) records
        errorsTotal := .collect labels 0 (fun _ n => n + 1) (records.filter (·.status ≥ 400)) } := by
  induction records using List.reverseRecOn with
  | nil => rfl
  | append_singleton records r ih =>
    rw [recorded_append, ih, List.filter_append, Family.collect_append, Family.collect_append]
    by_cases bad : r.status ≥ 400
    · have failed : [r].filter (fun q => decide (q.status ≥ 400)) = [r] := List.filter_cons_of_pos (decide_eq_true bad)
      rw [failed, Family.collect_append]
      exact if_pos bad
    · have fine : [r].filter (fun q => decide (q.status ≥ 400)) = [] := List.filter_cons_of_neg (by simpa using bad)
      rw [fine, List.append_nil]
      exact if_neg bad

/-- **What the metrics report** is what was recorded. -/
theorem reports_recorded (records : List RequestRecord) : (recorded records).Reports records := by
  rw [recorded_eq]
  have counted : ∀ (rs : List RequestRecord) method status upstream,
      (Family.collect labels (0 : UInt64) (fun _ n => n + 1) rs).lookup ⟨method, toString status, upstream⟩ =
        shown (fun rs => UInt64.ofNat rs.length) (alike method status upstream rs) := by
    intro rs method status upstream
    rw [Family.lookup_collect, filter_labels, foldl_succ]
    rfl
  constructor
  · exact counted records
  · intro method status upstream
    rw [Family.lookup_collect, filter_labels, foldl_observe]
    rfl
  · intro method status upstream
    show (Family.collect labels (0 : UInt64) (fun _ n => n + 1) _).lookup _ = if _ then _ else _
    rw [counted, counted, alike_errors]
    split
    · rfl
    · rfl
  · intro l mem
    rcases List.mem_append.mp mem with mem | mem
    · rcases List.mem_append.mp mem with mem | mem
      · exact (Family.mem_keys_collect _ _).mp mem
      · exact (Family.mem_keys_collect _ _).mp mem
    · obtain ⟨r, failed, same⟩ := (Family.mem_keys_collect _ _).mp mem
      exact ⟨r, (List.mem_filter.mp failed).1, same⟩
  · exact ⟨Family.nodup_collect _, Family.nodup_collect _, Family.nodup_collect _⟩

end Metrics

end ServiceMesh
