import ServiceMesh.Fairness
import ServiceMesh.Metrics.Series

/-!
# What the metrics say of the traffic

The metrics are written by `record_request` only, so at every moment they report the requests recorded so far
(`metrics_recorded`), one for each answer that a call has made (`recordings_answers`). Every request recorded, and every
one on its way, went to an upstream that `select_upstream` picked for it; the picks go round, so the requests that an
upstream has answered and those on the way to it are the same number for all upstreams, to within one round
(`flow_of_upstream`, `RoundRobin.Fair.rounds`).
-/

namespace ServiceMesh.Proxy

open Conc RoundRobin

variable {w : Nat} {Uri β : Type}

/-- The request that a step records. -/
def recording (_ : Shared w) : Pc Uri β → Option RequestRecord
  | .record r _ => some r
  | _ => none

/-- The call has made an answer with such a status. -/
def isAnswered (good : UInt16 → Bool) (st : Status (Pc Uri β) (Response β)) : Bool := (produced st).any (good ·.status)

/-- The call waits for this upstream, or has its answer and has not recorded it. -/
def isBoundFor (upstream : String) (st : Status (Pc Uri β) (Response β)) : Bool := target st = some upstream

/-- The call is past `next_upstream.fetch_add`. -/
def hasPicked : Status (Pc Uri β) (Response β) → Bool
  | .running (.start _) => false
  | .running (.select _ _) => false
  | _ => true

/-- The requests that the metrics show for an upstream, over all methods and statuses. -/
def served (upstream : String) (m : Metrics) : Nat :=
  Family.total (m.requestsTotal.filter fun series => series.1.upstream = upstream)

/-- **The step that picks**: without upstreams the call is over, with upstreams it is bound for the next one. -/
theorem select_cases (parse : String → Except String Uri) (now : Nat) (s : Shared w) (since : Nat) (i : Incoming Uri β) :
    (s.service.upstreamAddrs = [] ∧
      (Pc.select since i).step parse now s = (s, .running (.ret (ProxyService.errorResponse 502 "Proxy error")))) ∨
    ∃ k, s.service.upstreamAddrs ≠ [] ∧
      (Pc.select since i).step parse now s =
        ({ s with service := { s.service with nextUpstream := s.service.nextUpstream + 1 } }, .running k) ∧
      target (.running k) = s.service.upstreamAddrs[s.service.index]? ∧ produced (.running k) = none := by
  by_cases empty : s.service.upstreamAddrs = []
  · have chosen : s.service.selectUpstream = (.error .NoUpstream, s.service) := dif_pos empty
    exact .inl ⟨empty, step_of_error chosen⟩
  · have chosen : s.service.selectUpstream = (.ok _, _) := dif_neg empty
    have there := List.getElem?_eq_getElem (ProxyService.index_lt empty)
    cases built : ProxyService.buildUpstreamUri parse _ i.request.pathAndQuery with
    | error e => exact .inr ⟨_, empty, step_of_bad_uri chosen built, there.symm, rfl⟩
    | ok uri => exact .inr ⟨_, empty, step_of_uri chosen built, there.symm, rfl⟩

/-! ## The metrics report the records -/

/-- A step writes the metrics with what it records, or leaves them. -/
theorem step_metrics (parse : String → Except String Uri) (now : Nat) (s : Shared w) (k : Pc Uri β) :
    (k.step parse now s).1.metrics = (recording s k).elim s.metrics fun r => s.metrics.recordRequest r := by
  cases k with
  | select since i =>
    rcases select_cases parse now s since i with ⟨-, step⟩ | ⟨k, -, step, -⟩
    · rw [step]
      rfl
    · rw [step]
      rfl
  | _ => rfl

/-- **The metrics are the records made.** -/
theorem metrics_recorded (parse : String → Except String Uri) (upstreams : List String) (nextUpstream : BitVec w)
    (requestTimeout : Nat) (labels : List (Label (Incoming Uri β))) :
    ((shared w parse).run (fresh upstreams nextUpstream requestTimeout) labels).shared.metrics =
      .recorded ((shared w parse).emitted recording (fresh upstreams nextUpstream requestTimeout) labels) := by
  refine Object.run_emitted (O := shared w parse)
    (I := fun out (c : Pool (Shared w) (Pc Uri β) (Response β)) => c.shared.metrics = .recorded out) ?_ ?_ ?_ rfl labels
  · exact fun out c d same => same
  · exact fun out c i same => same
  · intro out c i k running same
    rw [Object.shared_exec running]
    show (k.step parse c.clock c.shared).1.metrics = _
    rw [step_metrics, same]
    cases recording c.shared k with
    | none => rw [Option.toList_none, List.append_nil, Option.elim_none]
    | some r => rw [Option.toList_some, Metrics.recorded_append, Option.elim_some]

/-! ## The records are of requests that went to an upstream -/

/-- The upstreams stay what they are, and a call is bound for one of them. -/
theorem bound_outline (parse : String → Except String Uri) (upstreams : List String) :
    Outline (shared (β := β) w parse) ⟨fun _ => True, fun _ _ _ => True⟩
      (fun _ s => s.service.upstreamAddrs = upstreams)
      (fun _ _ _ st => ∀ upstream, target st = some upstream → upstream ∈ upstreams) where
  start _ _ _ _ _ _ _ impossible := by cases impossible
  own i now s k _ same bound := by
    cases k with
    | select since i =>
      show (Pc.step parse now s _).1.service.upstreamAddrs = _ ∧ ∀ upstream, target (Pc.step parse now s _).2 = _ → _
      rcases select_cases parse now s since i with ⟨-, step⟩ | ⟨k, -, step, going, -⟩
      · rw [step]
        exact ⟨same, fun _ impossible => by cases impossible⟩
      · rw [step]
        refine ⟨same, fun upstream bound => ?_⟩
        rw [going, same] at bound
        exact List.mem_of_getElem? bound
    | start i => exact ⟨same, fun _ impossible => by cases impossible⟩
    | forward since method upstream outcome => exact ⟨same, bound⟩
    | record r response => exact ⟨same, fun _ impossible => by cases impossible⟩
    | ret response => exact ⟨same, fun _ impossible => by cases impossible⟩
  other _ _ _ _ _ _ _ _ _ _ theirs := theirs
  tick _ _ _ same := same
  tickLoc _ _ _ _ _ _ bound := bound

section
variable (parse : String → Except String Uri) (upstreams : List String) (nextUpstream : BitVec w) (requestTimeout : Nat)
  (labels : List (Label (Incoming Uri β)))

theorem recordings_upstream :
    ∀ r ∈ (shared w parse).emitted recording (fresh upstreams nextUpstream requestTimeout) labels, r.upstream ∈ upstreams := by
  have any : ∀ i : Incoming Uri β, .call i ∈ labels → True := fun _ _ => trivial
  refine (bound_outline parse upstreams).emitted_forall ?_ (.of_no_calls rfl) (Object.along_calls any)
  intro i now s k r _ _ bound records
  cases k with
  | record r' response =>
    cases records
    exact bound _ rfl
  | _ => cases records

/-- **One record for each answer**, with its status. -/
theorem recordings_answers (some : upstreams ≠ []) (good : UInt16 → Bool) :
    ((shared w parse).emitted recording (fresh upstreams nextUpstream requestTimeout) labels).countP (good ·.status) =
      ((shared w parse).run (fresh upstreams nextUpstream requestTimeout) labels).count (isAnswered good) := by
  have any : ∀ i : Incoming Uri β, .call i ∈ labels → True := fun _ _ => trivial
  have answered := (upstream_outline (β := β) (w := w) parse some).arrivals recording (good ·.status)
    (isAnswered good) (fun _ => rfl) ?_ (c := fresh upstreams nextUpstream requestTimeout) (.of_no_calls rfl)
    (Object.along_calls any)
  · exact (Nat.zero_add _).symm.trans answered
  · intro i now s k _ same honest
    show _ = (isAnswered good (k.step parse now s).2).toNat
    cases k with
    | select since i =>
      rcases select_cases parse now s since i with ⟨empty, -⟩ | ⟨k, -, step, -, fresh⟩
      · exact absurd (same.symm.trans empty) some
      · have none : isAnswered good (.running k) = false := by rw [isAnswered, fresh, Option.any_none]
        rw [step, none]
        rfl
    | record r response =>
      have agree : r.status = response.status := honest
      show 0 + (good r.status).toNat = (good response.status).toNat
      rw [agree, Nat.zero_add]
    | _ => rfl

/-- **The requests of an upstream**: each time it was picked, the request is on its way to it or recorded. -/
theorem flow_of_upstream (upstream : String) :
    ((shared w parse).emitted picked (fresh upstreams nextUpstream requestTimeout) labels).countP
        (fun p => upstreams[p]? = some upstream) =
      ((shared w parse).run (fresh upstreams nextUpstream requestTimeout) labels).count (isBoundFor upstream) +
        ((shared w parse).emitted recording (fresh upstreams nextUpstream requestTimeout) labels).countP
          (·.upstream = upstream) := by
  have any : ∀ i : Incoming Uri β, .call i ∈ labels → True := fun _ _ => trivial
  have flows := (bound_outline (β := β) (w := w) parse upstreams).flow picked recording
    (fun p => upstreams[p]? = some upstream) (·.upstream = upstream) (isBoundFor upstream) (fun _ => rfl) ?_
    (c := fresh upstreams nextUpstream requestTimeout) (.of_no_calls rfl) (Object.along_calls any)
  · exact (Nat.zero_add _).symm.trans flows
  · intro i now s k _ same bound
    show _ = (isBoundFor upstream (k.step parse now s).2).toNat + _
    cases k with
    | select since i =>
      rcases select_cases parse now s since i with ⟨empty, step⟩ | ⟨k, some_upstream, step, going, -⟩
      · rw [step, picked, if_pos empty]
        rfl
      · have bound : isBoundFor upstream (.running k) = decide (upstreams[s.service.index]? = some upstream) := by
          rw [isBoundFor, going, same]
        rw [step, picked, if_neg some_upstream, bound]
        exact Nat.zero_add _
    | record r response =>
      show (decide (some r.upstream = some upstream)).toNat = 0 + (decide (r.upstream = upstream)).toNat
      rw [Nat.zero_add, decide_eq_decide.mpr Option.some_inj]
    | _ => rfl

/-- Each pick is a call's. -/
theorem length_picked_le (some : upstreams ≠ []) :
    ((shared w parse).emitted picked (fresh upstreams nextUpstream requestTimeout) labels).length ≤
      ((shared w parse).run (fresh upstreams nextUpstream requestTimeout) labels).calls.length := by
  have any : ∀ i : Incoming Uri β, .call i ∈ labels → True := fun _ _ => trivial
  have taken := (upstream_outline (β := β) (w := w) parse some).arrivals picked (fun _ => true) hasPicked
    (fun _ => rfl) ?_ (c := fresh upstreams nextUpstream requestTimeout) (.of_no_calls rfl) (Object.along_calls any)
  · rw [List.countP_true] at taken
    calc _ = ((shared w parse).run _ labels).count hasPicked := (Nat.zero_add _).symm.trans taken
      _ ≤ _ := List.countP_le_length
  · intro i now s k _ same honest
    show _ = (hasPicked (k.step parse now s).2).toNat
    cases k with
    | select since i =>
      rcases select_cases parse now s since i with ⟨empty, -⟩ | ⟨k, some_upstream, step, going, -⟩
      · exact absurd (same.symm.trans empty) some
      · rw [step, picked, if_neg some_upstream]
        cases k with
        | start i => cases going.trans (List.getElem?_eq_getElem (ProxyService.index_lt some_upstream))
        | select since i => cases going.trans (List.getElem?_eq_getElem (ProxyService.index_lt some_upstream))
        | _ => rfl
    | _ => rfl

theorem recorded_of_empty (empty : upstreams = []) :
    (shared w parse).emitted recording (fresh upstreams nextUpstream requestTimeout) labels = [] := by
  apply List.eq_nil_iff_forall_not_mem.mpr
  intro r mem
  have impossible := recordings_upstream parse upstreams nextUpstream requestTimeout labels r mem
  rw [empty] at impossible
  cases impossible

theorem picked_of_empty (empty : upstreams = []) :
    (shared w parse).emitted picked (fresh upstreams nextUpstream requestTimeout) labels = [] := by
  have any : ∀ i : Incoming Uri β, .call i ∈ labels → True := fun _ _ => trivial
  apply List.eq_nil_iff_forall_not_mem.mpr
  refine (bound_outline parse upstreams).emitted_forall ?_ (.of_no_calls rfl) (Object.along_calls any)
  intro i now s k p _ same _ picks
  cases k with
  | select since i =>
    rw [picked, if_pos (same.trans empty)] at picks
    cases picks
  | _ => cases picks

theorem length_recorded_le :
    ((shared w parse).emitted recording (fresh upstreams nextUpstream requestTimeout) labels).length ≤
      ((shared w parse).run (fresh upstreams nextUpstream requestTimeout) labels).calls.length := by
  by_cases empty : upstreams = []
  · rw [recorded_of_empty parse upstreams nextUpstream requestTimeout labels empty]
    exact Nat.zero_le _
  · have answers := recordings_answers parse upstreams nextUpstream requestTimeout labels empty fun _ => true
    rw [List.countP_true] at answers
    exact answers.trans_le List.countP_le_length

/-- **The picks come in rounds**, as long as the counter does not wrap in the middle of one. -/
theorem picks_rounds (unwrapped : nextUpstream.toNat +
    ((shared w parse).run (fresh upstreams nextUpstream requestTimeout) labels).calls.length ≤ 2 ^ w ∨
    upstreams.length ∣ 2 ^ w) :
    ∃ rounds, ∀ upstream,
      upstreams.count upstream * rounds ≤
        ((shared w parse).emitted picked (fresh upstreams nextUpstream requestTimeout) labels).countP
          (fun p => upstreams[p]? = some upstream) ∧
      ((shared w parse).emitted picked (fresh upstreams nextUpstream requestTimeout) labels).countP
          (fun p => upstreams[p]? = some upstream) ≤ upstreams.count upstream * (rounds + 1) := by
  by_cases empty : upstreams = []
  · rw [picked_of_empty parse upstreams nextUpstream requestTimeout labels empty]
    exact ⟨0, fun _ => ⟨Nat.le_refl 0, Nat.zero_le _⟩⟩
  · have picks := (picks_fairly w β parse empty nextUpstream requestTimeout [] labels).1
    have fair : Fair 1 upstreams.length ((shared w parse).emitted picked (fresh upstreams nextUpstream requestTimeout) labels) := by
      rcases unwrapped with fits | divides
      · have few := length_picked_le parse upstreams nextUpstream requestTimeout labels empty
        exact picks.unwrapped (Nat.le_trans (Nat.add_le_add_left few _) fits)
      · exact picks.aligned divides
    obtain ⟨rounds, each⟩ := fair.rounds picks.positions
    refine ⟨rounds, fun upstream => ?_⟩
    have places := each fun p => upstreams[p]? = some upstream
    rw [countP_range_getElem] at places
    exact places

/-- **At every moment the metrics report the requests answered**: all of them went to an upstream of the list, and for
each choice of statuses there are as many as answers that were made, but for a service without upstreams. -/
theorem metrics_report :
    ((shared w parse).run (fresh upstreams nextUpstream requestTimeout) labels).shared.metrics.Reports
      ((shared w parse).emitted recording (fresh upstreams nextUpstream requestTimeout) labels) ∧
    let c := (shared w parse).run (fresh upstreams nextUpstream requestTimeout) labels
    let records := (shared w parse).emitted recording (fresh upstreams nextUpstream requestTimeout) labels
    (∀ r ∈ records, r.upstream ∈ upstreams) ∧
      ∀ good : UInt16 → Bool, records.countP (good ·.status) = if upstreams = [] then 0 else c.count (isAnswered good) := by
  refine ⟨?_, ?_⟩
  · rw [metrics_recorded parse upstreams nextUpstream requestTimeout labels]
    exact Metrics.reports_recorded _
  intro c records
  refine ⟨recordings_upstream parse upstreams nextUpstream requestTimeout labels, fun good => ?_⟩
  split
  · next empty =>
    rw [show records = [] from recorded_of_empty parse upstreams nextUpstream requestTimeout labels empty]
    rfl
  · next some => exact recordings_answers parse upstreams nextUpstream requestTimeout labels some good

/-- The sum of an upstream's series is the number of its records, if 64 bits hold it. -/
theorem served_recorded (upstream : String) (records : List RequestRecord) (few : records.length < 2 ^ 64) :
    served upstream (.recorded records) = records.countP (·.upstream = upstream) := by
  have tallies := Family.tallies_collect (fun l : HttpLabels => l.upstream = upstream) Metrics.labels records
  rw [served, Metrics.recorded_eq]
  exact tallies.exact (Nat.lt_of_le_of_lt List.countP_le_length few)

/-- **The traffic is spread evenly at every moment**, as long as 64 bits hold the requests: what an upstream has answered
and what is on the way to it come to the same number of rounds for all upstreams, or one more, each place in the list
counting for itself. -/
theorem spreads_evenly
    (few : ((shared w parse).run (fresh upstreams nextUpstream requestTimeout) labels).calls.length < 2 ^ 64)
    (unwrapped : nextUpstream.toNat +
      ((shared w parse).run (fresh upstreams nextUpstream requestTimeout) labels).calls.length ≤ 2 ^ w ∨
      upstreams.length ∣ 2 ^ w) :
    let c := (shared w parse).run (fresh upstreams nextUpstream requestTimeout) labels
    ∃ rounds, ∀ upstream,
      upstreams.count upstream * rounds ≤ served upstream c.shared.metrics + c.count (isBoundFor upstream) ∧
      served upstream c.shared.metrics + c.count (isBoundFor upstream) ≤ upstreams.count upstream * (rounds + 1) := by
  intro c
  obtain ⟨rounds, each⟩ := picks_rounds parse upstreams nextUpstream requestTimeout labels unwrapped
  refine ⟨rounds, fun upstream => ?_⟩
  have requests := flow_of_upstream parse upstreams nextUpstream requestTimeout labels upstream
  have enough := Nat.lt_of_le_of_lt (length_recorded_le parse upstreams nextUpstream requestTimeout labels) few
  have shown := served_recorded upstream _ enough
  rw [← metrics_recorded] at shown
  show _ ≤ served upstream c.shared.metrics + c.count (isBoundFor upstream) ∧ _
  rw [shown, Nat.add_comm, ← requests]
  exact each upstream

end

/-- Two requests, the second of which is answered and recorded before the first has picked an upstream. -/
theorem spreads_evenly_overtaken :
    let get : Incoming String Unit := ⟨⟨"GET", some "/"⟩, fun _ => .response 200 ()⟩
    let c := (shared 64 fun text => .ok text).run (fresh ["http://a", "http://b"] 0 30000)
      [.call get, .step 0, .call get, .step 1, .step 1, .step 1, .step 1, .step 0]
    ∃ rounds, ∀ upstream,
      ["http://a", "http://b"].count upstream * rounds ≤ served upstream c.shared.metrics + c.count (isBoundFor upstream) ∧
      served upstream c.shared.metrics + c.count (isBoundFor upstream) ≤
        ["http://a", "http://b"].count upstream * (rounds + 1) :=
  spreads_evenly _ _ _ _ _ (by decide +kernel) (.inl (by decide +kernel))

end ServiceMesh.Proxy
