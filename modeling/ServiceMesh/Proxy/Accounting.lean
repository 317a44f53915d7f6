import ServiceMesh.Proxy.Service

/-!
# Every response is counted, if there is an upstream

`forward_request` records each request that it answers, on every path but one: when no upstream is configured it
returns `NoUpstream` before it has anything to record, and `call` turns that into a response of its own
(`unrecorded`). With an upstream, the recorded status is that of the response, and in every interleaving the counters
hold the responses produced (`Books.run`).
-/

namespace ServiceMesh.Proxy

open Conc

variable {w : Nat} {Uri β : Type}

/-- A call made exactly one `record_request`, with the status of its response. -/
def CountedOnce (result : Response β × List RequestRecord × ProxyService w) : Prop :=
  ∃ record, result.2.1 = [record] ∧ record.status = result.1.status

/-- The response that a call has produced. -/
def produced : Status (Pc Uri β) (Response β) → Option (Response β)
  | .running (.ret response) => some response
  | .done response => some response
  | .running _ => none

def isProduced (st : Status (Pc Uri β) (Response β)) : Bool := (produced st).isSome

/-- The call has produced a response with a status of 400 or more. -/
def isError (st : Status (Pc Uri β) (Response β)) : Bool := (produced st).any (·.status ≥ 400)

/-- The counters hold the responses and the errors. -/
structure Books (c : Pool (Shared w) (Pc Uri β) (Response β)) : Prop where
  requests : c.shared.metrics.requestsTotal.Tallies (c.count isProduced)
  errors : c.shared.metrics.errorsTotal.Tallies (c.count isError)

/-- The counters are the numbers of responses and of errors; a counter has 64 bits. -/
def SumsMatch (c : Pool (Shared w) (Pc Uri β) (Response β)) : Prop :=
  Books c ∧ (c.count isProduced < 2 ^ 64 → c.shared.metrics.requestsTotal.total = c.count isProduced ∧
    c.shared.metrics.errorsTotal.total = c.count isError)

/-- A service with these upstreams and no requests yet. -/
def fresh (upstreams : List String) (nextUpstream : BitVec w) (requestTimeout : Nat) :
    Pool (Shared w) (Pc Uri β) (Response β) :=
  ⟨0, ⟨⟨upstreams, nextUpstream, requestTimeout⟩, .new⟩, []⟩

/-- Every call is recorded once, with the status of its response; and however the requests of all connections overlap,
the counters match the responses produced. -/
def CountsEveryRequest (w : Nat) (β : Type) (parse : String → Except String Uri) (upstreams : List String) : Prop :=
  (∀ (s : ProxyService w), s.upstreamAddrs = upstreams → ∀ (start now : Nat) (i : Incoming Uri β),
    CountedOnce (s.call parse start now i)) ∧
  ∀ (nextUpstream : BitVec w) (requestTimeout : Nat) (labels : List (Label (Incoming Uri β))),
    SumsMatch ((shared w parse).run (fresh upstreams nextUpstream requestTimeout) labels)

/-! ## The response that is not recorded -/

/-- A request to a service without upstreams. -/
theorem not_countedOnce_of_empty {s : ProxyService w} (empty : s.upstreamAddrs = []) (parse : String → Except String Uri)
    (start now : Nat) (i : Incoming Uri β) : ¬ CountedOnce (s.call parse start now i) := by
  have chosen : s.selectUpstream = (.error .NoUpstream, s) := dif_pos empty
  rw [ProxyService.call_of_error chosen]
  rintro ⟨record, impossible, -⟩
  cases impossible

/-- `PROXY_UPSTREAM_ADDRS=,` gives a service without upstreams: a request is answered with 502 and not recorded. -/
theorem unrecorded :
    ¬ CountsEveryRequest 64 Unit (fun text : String => (.ok text : Except String String))
      (ProxyConfig.fromEnv fun name => if name = "PROXY_UPSTREAM_ADDRS" then some "," else none).upstreamAddrs := by
  rintro ⟨each, -⟩
  have empty : (ProxyConfig.fromEnv fun name => if name = "PROXY_UPSTREAM_ADDRS" then some "," else none).upstreamAddrs = [] := by
    decide
  refine not_countedOnce_of_empty (s := ⟨[], 0, 30000⟩) rfl _ 0 0 ⟨⟨"GET", some "/"⟩, fun _ => .timedOut⟩ (each _ ?_ 0 0 _)
  exact empty.symm

/-! ## With an upstream -/

theorem countedOnce_of_upstream {s : ProxyService w} (some : s.upstreamAddrs ≠ []) (parse : String → Except String Uri)
    (start now : Nat) (i : Incoming Uri β) : CountedOnce (s.call parse start now i) := by
  have chosen : s.selectUpstream = (.ok _, _) := dif_neg some
  cases built : ProxyService.buildUpstreamUri parse _ i.request.pathAndQuery with
  | error e =>
    rw [ProxyService.call_of_bad_uri chosen built]
    exact ⟨_, rfl, rfl⟩
  | ok uri =>
    rw [ProxyService.call_of_uri chosen built]
    exact ⟨_, rfl, rfl⟩

/-- What a call is about to record is the status of its response. -/
def Honest : Status (Pc Uri β) (Response β) → Prop
  | .running (.record r response) => r.status = response.status
  | _ => True

/-- **One step** with an upstream: it records what the response says, or it records nothing and produces nothing. -/
theorem step_cases (parse : String → Except String Uri) (now : Nat) (s : Shared w) (k : Pc Uri β)
    (some : s.service.upstreamAddrs ≠ []) (honest : Honest (.running k)) :
    (k.step parse now s).1.service.upstreamAddrs = s.service.upstreamAddrs ∧ Honest (k.step parse now s).2 ∧
    (((k.step parse now s).1.metrics = s.metrics ∧ produced (k.step parse now s).2 = produced (.running k)) ∨
      ∃ r response, k = .record r response ∧ r.status = response.status ∧
        k.step parse now s = ({ s with metrics := s.metrics.recordRequest r }, .running (.ret response))) := by
  cases k with
  | start i => exact ⟨rfl, trivial, .inl ⟨rfl, rfl⟩⟩
  | select since i =>
    have chosen : s.service.selectUpstream = (.ok _, _) := dif_neg some
    cases built : ProxyService.buildUpstreamUri parse _ i.request.pathAndQuery with
    | error e =>
      rw [step_of_bad_uri chosen built]
      exact ⟨rfl, rfl, .inl ⟨rfl, rfl⟩⟩
    | ok uri =>
      rw [step_of_uri chosen built]
      exact ⟨rfl, trivial, .inl ⟨rfl, rfl⟩⟩
  | forward since method upstream outcome => exact ⟨rfl, rfl, .inl ⟨rfl, rfl⟩⟩
  | record r response => exact ⟨rfl, trivial, .inr ⟨r, response, rfl, honest, rfl⟩⟩
  | ret response => exact ⟨rfl, trivial, .inl ⟨rfl, rfl⟩⟩

theorem upstream_outline (parse : String → Except String Uri) {upstreams : List String} (some : upstreams ≠ []) :
    Outline (shared (β := β) w parse) ⟨fun _ => True, fun _ _ _ => True⟩
      (fun _ s => s.service.upstreamAddrs = upstreams) (fun _ _ _ st => Honest st) where
  start _ _ _ _ _ _ := trivial
  own i now s k _ same honest := by
    obtain ⟨kept, next, -⟩ := step_cases parse now s k (same ▸ some) honest
    exact ⟨kept.trans same, next⟩
  other _ _ _ _ _ _ _ _ _ _ theirs := theirs
  tick _ _ _ same := same
  tickLoc _ _ _ _ _ _ honest := honest

theorem recordRequest_errorsTotal (r : RequestRecord) (m : Metrics) :
    (m.recordRequest r).errorsTotal = if r.status ≥ 400 then m.errorsTotal.inc (Metrics.labels r) else m.errorsTotal := by
  unfold Metrics.recordRequest
  split <;> rfl

theorem recordRequest_requestsTotal (r : RequestRecord) (m : Metrics) :
    (m.recordRequest r).requestsTotal = m.requestsTotal.inc (Metrics.labels r) := by
  unfold Metrics.recordRequest
  split <;> rfl

variable {parse : String → Except String Uri} {c : Pool (Shared w) (Pc Uri β) (Response β)}

/-- **One step** of a call keeps the books. -/
theorem Books.step (h : Books c) {i : Nat} {k : Pc Uri β} (running : c.calls[i]? = some (.running k))
    (some : c.shared.service.upstreamAddrs ≠ []) (honest : Honest (.running k)) :
    Books ((shared w parse).exec c (.step i)) := by
  have after : ((shared w parse).exec c (.step i)).shared = (k.step parse c.clock c.shared).1 := Object.shared_exec running
  have responses : ((shared w parse).exec c (.step i)).count isProduced + (isProduced (.running k)).toNat =
      c.count isProduced + (isProduced (k.step parse c.clock c.shared).2).toNat := count_step isProduced running
  have errors : ((shared w parse).exec c (.step i)).count isError + (isError (.running k)).toNat =
      c.count isError + (isError (k.step parse c.clock c.shared).2).toNat := count_step isError running
  obtain ⟨-, -, ⟨metrics, same⟩ | ⟨r, response, rfl, status, step⟩⟩ := step_cases parse c.clock c.shared k some honest
  · simp only [isProduced, isError, same] at responses errors
    constructor
    · rw [after, metrics, show ((shared w parse).exec c (.step i)).count isProduced = c.count isProduced by omega]
      exact h.requests
    · rw [after, metrics, show ((shared w parse).exec c (.step i)).count isError = c.count isError by omega]
      exact h.errors
  · rw [step] at after responses errors
    simp only [isProduced, isError, produced, Option.isSome_some, Option.isSome_none, Option.any_some, Option.any_none,
      Bool.toNat_true, Bool.toNat_false, Nat.add_zero] at responses errors
    constructor
    · rw [after, responses]
      show (c.shared.metrics.recordRequest r).requestsTotal.Tallies _
      rw [recordRequest_requestsTotal]
      exact h.requests.inc _
    · rw [after, errors]
      show (c.shared.metrics.recordRequest r).errorsTotal.Tallies _
      rw [recordRequest_errorsTotal, status]
      by_cases bad : response.status ≥ 400
      · rw [if_pos bad, decide_eq_true bad, Bool.toNat_true]
        exact h.errors.inc _
      · rw [if_neg bad, decide_eq_false bad, Bool.toNat_false]
        exact h.errors

/-- **Every schedule** keeps the books. -/
theorem Books.run (parse : String → Except String Uri) {upstreams : List String} (some : upstreams ≠ []) (nextUpstream : BitVec w) (requestTimeout : Nat)
    (labels : List (Label (Incoming Uri β))) :
    Books ((shared w parse).run (fresh upstreams nextUpstream requestTimeout) labels) := by
  have any : ∀ i : Incoming Uri β, .call i ∈ labels → True := fun _ _ => trivial
  refine (upstream_outline (w := w) parse some).keeps ?_ ?_ ?_ (.of_no_calls rfl)
    ⟨Family.tallies_nil, Family.tallies_nil⟩ (Object.along_calls any)
  · exact fun _ _ before => ⟨before.requests, before.errors⟩
  · intro c i _ before
    constructor <;> rw [count_call]
    · exact before.requests
    · exact before.errors
  · intro c i k running holds before
    refine before.step running ?_ (holds.2 i _ running)
    rw [holds.1]
    exact some

theorem isError_le_isProduced (c : Pool (Shared w) (Pc Uri β) (Response β)) : c.count isError ≤ c.count isProduced := by
  apply List.countP_mono_left
  intro st _ bad
  cases response : produced st with
  | none => simp [isError, response] at bad
  | some r => simp [isProduced, response]

/-- **Every request is counted once, exactly when there is an upstream.** -/
theorem counts_every_request_iff (w : Nat) (β : Type) (parse : String → Except String Uri) (upstreams : List String) :
    CountsEveryRequest w β parse upstreams ↔ upstreams ≠ [] := by
  constructor
  · rintro ⟨each, -⟩ empty
    exact not_countedOnce_of_empty (s := ⟨upstreams, 0, 0⟩) empty parse 0 0 ⟨⟨"GET", none⟩, fun _ => .timedOut⟩
      (each _ rfl 0 0 _)
  · intro some
    refine ⟨fun s same start now i => countedOnce_of_upstream (same ▸ some) parse start now i, ?_⟩
    intro nextUpstream requestTimeout labels
    have books := Books.run parse some nextUpstream requestTimeout labels
    refine ⟨books, fun few => ⟨books.requests.exact few, books.errors.exact ?_⟩⟩
    have bound := isError_le_isProduced ((shared w parse).run (fresh upstreams nextUpstream requestTimeout) labels)
    omega

end ServiceMesh.Proxy
