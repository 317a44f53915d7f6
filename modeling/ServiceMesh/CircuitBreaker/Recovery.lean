import ServiceMesh.CircuitBreaker.Refinement

/-!
# What a half-open breaker learns from

Requests and their outcomes, one call at a time: an outcome reports a request that was admitted before, and
requests may take any time. `record_success` does not say which request succeeded, so in `HalfOpen` every report
counts, also that of a request admitted before the trip (`late_success`): the breaker closes on the number of
successes reported since it entered `HalfOpen` (`closes_on_reported_successes`). And nothing counts the requests
admitted in `HalfOpen`: until an outcome is reported, all are (`probes_unbounded`).
-/

namespace ServiceMesh.CircuitBreaker

/-- A request, or the outcome of the request that stands at place `r` of the run. -/
inductive Event where
  | request (now : Nat)
  | succeeded (now r : Nat)
  | failed (now r : Nat)
deriving Repr, DecidableEq

namespace Event

def call : Event → Call
  | request now => ⟨now, .allowRequest⟩
  | succeeded now _ => ⟨now, .recordSuccess⟩
  | failed now _ => ⟨now, .recordFailure⟩

/-- The request whose outcome is reported. -/
def reports : Event → Option Nat
  | request _ => none
  | succeeded _ r => some r
  | failed _ r => some r

/-- The request that is reported successful. -/
def success : Event → Option Nat
  | succeeded _ r => some r
  | _ => none

end Event

/-- The breaker after a run of events. -/
def afterEvents (config : CircuitBreakerConfig) (run : List Event) : CircuitBreaker :=
  after config (run.map Event.call)

/-- Place `r` of the run is a request, and it was admitted. -/
def admitted (config : CircuitBreakerConfig) (run : List Event) (r : Nat) : Bool :=
  match run[r]? with
  | some (.request now) => ((afterEvents config (run.take r)).allowRequest now).1
  | _ => false

/-- Every outcome is that of a request admitted before it, and no request has two. -/
structure Genuine (config : CircuitBreakerConfig) (run : List Event) : Prop where
  admitted : ∀ e ∈ run.zipIdx, ∀ r ∈ e.1.reports, r < e.2 ∧ admitted config run r = true
  distinct : (run.filterMap Event.reports).Nodup

/-- A half-open period of a run that ends with the breaker closed: it enters with `probe`, and `last` closes it. -/
structure Closes (config : CircuitBreakerConfig) (before : List Event) (probe : Event) (during : List Event)
    (last : Event) : Prop where
  outside : (afterEvents config before).state ≠ .HalfOpen
  inside : ∀ held, held <+: during → (afterEvents config (before ++ probe :: held)).state = .HalfOpen
  closed : (afterEvents config (before ++ probe :: (during ++ [last]))).state = .Closed

/-- The requests reported successful in a half-open period. -/
def successes (during : List Event) (last : Event) : List Nat := (during ++ [last]).filterMap Event.success

/-- The breaker closes only when enough of the requests admitted since it entered `HalfOpen` were reported
successful. -/
def ClosesOnFreshEvidence (config : CircuitBreakerConfig) (run : List Event) : Prop :=
  ∀ before probe during last later, run = before ++ probe :: (during ++ last :: later) →
    Closes config before probe during last →
    max 1 config.successThreshold.toNat ≤ ((successes during last).filter (before.length ≤ ·)).length

/-- Two requests are admitted at time 0; the first fails and trips the breaker; a third is the probe at time 10; then
the second is reported successful. -/
def slowRequest : List Event := [.request 0, .request 0, .failed 0 0, .request 10, .succeeded 10 1]

theorem slowRequest_genuine : Genuine ⟨1, 10, 1⟩ slowRequest := ⟨by decide, by decide⟩

theorem slowRequest_closes : Closes ⟨1, 10, 1⟩ (slowRequest.take 3) (.request 10) [] (.succeeded 10 1) := by
  refine ⟨by decide, ?_, by decide⟩
  intro held part
  rw [List.prefix_nil.mp part]
  decide

/-- The breaker closes, though the only request admitted since it entered `HalfOpen` is still under way. -/
theorem late_success : Genuine ⟨1, 10, 1⟩ slowRequest ∧ ¬ ClosesOnFreshEvidence ⟨1, 10, 1⟩ slowRequest := by
  refine ⟨slowRequest_genuine, fun law => ?_⟩
  have enough := law (slowRequest.take 3) (.request 10) [] (.succeeded 10 1) [] rfl slowRequest_closes
  exact absurd enough (by decide)

/-! ## A half-open period on the abstract breaker -/

/-- The abstract breaker after a run of events. -/
def Abstract.afterEvents (config : CircuitBreakerConfig) (run : List Event) : Abstract :=
  Abstract.after config (run.map Event.call)

theorem state_afterEvents (config : CircuitBreakerConfig) (run : List Event) :
    (afterEvents config run).state = (Abstract.afterEvents config run).state :=
  ((simulates_new config).run _).live.state

theorem Abstract.afterEvents_snoc (config : CircuitBreakerConfig) (run : List Event) (e : Event) :
    Abstract.afterEvents config (run ++ [e]) = ((Abstract.afterEvents config run).call config e.call).2 := by
  simp [Abstract.afterEvents, Abstract.after]

/-- `HalfOpen` is entered with no successes. -/
theorem Abstract.enters {config : CircuitBreakerConfig} {a : Abstract} {e : Event} (outside : a.state ≠ .HalfOpen)
    (inside : (a.call config e.call).2.state = .HalfOpen) : (a.call config e.call).2 = .halfOpen 0 := by
  cases a with
  | halfOpen s => exact absurd rfl outside
  | closed k =>
    cases e with
    | request now => cases inside
    | succeeded now r => cases inside
    | failed now r =>
      simp only [call, Event.call, failure] at inside
      split at inside <;> cases inside
  | opened t =>
    cases e with
    | request now =>
      change ((opened t).allow config now).2.state = .HalfOpen at inside
      change ((opened t).allow config now).2 = .halfOpen 0
      simp only [allow] at inside ⊢
      by_cases early : now - t < config.timeout
      · rw [if_pos early] at inside
        cases inside
      · rw [if_neg early]
    | succeeded now r => cases inside
    | failed now r => cases inside

/-- An event that leaves the breaker half open counts if it is a success. -/
theorem Abstract.stays {config : CircuitBreakerConfig} {s : Nat} {e : Event}
    (inside : ((Abstract.halfOpen s).call config e.call).2.state = .HalfOpen) :
    ((Abstract.halfOpen s).call config e.call).2 = .halfOpen (s + e.success.toList.length) := by
  cases e with
  | request now => rfl
  | succeeded now r =>
    simp only [call, Event.call, success] at inside ⊢
    split at inside
    · cases inside
    · next short => rw [if_neg short]; rfl
  | failed now r => cases inside

/-- An event that closes a half-open breaker is a success that reaches the threshold. -/
theorem Abstract.leaves {config : CircuitBreakerConfig} {s : Nat} {e : Event}
    (closed : ((Abstract.halfOpen s).call config e.call).2.state = .Closed) :
    max 1 config.successThreshold.toNat ≤ s + e.success.toList.length := by
  cases e with
  | request now => cases closed
  | succeeded now r =>
    simp only [call, Event.call, success] at closed
    split at closed
    · next reached =>
      show _ ≤ s + 1
      omega
    · cases closed
  | failed now r => cases closed

/-! ## Closing -/

theorem successes_snoc (during : List Event) (e : Event) :
    ((during ++ [e]).filterMap Event.success).length =
      (during.filterMap Event.success).length + e.success.toList.length := by
  rw [List.filterMap_append, List.length_append]
  cases h : e.success <;> simp [h]

theorem Event.reports_of_success {e : Event} {r : Nat} (succeeded : e.success = some r) : e.reports = some r := by
  cases e with
  | succeeded now r' => exact succeeded
  | request now => cases succeeded
  | failed now r' => cases succeeded

/-- Successes are among the outcomes. -/
theorem successes_sublist (events : List Event) :
    (events.filterMap Event.success).Sublist (events.filterMap Event.reports) := by
  induction events with
  | nil => exact List.Sublist.refl _
  | cons e events ih =>
    cases e with
    | request now => exact ih
    | succeeded now r => exact ih.cons_cons r
    | failed now r => exact ih.cons r

/-- Inside a half-open period the breaker has counted the successes reported in it. -/
theorem Closes.counted {config : CircuitBreakerConfig} {before during : List Event} {probe last : Event}
    (closes : Closes config before probe during last) {held : List Event} (part : held <+: during) :
    Abstract.afterEvents config (before ++ probe :: held) = .halfOpen (held.filterMap Event.success).length := by
  induction held using List.reverseRecOn with
  | nil =>
    have outside := closes.outside
    have inside := closes.inside [] List.nil_prefix
    rw [state_afterEvents] at outside inside
    rw [Abstract.afterEvents_snoc] at inside ⊢
    exact Abstract.enters outside inside
  | append_singleton held e ih =>
    have counted := ih ((List.prefix_append held [e]).trans part)
    have inside := closes.inside _ part
    rw [state_afterEvents] at inside
    rw [← List.cons_append, ← List.append_assoc, Abstract.afterEvents_snoc, counted] at inside ⊢
    rw [Abstract.stays inside, successes_snoc]

/-- **Closing takes enough reported successes.** In every run whose outcomes are those of distinct requests admitted
before, the breaker goes from `HalfOpen` to `Closed` only if at least `max 1 success_threshold` requests have been
reported successful since it last entered `HalfOpen`, whenever they were admitted. -/
theorem closes_on_reported_successes (config : CircuitBreakerConfig) (run : List Event) (genuine : Genuine config run)
    (before : List Event) (probe : Event) (during : List Event) (last : Event) (later : List Event)
    (split : run = before ++ probe :: (during ++ last :: later)) (closes : Closes config before probe during last) :
    max 1 config.successThreshold.toNat ≤ (successes during last).length ∧ (successes during last).Nodup ∧
      ∀ r ∈ successes during last, admitted config run r = true := by
  refine ⟨?_, ?_, ?_⟩
  · have closed := closes.closed
    have counted := closes.counted (List.prefix_refl during)
    rw [state_afterEvents, ← List.cons_append, ← List.append_assoc, Abstract.afterEvents_snoc, counted] at closed
    rw [successes, successes_snoc]
    exact Abstract.leaves closed
  · have part : (during ++ [last]).Sublist run := by
      rw [split, show during ++ last :: later = (during ++ [last]) ++ later by simp]
      exact ((List.sublist_append_left _ later).cons probe).trans (List.sublist_append_right before _)
    exact ((successes_sublist _).trans (part.filterMap Event.reports)).nodup genuine.distinct
  · intro r mem
    obtain ⟨e, listed, succeeded⟩ := List.mem_filterMap.mp mem
    have reported : e ∈ run := by
      rw [split]
      simp only [List.mem_append, List.mem_cons, List.not_mem_nil, or_false] at listed ⊢
      tauto
    obtain ⟨i, bound, place⟩ := List.mem_iff_getElem.mp reported
    have indexed : (e, i) ∈ run.zipIdx := by
      rw [List.mk_mem_zipIdx_iff_getElem?, List.getElem?_eq_getElem bound, place]
    exact (genuine.admitted _ indexed r (Event.reports_of_success succeeded)).2

/-- The success of the slow request, admitted before the trip, is the one that closes the breaker. -/
theorem closes_on_reported_successes_probe :
    Closes ⟨1, 10, 1⟩ (slowRequest.take 3) (.request 10) [] (.succeeded 10 1) ∧
    successes [] (.succeeded 10 1) = [1] ∧ 1 ≤ (successes [] (.succeeded 10 1)).length ∧
    ∀ r ∈ successes [] (.succeeded 10 1), admitted ⟨1, 10, 1⟩ slowRequest r = true := by
  obtain ⟨enough, -, reported⟩ := closes_on_reported_successes ⟨1, 10, 1⟩ slowRequest slowRequest_genuine
    (slowRequest.take 3) (.request 10) [] (.succeeded 10 1) [] rfl slowRequest_closes
  exact ⟨slowRequest_closes, rfl, enough, reported⟩

/-! ## Probes -/

/-- At most `B` requests are admitted after the breaker enters `HalfOpen` and before the next outcome is reported. -/
def ProbesBounded (config : CircuitBreakerConfig) (B : Nat) : Prop :=
  ∀ before probe during, (0 :: (before ++ probe :: during).map Call.now).IsChain (· ≤ ·) →
    (after config before).state ≠ .HalfOpen → (after config (before ++ [probe])).state = .HalfOpen →
    (∀ c ∈ during, c.method ≠ .recordSuccess ∧ c.method ≠ .recordFailure) →
    (Transducer.trace call (after config (before ++ [probe])) during).count (some true) ≤ B

/-- Failures at time 0 trip the breaker at the threshold. -/
theorem Abstract.after_failures (config : CircuitBreakerConfig) (n : Nat) :
    Abstract.after config (List.replicate n ⟨0, .recordFailure⟩) =
      if max 1 config.failureThreshold.toNat ≤ n then .opened 0 else .closed n := by
  induction n with
  | zero => exact (if_neg (by omega)).symm
  | succ n ih =>
    have step : Abstract.after config (List.replicate (n + 1) ⟨0, .recordFailure⟩) =
        (Abstract.after config (List.replicate n ⟨0, .recordFailure⟩)).failure config 0 := by
      rw [List.replicate_succ', Abstract.after, Transducer.run_append]
      rfl
    rw [step, ih]
    by_cases tripped : max 1 config.failureThreshold.toNat ≤ n
    · rw [if_pos tripped, if_pos (by omega)]
      rfl
    · rw [if_neg tripped, failure]
      by_cases reached : n + 1 ≥ config.failureThreshold.toNat
      · rw [if_pos reached, if_pos (by omega)]
      · rw [if_neg reached, if_neg (by omega)]

/-- A half-open breaker admits every request. -/
theorem Abstract.admits_halfOpen (config : CircuitBreakerConfig) (now n s : Nat) :
    Transducer.trace (Abstract.call config) (.halfOpen s) (List.replicate n ⟨now, .allowRequest⟩) =
      List.replicate n (some true) := by
  induction n with
  | zero => rfl
  | succ n ih =>
    rw [List.replicate_succ, List.replicate_succ, Transducer.trace_cons]
    exact congrArg (some true :: ·) ih

/-- Enough failures at time 0 to trip the breaker. -/
def tripping (config : CircuitBreakerConfig) : List Call :=
  List.replicate (max 1 config.failureThreshold.toNat) ⟨0, .recordFailure⟩

/-- A request when the timeout has passed. -/
def probing (config : CircuitBreakerConfig) : Call := ⟨config.timeout, .allowRequest⟩

theorem flood_ordered (config : CircuitBreakerConfig) (n : Nat) :
    (0 :: (tripping config ++ probing config :: List.replicate n (probing config)).map Call.now).IsChain (· ≤ ·) := by
  apply List.Pairwise.isChain
  rw [← List.replicate_succ, List.map_append, tripping, List.map_replicate, List.map_replicate, List.pairwise_cons]
  constructor
  · intro t _
    exact Nat.zero_le t
  · refine List.pairwise_append.mpr ⟨List.pairwise_replicate.mpr (.inr (Nat.le_refl _)),
      List.pairwise_replicate.mpr (.inr (Nat.le_refl _)), ?_⟩
    intro t first u _
    rw [List.eq_of_mem_replicate first]
    exact Nat.zero_le u

/-- A trip at time 0, a probe when the timeout has passed, and then any number of requests: all are admitted. -/
theorem flooded (config : CircuitBreakerConfig) (n : Nat) :
    (after config (tripping config)).state = .Open ∧ (after config (tripping config ++ [probing config])).state = .HalfOpen ∧
    Transducer.trace call (after config (tripping config ++ [probing config])) (List.replicate n (probing config)) =
      List.replicate n (some true) := by
  have tripped : Abstract.after config (tripping config) = .opened 0 := by
    rw [tripping, Abstract.after_failures, if_pos (Nat.le_refl _)]
  have probed : Abstract.after config (tripping config ++ [probing config]) = .halfOpen 0 := by
    have step : Abstract.after config (tripping config ++ [probing config]) =
        ((Abstract.after config (tripping config)).allow config config.timeout).2 := by
      rw [Abstract.after, Transducer.run_append]
      rfl
    rw [step, tripped, Abstract.allow, if_neg (by omega)]
  have opened : Simulates config (after config (tripping config)) (.opened 0) :=
    tripped ▸ (simulates_new config).run (tripping config)
  have half : Simulates config (after config (tripping config ++ [probing config])) (.halfOpen 0) :=
    probed ▸ (simulates_new config).run (tripping config ++ [probing config])
  refine ⟨opened.live.state, half.live.state, ?_⟩
  rw [Transducer.trace_eq Simulates.call half, probing, Abstract.admits_halfOpen]

/-- No bound holds: one more request than it allows is admitted. -/
theorem flood_exceeds (config : CircuitBreakerConfig) (B : Nat) : ¬ ProbesBounded config B := by
  intro bounded
  obtain ⟨opened, half, answers⟩ := flooded config (B + 1)
  have few := bounded (tripping config) (probing config) (List.replicate (B + 1) (probing config))
    (flood_ordered config (B + 1)) (by rw [opened]; decide) half (by
      intro c mem
      rw [List.eq_of_mem_replicate mem]
      exact ⟨(by decide : Method.allowRequest ≠ .recordSuccess), (by decide : Method.allowRequest ≠ .recordFailure)⟩)
  rw [answers, List.count_replicate_self] at few
  omega

/-- Under the default configuration. -/
theorem default_flooded : ¬ ∃ B, ProbesBounded .default B := by
  rintro ⟨B, bounded⟩
  exact flood_exceeds _ B bounded

/-- **Probes are not limited.** Under no configuration is there a bound on the requests admitted in `HalfOpen` before
an outcome is reported. -/
theorem probes_unbounded (config : CircuitBreakerConfig) : ¬ ∃ B, ProbesBounded config B := by
  rintro ⟨B, bounded⟩
  exact flood_exceeds config B bounded

end ServiceMesh.CircuitBreaker
