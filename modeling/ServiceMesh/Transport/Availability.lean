import ServiceMesh.Transport.Basic

/-!
# When the load balancer finds an available endpoint

An endpoint is available when it is healthy and its breaker admits the request. `select` asks the
policy's choice, and if its breaker refuses, every healthy endpoint *with another address*. Asking a
breaker that refuses only counts the request, so all are asked about the same state. What the scan
leaves out are the endpoints that share the address of the first choice: they are other endpoints,
with breakers of their own (`duplicate_address`).
-/

namespace ServiceMesh

variable {ι : Type}

namespace Endpoint

/-- The endpoint's breaker would admit a request at `now`. -/
def admits (now : Nat) (e : Endpoint) : Bool := (e.allowRequest now).1

/-- `e'` is `e` but for the number of requests that its breaker has counted. -/
def Counted (e e' : Endpoint) : Prop :=
  ∃ n, e' = { e with circuitBreaker := { e.circuitBreaker with totalRequests := n } }

theorem Counted.refl (e : Endpoint) : Counted e e := ⟨e.circuitBreaker.totalRequests, rfl⟩

theorem Counted.trans {a b c : Endpoint} (first : Counted a b) (second : Counted b c) : Counted a c := by
  obtain ⟨_, rfl⟩ := first
  obtain ⟨n, rfl⟩ := second
  exact ⟨n, rfl⟩

theorem Counted.address {e e' : Endpoint} (h : Counted e e') : e'.address = e.address := by
  obtain ⟨_, rfl⟩ := h
  rfl

theorem Counted.admits {e e' : Endpoint} (h : Counted e e') (now : Nat) : e'.admits now = e.admits now := by
  obtain ⟨n, rfl⟩ := h
  exact e.circuitBreaker.allowRequest_totalRequests now n

end Endpoint

namespace Endpoints

/-- The heaps agree but for the requests counted. -/
def Counted (heap heap' : Endpoints ι) : Prop := ∀ e, (heap e).Counted (heap' e)

theorem Counted.refl (heap : Endpoints ι) : Counted heap heap := fun e => .refl (heap e)

theorem Counted.trans {a b c : Endpoints ι} (first : Counted a b) (second : Counted b c) : Counted a c :=
  fun e => (first e).trans (second e)

variable [DecidableEq ι]

theorem allowRequest_eq (now : Nat) (e : ι) (heap : Endpoints ι) :
    (heap.allowRequest now e).1 = (heap e).admits now := rfl

/-- Asking a breaker that refuses only counts the request. -/
theorem counted_of_refused {now : Nat} {e : ι} {heap : Endpoints ι} (refused : (heap e).admits now = false) :
    Counted heap (heap.allowRequest now e).2 := by
  intro other
  by_cases mine : other = e
  · subst mine
    refine ⟨(heap other).circuitBreaker.totalRequests + 1, ?_⟩
    simp only [allowRequest, Function.update_self, Endpoint.allowRequest]
    rw [CircuitBreaker.allowRequest_refused refused]
  · simp only [allowRequest, Function.update_of_ne mine]
    exact .refl _

end Endpoints

namespace LoadBalancer

/-! ## What the scan finds -/

variable [DecidableEq ι]

/-- The endpoint has another address, and its breaker admits the request. -/
def Another (now : Nat) (address : String) (heap : Endpoints ι) (e : ι) : Prop :=
  (heap e).address ≠ address ∧ (heap e).admits now = true

omit [DecidableEq ι] in
theorem Another.of_counted {now : Nat} {address : String} {heap heap' : Endpoints ι} (counted : heap.Counted heap') {e : ι} :
    Another now address heap' e ↔ Another now address heap e := by
  rw [Another, Another, (counted e).address, (counted e).admits]

/-- What a scan comes to: it finds nothing and counts requests only, or it finds the first endpoint
with another address that is admitted, having only counted requests before it asked that one. -/
def Scanned (now : Nat) (address : String) (list : List ι) (heap : Endpoints ι) (found : Option ι × Endpoints ι) : Prop :=
  ((∀ e ∈ list, ¬ Another now address heap e) ∧ ∃ heap', heap.Counted heap' ∧ found = (none, heap')) ∨
  ∃ before e after heap', list = before ++ e :: after ∧ (∀ b ∈ before, ¬ Another now address heap b) ∧
    Another now address heap e ∧ heap.Counted heap' ∧ found = (some e, (heap'.allowRequest now e).2)

/-- An endpoint is passed over. -/
theorem Scanned.pass {now : Nat} {address : String} {e : ι} {rest : List ι} {heap heap' : Endpoints ι}
    {found : Option ι × Endpoints ι} (counted : heap.Counted heap') (passed : ¬ Another now address heap e)
    (h : Scanned now address rest heap' found) : Scanned now address (e :: rest) heap found := by
  rcases h with ⟨none, later, more, eq⟩ | ⟨before, x, after, later, split, none, hit, more, eq⟩
  · refine .inl ⟨?_, later, counted.trans more, eq⟩
    intro b mem
    rcases List.mem_cons.mp mem with rfl | mem
    · exact passed
    · rw [← Another.of_counted counted]
      exact none b mem
  · refine .inr ⟨e :: before, x, after, later, by rw [split]; rfl, ?_, (Another.of_counted counted).mp hit,
      counted.trans more, eq⟩
    intro b mem
    rcases List.mem_cons.mp mem with rfl | mem
    · exact passed
    · rw [← Another.of_counted counted]
      exact none b mem

theorem findAnother_scanned (now : Nat) (address : String) (list : List ι) (heap : Endpoints ι) :
    Scanned now address list heap (findAnother now address list heap) := by
  induction list generalizing heap with
  | nil => exact .inl ⟨fun e mem => absurd mem List.not_mem_nil, heap, .refl heap, rfl⟩
  | cons e rest ih =>
    rw [findAnother]
    by_cases other : (heap e).address ≠ address
    · rw [if_pos other]
      cases admitted : (heap e).admits now with
      | true =>
        refine .inr ⟨[], e, rest, heap, rfl, fun b mem => absurd mem List.not_mem_nil, ⟨other, admitted⟩, .refl heap, ?_⟩
        rw [← Endpoints.allowRequest_eq] at admitted
        simp only [admitted, if_true]
      | false =>
        have passed : ¬ Another now address heap e := by
          rintro ⟨-, hit⟩
          rw [admitted] at hit
          cases hit
        have counted := Endpoints.counted_of_refused admitted
        rw [← Endpoints.allowRequest_eq] at admitted
        simp only [admitted, Bool.false_eq_true, if_false]
        exact (ih _).pass counted passed
    · rw [if_neg other]
      exact (ih heap).pass (.refl heap) fun hit => other hit.1

/-- A scan after requests were counted is a scan from before. -/
theorem Scanned.of_counted {now : Nat} {address : String} {list : List ι} {heap heap' : Endpoints ι}
    {found : Option ι × Endpoints ι} (counted : heap.Counted heap') (h : Scanned now address list heap' found) :
    Scanned now address list heap found := by
  simp only [Scanned, Another.of_counted counted] at h ⊢
  rcases h with ⟨none, later, more, eq⟩ | ⟨before, x, after, later, split, none, hit, more, eq⟩
  · exact .inl ⟨none, later, counted.trans more, eq⟩
  · exact .inr ⟨before, x, after, later, split, none, hit, counted.trans more, eq⟩

/-! ## What `select` finds -/

omit [DecidableEq ι] in
/-- The policy chooses one of the healthy endpoints. -/
theorem choose_mem (sample : Nat) (heap : Endpoints ι) {healthy : List ι} (some_healthy : healthy ≠ [])
    (lb : LoadBalancer ι) : ∃ first ∈ healthy, (lb.choose sample heap healthy).1 = some first := by
  have bound : 0 < healthy.length := List.length_pos_iff.mpr some_healthy
  have indexed : ∀ n : Nat, ∃ first ∈ healthy, healthy[n % healthy.length]? = some first := by
    intro n
    have lt := Nat.mod_lt n bound
    exact ⟨healthy[n % healthy.length], List.getElem_mem lt, List.getElem?_eq_getElem lt⟩
  have nonempty : healthy.isEmpty = false := by simpa using some_healthy
  cases policy : lb.policy with
  | RoundRobin => simpa [choose, policy, roundRobin, nonempty] using indexed lb.nextIndex.toNat
  | ConsistentHash => simpa [choose, policy, roundRobin, nonempty] using indexed lb.nextIndex.toNat
  | Random => simpa [choose, policy, random, nonempty] using indexed sample
  | LeastConnections =>
    simp only [choose, policy, leastConnections]
    cases least : healthy.argmin fun e => (heap e).activeConnections.toNat with
    | none => exact absurd (List.argmin_eq_none.mp least) some_healthy
    | some first => exact ⟨first, List.argmin_mem least, rfl⟩

/-- `select` once the policy has chosen `first`. -/
theorem select_of_choice {now sample : Nat} {heap : Endpoints ι} {lb : LoadBalancer ι} {first : ι}
    (mem : first ∈ lb.healthyEndpoints heap)
    (choice : (lb.choose sample heap (lb.healthyEndpoints heap)).1 = some first) :
    lb.select now sample heap =
      if !(heap.allowRequest now first).1 then
        ((findAnother now ((heap.allowRequest now first).2 first).address (lb.healthyEndpoints heap)
            (heap.allowRequest now first).2).1,
          (findAnother now ((heap.allowRequest now first).2 first).address (lb.healthyEndpoints heap)
            (heap.allowRequest now first).2).2,
          (lb.choose sample heap (lb.healthyEndpoints heap)).2)
      else (some first, (heap.allowRequest now first).2, (lb.choose sample heap (lb.healthyEndpoints heap)).2) := by
  have nonempty : (lb.healthyEndpoints heap).isEmpty = false := by
    rw [List.isEmpty_eq_false_iff]
    exact List.ne_nil_of_mem mem
  simp only [select, nonempty, Bool.false_eq_true, if_false]
  rw [choice]

/-- **`select`**: there is no healthy endpoint; or the policy's choice is admitted; or it is refused, and
the healthy endpoints with another address are scanned. -/
theorem select_cases (now sample : Nat) (heap : Endpoints ι) (lb : LoadBalancer ι) :
    let healthy := lb.healthyEndpoints heap
    let chosen := lb.choose sample heap healthy
    (healthy = [] ∧ lb.select now sample heap = (none, heap, lb)) ∨
    (∃ first ∈ healthy, chosen.1 = some first ∧ (heap first).admits now = true ∧
      lb.select now sample heap = (some first, (heap.allowRequest now first).2, chosen.2)) ∨
    (∃ first ∈ healthy, ∃ found, chosen.1 = some first ∧ (heap first).admits now = false ∧
      Scanned now (heap first).address healthy heap found ∧
      lb.select now sample heap = (found.1, found.2, chosen.2)) := by
  intro healthy chosen
  by_cases some_healthy : healthy = []
  · refine .inl ⟨some_healthy, ?_⟩
    unfold select
    exact if_pos (List.isEmpty_iff.mpr some_healthy)
  · obtain ⟨first, mem, choice⟩ := lb.choose_mem sample heap some_healthy
    have unfolded := @select_of_choice ι _ now sample heap lb first mem choice
    right
    cases admitted : (heap first).admits now with
    | true =>
      refine .inl ⟨first, mem, choice, admitted, ?_⟩
      rw [unfolded, Endpoints.allowRequest_eq, admitted]
      rfl
    | false =>
      have counted := Endpoints.counted_of_refused admitted
      have scanned := findAnother_scanned now ((heap.allowRequest now first).2 first).address healthy
        (heap.allowRequest now first).2
      rw [(counted first).address] at scanned unfolded
      refine .inr ⟨first, mem, _, choice, admitted, scanned.of_counted counted, ?_⟩
      rw [unfolded, Endpoints.allowRequest_eq, admitted]
      rfl

/-- The endpoint is healthy, and its breaker admits a request at `now`. -/
def Available (now : Nat) (heap : Endpoints ι) (e : ι) : Prop :=
  (heap e).healthy = true ∧ (heap e).admits now = true

omit [DecidableEq ι] in
theorem mem_healthyEndpoints {heap : Endpoints ι} {lb : LoadBalancer ι} {e : ι} :
    e ∈ lb.healthyEndpoints heap ↔ e ∈ lb.endpoints ∧ (heap e).healthy = true := by
  rw [healthyEndpoints, List.mem_filter]

/-- The policy's choice is refused by its breaker, and all available endpoints have its address. -/
def FirstShadows (now sample : Nat) (heap : Endpoints ι) (lb : LoadBalancer ι) : Prop :=
  ∃ first, (lb.choose sample heap (lb.healthyEndpoints heap)).1 = some first ∧ (heap first).admits now = false ∧
    ∀ e ∈ lb.endpoints, Available now heap e → (heap e).address = (heap first).address

/-- A scan of the healthy endpoints finds nothing exactly when all available ones have the address left out. -/
theorem Scanned.none_iff {now : Nat} {address : String} {heap : Endpoints ι} {lb : LoadBalancer ι}
    {found : Option ι × Endpoints ι} (scanned : Scanned now address (lb.healthyEndpoints heap) heap found) :
    found.1 = none ↔ ∀ e ∈ lb.endpoints, Available now heap e → (heap e).address = address := by
  rcases scanned with ⟨nothing, later, -, rfl⟩ | ⟨before, x, after, later, split, -, hit, -, rfl⟩
  · refine ⟨fun _ e listed available => ?_, fun _ => rfl⟩
    by_contra other
    exact nothing e (mem_healthyEndpoints.mpr ⟨listed, available.1⟩) ⟨other, available.2⟩
  · constructor
    · intro impossible
      cases impossible
    · intro same
      have mem : x ∈ lb.healthyEndpoints heap := by
        rw [split]
        exact List.mem_append_right _ List.mem_cons_self
      obtain ⟨listed, healthy⟩ := mem_healthyEndpoints.mp mem
      exact absurd (same x listed ⟨healthy, hit.2⟩) hit.1

/-- **When `select` returns `None`.** -/
theorem select_none_iff (now sample : Nat) (heap : Endpoints ι) (lb : LoadBalancer ι) :
    (lb.select now sample heap).1 = none ↔ lb.healthyEndpoints heap = [] ∨ FirstShadows now sample heap lb := by
  rcases lb.select_cases now sample heap with
    ⟨empty, eq⟩ | ⟨first, mem, choice, admitted, eq⟩ | ⟨first, mem, found, choice, refused, scanned, eq⟩
  · rw [eq]
    exact ⟨fun _ => .inl empty, fun _ => rfl⟩
  · rw [eq]
    constructor
    · intro impossible
      cases impossible
    · rintro (empty | ⟨other, choice', refused, -⟩)
      · rw [empty] at mem
        exact absurd mem List.not_mem_nil
      · rw [choice] at choice'
        cases choice'
        rw [admitted] at refused
        cases refused
  · rw [eq, scanned.none_iff]
    constructor
    · intro same
      exact .inr ⟨first, choice, refused, same⟩
    · rintro (empty | ⟨other, choice', -, same⟩)
      · rw [empty] at mem
        exact absurd mem List.not_mem_nil
      · rw [choice] at choice'
        cases choice'
        exact same

/-- The policy's choice is refused by its breaker, and every available endpoint, of which there is one, hides
behind its address. -/
def Shadowed (now sample : Nat) (heap : Endpoints ι) (lb : LoadBalancer ι) : Prop :=
  (∃ e ∈ lb.endpoints, Available now heap e) ∧ FirstShadows now sample heap lb

/-- `select` returns `None` if and only if no endpoint of the list is available. -/
def NoneIffUnavailable (now sample : Nat) (heap : Endpoints ι) (lb : LoadBalancer ι) : Prop :=
  (lb.select now sample heap).1 = none ↔ ∀ e ∈ lb.endpoints, ¬ Available now heap e

/-- Two endpoints at one address; five failures at time 0 have opened the breaker of the first. -/
def twins : Endpoints Bool
  | false => (List.replicate 5 0).foldl (fun e now => e.recordFailure now) (.new "http://host1:8080")
  | true => .new "http://host1:8080"

/-- Round robin comes to the first twin, whose breaker refuses; the second, healthy and admitted, is passed
over for its address. -/
theorem duplicate_address :
    Available 0 twins true ∧ ((LoadBalancer.new [false, true] .RoundRobin).select 0 0 twins).1 = none ∧
      ¬ NoneIffUnavailable 0 0 twins (.new [false, true] .RoundRobin) := by
  have available : Available 0 twins true := ⟨by decide, by decide⟩
  have gives_up : ((LoadBalancer.new [false, true] .RoundRobin).select 0 0 twins).1 = none := by decide
  refine ⟨available, gives_up, ?_⟩
  intro law
  exact law.mp gives_up true (by decide) available

/-- **Availability, exactly.** `select` gives up only when it must, unless every available endpoint has the
address of a refused first choice. -/
theorem none_iff_unavailable_iff (now sample : Nat) (heap : Endpoints ι) (lb : LoadBalancer ι) :
    NoneIffUnavailable now sample heap lb ↔ ¬ Shadowed now sample heap lb := by
  rw [NoneIffUnavailable, select_none_iff]
  constructor
  · rintro law ⟨⟨e, listed, available⟩, shadows⟩
    exact law.mp (.inr shadows) e listed available
  · intro visible
    constructor
    · rintro (empty | shadows) e listed available
      · have mem := mem_healthyEndpoints.mpr ⟨listed, available.1⟩
        rw [empty] at mem
        exact List.not_mem_nil mem
      · exact visible ⟨⟨e, listed, available⟩, shadows⟩
    · -- with nothing available, the first choice, if there is one, is refused
      intro nothing
      by_cases some_healthy : lb.healthyEndpoints heap = []
      · exact .inl some_healthy
      · obtain ⟨first, mem, choice⟩ := lb.choose_mem sample heap some_healthy
        obtain ⟨listed, healthy⟩ := mem_healthyEndpoints.mp mem
        have refused : (heap first).admits now = false := by
          rw [← Bool.not_eq_true]
          intro admitted
          exact nothing first listed ⟨healthy, admitted⟩
        exact .inr ⟨first, choice, refused, fun e listed available => absurd available (nothing e listed)⟩

end LoadBalancer

end ServiceMesh
