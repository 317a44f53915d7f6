import ServiceMesh.Transport.Availability

/-!
# What `select` returns and what it touches

`select` asks breakers one after the other until one admits; asking is also what moves a breaker from `Open` to
`HalfOpen`. A breaker that refuses only counts the request, and the first that admits ends the call, so the endpoint
returned is the only one that changes otherwise (`selection_frame`). Under `LeastConnections` the policy decides who
is asked first; who is asked next, when that one refuses, is decided by the list (`heavier_fallback`,
`least_connections_choice`).
-/

namespace ServiceMesh

variable {ι : Type}

/-- The endpoint after its breaker has counted `n` more requests: nothing else is different. -/
def Endpoint.asked (n : Nat) (e : Endpoint) : Endpoint :=
  { e with circuitBreaker := { e.circuitBreaker with totalRequests := e.circuitBreaker.totalRequests + UInt64.ofNat n } }

theorem Endpoint.asked_zero (e : Endpoint) : e.asked 0 = e := by
  simp [asked]

theorem Endpoint.asked_asked (m n : Nat) (e : Endpoint) : (e.asked m).asked n = e.asked (m + n) := by
  simp only [asked, UInt64.ofNat_add, add_assoc]

namespace Endpoints

variable [DecidableEq ι]

/-- The heap after the breakers of `refused` have counted a request each time they stand in the list. -/
def asked (refused : List ι) (heap : Endpoints ι) : Endpoints ι := fun e => (heap e).asked (refused.count e)

theorem asked_nil (heap : Endpoints ι) : heap.asked [] = heap := by
  funext e
  exact (heap e).asked_zero

theorem asked_cons (e : ι) (refused : List ι) (heap : Endpoints ι) :
    (heap.asked [e]).asked refused = heap.asked (e :: refused) := by
  funext x
  rw [asked, asked, asked, Endpoint.asked_asked, ← List.count_append]
  rfl

/-- A breaker that refuses counts the request. -/
theorem asked_of_refused {now : Nat} {e : ι} {heap : Endpoints ι} (refused : (heap e).admits now = false) :
    (heap.allowRequest now e).2 = heap.asked [e] := by
  funext x
  by_cases mine : x = e
  · subst mine
    simp only [allowRequest, Function.update_self, Endpoint.allowRequest, asked, List.count_singleton_self]
    rw [CircuitBreaker.allowRequest_refused refused]
    rfl
  · simp only [allowRequest, Function.update_of_ne mine, asked]
    rw [List.count_singleton, if_neg (by simpa using Ne.symm mine), Endpoint.asked_zero]

end Endpoints

namespace LoadBalancer

variable [DecidableEq ι]

/-- How a call ends: breakers of `list` refused, and then either nobody was left or one of `list` admitted. -/
structure Ends (now : Nat) (list : List ι) (heap : Endpoints ι) (refused : List ι) (result : Option ι × Endpoints ι) :
    Prop where
  among : ∀ e ∈ refused, e ∈ list
  none : result.1 = none → result.2 = heap.asked refused
  some : ∀ e, result.1 = some e → e ∈ list ∧ (heap.asked refused).allowRequest now e = (true, result.2)

section
variable {now : Nat} {list asked : List ι} {heap : Endpoints ι} {result : Option ι × Endpoints ι}

/-- Nobody is left to ask. -/
theorem Ends.nobody : Ends now list heap [] (Option.none, heap) := by
  refine ⟨fun e mem => absurd mem List.not_mem_nil, fun _ => heap.asked_nil.symm, ?_⟩
  intro e found
  cases found

/-- The first one asked admits. -/
theorem Ends.admitted {e : ι} (mem : e ∈ list) (admitted : (heap e).admits now = true) :
    Ends now list heap [] (Option.some e, (heap.allowRequest now e).2) := by
  have answer : (heap.allowRequest now e).1 = true := admitted
  refine ⟨fun x mem => absurd mem List.not_mem_nil, (fun impossible => by cases impossible), ?_⟩
  rintro _ ⟨⟩
  refine ⟨mem, ?_⟩
  rw [heap.asked_nil, ← answer]

/-- The first one asked refuses: its breaker counts the request, and the call goes on from there. -/
theorem Ends.refused {first : ι} (mem : first ∈ list) (h : Ends now list (heap.asked [first]) asked result) :
    Ends now list heap (first :: asked) result := by
  obtain ⟨among, none, some⟩ := h
  rw [Endpoints.asked_cons] at none some
  refine ⟨?_, none, some⟩
  intro x listed
  rcases List.mem_cons.mp listed with rfl | later
  · exact mem
  · exact among x later

theorem Ends.cons (h : Ends now list heap asked result) (e : ι) : Ends now (e :: list) heap asked result := by
  refine ⟨fun x mem => List.mem_cons_of_mem e (h.among x mem), h.none, ?_⟩
  intro x found
  obtain ⟨listed, admits⟩ := h.some x found
  exact ⟨List.mem_cons_of_mem e listed, admits⟩

end

theorem findAnother_ends (now : Nat) (address : String) (list : List ι) (heap : Endpoints ι) :
    ∃ refused, Ends now list heap refused (findAnother now address list heap) := by
  induction list generalizing heap with
  | nil => exact ⟨[], .nobody⟩
  | cons e rest ih =>
    rw [findAnother]
    by_cases other : (heap e).address ≠ address
    · rw [if_pos other]
      cases admitted : (heap e).admits now with
      | true =>
        have answer : (heap.allowRequest now e).1 = true := admitted
        simp only [answer, if_true]
        exact ⟨[], .admitted List.mem_cons_self admitted⟩
      | false =>
        have answer : (heap.allowRequest now e).1 = false := admitted
        simp only [answer, Bool.false_eq_true, if_false]
        rw [Endpoints.asked_of_refused admitted]
        obtain ⟨refused, ends⟩ := ih (heap.asked [e])
        exact ⟨e :: refused, (ends.cons e).refused List.mem_cons_self⟩
    · rw [if_neg other]
      obtain ⟨refused, ends⟩ := ih heap
      exact ⟨refused, ends.cons e⟩

theorem select_ends (now sample : Nat) (heap : Endpoints ι) (lb : LoadBalancer ι) :
    ∃ refused, Ends now (lb.healthyEndpoints heap) heap refused
      ((lb.select now sample heap).1, (lb.select now sample heap).2.1) := by
  by_cases some_healthy : lb.healthyEndpoints heap = []
  · have nothing : lb.select now sample heap = (none, heap, lb) := by
      unfold select
      exact if_pos (List.isEmpty_iff.mpr some_healthy)
    rw [nothing]
    exact ⟨[], .nobody⟩
  · obtain ⟨first, mem, choice⟩ := lb.choose_mem sample heap some_healthy
    rw [select_of_choice mem choice]
    cases admitted : (heap first).admits now with
    | true =>
      have answer : (heap.allowRequest now first).1 = true := admitted
      simp only [answer, Bool.not_true, Bool.false_eq_true, if_false]
      exact ⟨[], .admitted mem admitted⟩
    | false =>
      have answer : (heap.allowRequest now first).1 = false := admitted
      simp only [answer, Bool.not_false, if_true]
      rw [Endpoints.asked_of_refused admitted]
      obtain ⟨refused, ends⟩ := findAnother_ends now ((heap.asked [first]) first).address (lb.healthyEndpoints heap)
        (heap.asked [first])
      exact ⟨first :: refused, ends.refused mem⟩

/-- **Selection is sound and leaves the others alone.** An endpoint that is returned is one of the list, was
healthy, and its own breaker, asked in this call, admitted. The breakers asked before it are of healthy endpoints of
the list, and each counted the request; nothing else is different, and if nobody is returned, nothing but these
counts is. So a breaker goes from `Open` to `HalfOpen` only if its endpoint is the one returned. -/
theorem selection_frame (now sample : Nat) (heap : Endpoints ι) (lb : LoadBalancer ι) :
    ∃ refused : List ι, (∀ e ∈ refused, e ∈ lb.endpoints ∧ (heap e).healthy = true) ∧
      (∀ e, (lb.select now sample heap).1 = some e → e ∈ lb.endpoints ∧ (heap e).healthy = true ∧
        ((heap e).asked (refused.count e)).allowRequest now = (true, (lb.select now sample heap).2.1 e)) ∧
      (∀ other, (lb.select now sample heap).1 ≠ some other →
        (lb.select now sample heap).2.1 other = (heap other).asked (refused.count other)) ∧
      (∀ e, (heap e).circuitBreaker.state = .Open →
        ((lb.select now sample heap).2.1 e).circuitBreaker.state = .HalfOpen →
        (lb.select now sample heap).1 = some e) := by
  obtain ⟨refused, among, none, some⟩ := lb.select_ends now sample heap
  have frame : ∀ other, (lb.select now sample heap).1 ≠ .some other →
      (lb.select now sample heap).2.1 other = (heap other).asked (refused.count other) := by
    intro other different
    cases result : (lb.select now sample heap).1 with
    | none => exact congrFun (none result) other
    | some e =>
      have asked := (some e result).2
      have after : (lb.select now sample heap).2.1 = ((heap.asked refused).allowRequest now e).2 := by rw [asked]
      rw [after]
      have distinct : other ≠ e := by
        intro same
        exact different (same ▸ result)
      exact Function.update_of_ne distinct _ _
  refine ⟨refused, fun e mem => mem_healthyEndpoints.mp (among e mem), ?_, frame, ?_⟩
  · intro e result
    obtain ⟨listed, asked⟩ := some e result
    obtain ⟨member, healthy⟩ := mem_healthyEndpoints.mp listed
    have answer : (((heap.asked refused) e).allowRequest now).1 = true := congrArg Prod.fst asked
    have after : ((heap.asked refused).allowRequest now e).2 = (lb.select now sample heap).2.1 := congrArg Prod.snd asked
    refine ⟨member, healthy, Prod.ext answer ?_⟩
    rw [← after]
    simp only [Endpoints.allowRequest, Function.update_self]
    rfl
  · intro e opened half
    by_contra different
    rw [frame e different] at half
    exact absurd (opened.symm.trans half) (by decide)

/-! ## Least connections -/

/-- The endpoint that `select` returns has no more connections than any other that is available. -/
def KeepsLeast (now sample : Nat) (heap : Endpoints ι) (lb : LoadBalancer ι) : Prop :=
  ∀ e, (lb.select now sample heap).1 = some e → ∀ other ∈ lb.endpoints, Available now heap other →
    (heap e).activeConnections.toNat ≤ (heap other).activeConnections.toNat

/-- Three endpoints: the idle one has been tripped by five failures at time 0, the others have 2 and 1 connections. -/
def loaded : Endpoints (Fin 3)
  | 0 => (List.replicate 5 0).foldl (fun e now => e.recordFailure now) (.new "http://host1:8080")
  | 1 => { Endpoint.new "http://host2:8080" with activeConnections := 2 }
  | 2 => { Endpoint.new "http://host3:8080" with activeConnections := 1 }

/-- The least loaded endpoint is refused; the next in the list is taken, though the third has fewer connections. -/
theorem heavier_fallback :
    ((LoadBalancer.new [0, 1, 2] .LeastConnections).select 0 0 loaded).1 = some 1 ∧ Available 0 loaded 2 ∧
      ¬ KeepsLeast 0 0 loaded (.new [0, 1, 2] .LeastConnections) := by
  have taken : ((LoadBalancer.new [0, 1, 2] .LeastConnections).select 0 0 loaded).1 = some 1 := by decide
  have available : Available 0 loaded 2 := ⟨by decide, by decide⟩
  refine ⟨taken, available, ?_⟩
  intro law
  exact absurd (law 1 taken 2 (by decide) available) (by decide)

/-- **Least connections, then list order.** Under `LeastConnections`, an endpoint that is returned is the one that the
policy picked, a healthy one with the fewest connections of all healthy ones, if the breaker of that one admits; and if
it refuses, the first healthy endpoint in the list with another address whose breaker admits. -/
theorem least_connections_choice (now sample : Nat) (heap : Endpoints ι) (lb : LoadBalancer ι)
    (policy : lb.policy = .LeastConnections) (e : ι) (selected : (lb.select now sample heap).1 = some e) :
    ∃ first ∈ lb.healthyEndpoints heap,
      (lb.choose sample heap (lb.healthyEndpoints heap)).1 = some first ∧
      (∀ other ∈ lb.healthyEndpoints heap, (heap first).activeConnections.toNat ≤ (heap other).activeConnections.toNat) ∧
      (((heap first).admits now = true ∧ e = first) ∨
        ((heap first).admits now = false ∧ ∃ before after, lb.healthyEndpoints heap = before ++ e :: after ∧
          (heap e).address ≠ (heap first).address ∧ (heap e).admits now = true ∧
          ∀ b ∈ before, (heap b).address = (heap first).address ∨ (heap b).admits now = false)) := by
  have least : ∀ first, (lb.choose sample heap (lb.healthyEndpoints heap)).1 = some first →
      ∀ other ∈ lb.healthyEndpoints heap, (heap first).activeConnections.toNat ≤ (heap other).activeConnections.toNat := by
    intro first choice other mem
    simp only [choose, policy, leastConnections] at choice
    exact List.le_of_mem_argmin (f := fun e => (heap e).activeConnections.toNat) mem choice
  rcases lb.select_cases now sample heap with
    ⟨empty, eq⟩ | ⟨first, mem, choice, admitted, eq⟩ | ⟨first, mem, found, choice, refused, scanned, eq⟩
  · rw [eq] at selected
    cases selected
  · rw [eq] at selected
    have same : first = e := Option.some.inj selected
    exact ⟨first, mem, choice, least first choice, .inl ⟨admitted, same.symm⟩⟩
  · rw [eq] at selected
    refine ⟨first, mem, choice, least first choice, .inr ⟨refused, ?_⟩⟩
    rcases scanned with ⟨-, later, -, rfl⟩ | ⟨before, x, after, later, split, passed, hit, -, rfl⟩
    · cases selected
    · cases selected
      refine ⟨before, after, split, hit.1, hit.2, ?_⟩
      intro b earlier
      by_contra neither
      push Not at neither
      exact passed b earlier ⟨neither.1, Bool.not_eq_false _ ▸ neither.2⟩

/-- The endpoint that was taken above: the policy picked the first, whose breaker refuses, and the second is the next in
the list. -/
theorem least_connections_choice_loaded :
    let lb := LoadBalancer.new [0, 1, 2] .LeastConnections
    (lb.select 0 0 loaded).1 = some 1 ∧
    ∃ first ∈ lb.healthyEndpoints loaded,
      (lb.choose 0 loaded (lb.healthyEndpoints loaded)).1 = some first ∧
      (∀ other ∈ lb.healthyEndpoints loaded,
        (loaded first).activeConnections.toNat ≤ (loaded other).activeConnections.toNat) ∧
      (((loaded first).admits 0 = true ∧ 1 = first) ∨
        ((loaded first).admits 0 = false ∧ ∃ before after, lb.healthyEndpoints loaded = before ++ 1 :: after ∧
          (loaded 1).address ≠ (loaded first).address ∧ (loaded 1).admits 0 = true ∧
          ∀ b ∈ before, (loaded b).address = (loaded first).address ∨ (loaded b).admits 0 = false)) := by
  intro lb
  have selected : (lb.select 0 0 loaded).1 = some 1 := by decide
  exact ⟨selected, least_connections_choice 0 0 loaded lb rfl 1 selected⟩

end LoadBalancer

end ServiceMesh
