import ServiceMesh.Logic.RoundRobin
import ServiceMesh.Proxy.Accounting
import ServiceMesh.Transport.Tasks

/-!
# Round robin is fair

The proxy service and the load balancer pick a place in a list by a shared counter, `fetch_add(1) % len`. The order of
the picks is the order of the `fetch_add`s, whatever the requests do before and after, so the picks of any part of any
schedule are consecutive tickets of one counter, and `RoundRobin.emitted_fair` applies. For the balancer the list is what
the call has filtered: it is the same list for all calls as long as no endpoint's health changes.
-/

namespace ServiceMesh

open Conc RoundRobin

/-! ## The proxy service -/

namespace Proxy

variable {w : Nat} {Uri β : Type}

/-- The place in the upstream list that a step picks. -/
def picked (s : Shared w) : Pc Uri β → Option Nat
  | .select _ _ => if s.service.upstreamAddrs = [] then none else some s.service.index
  | _ => none

/-- The upstream that a call sends its request to. -/
def target : Status (Pc Uri β) (Response β) → Option String
  | .running (.forward _ _ upstream _) => some upstream
  | .running (.record r _) => some r.upstream
  | _ => none

/-- A step with an upstream to pick: one ticket, and the request goes to the upstream at that place. -/
theorem step_picks (parse : String → Except String Uri) (now : Nat) (s : Shared w) (k : Pc Uri β)
    (some_upstream : s.service.upstreamAddrs ≠ []) :
    Takes s.service.upstreamAddrs.length s.service.nextUpstream (k.step parse now s).1.service.nextUpstream (picked s k) ∧
    ∀ p, picked s k = some p → target (k.step parse now s).2 = s.service.upstreamAddrs[p]? := by
  cases k with
  | select since i =>
    have chosen : s.service.selectUpstream = (.ok _, _) := dif_neg some_upstream
    have place : picked s (.select since i : Pc Uri β) = some s.service.index := if_neg some_upstream
    have there := List.getElem?_eq_getElem (ProxyService.index_lt some_upstream)
    cases built : ProxyService.buildUpstreamUri parse _ i.request.pathAndQuery with
    | error e =>
      rw [step_of_bad_uri chosen built, place]
      refine ⟨.inr ⟨rfl, rfl⟩, ?_⟩
      rintro p ⟨⟩
      exact there.symm
    | ok uri =>
      rw [step_of_uri chosen built, place]
      refine ⟨.inr ⟨rfl, rfl⟩, ?_⟩
      rintro p ⟨⟩
      exact there.symm
  | _ => exact ⟨.inl ⟨rfl, rfl⟩, fun p impossible => by cases impossible⟩

/-- However the requests of all connections overlap and wherever the counter starts, the picks of any part `during` of
a schedule are fair; and a request goes to the upstream at the place picked for it. -/
def PicksFairly (w : Nat) (β : Type) (parse : String → Except String Uri) (upstreams : List String) : Prop :=
  ∀ (nextUpstream : BitVec w) (requestTimeout : Nat) (before during : List (Label (Incoming Uri β))),
    let c := (shared w parse).run (fresh upstreams nextUpstream requestTimeout) before
    FairWindow (2 ^ w) upstreams.length c.shared.service.nextUpstream.toNat ((shared w parse).emitted picked c during) ∧
    ∀ i p, Object.emission picked c (.step i : Label (Incoming Uri β)) = some p →
      (((shared w parse).exec c (.step i)).calls[i]?).bind target = upstreams[p]?

theorem picks_fairly (w : Nat) (β : Type) (parse : String → Except String Uri) {upstreams : List String}
    (some_upstream : upstreams ≠ []) : PicksFairly w β parse upstreams := by
  intro nextUpstream requestTimeout before during c
  have any : ∀ (ls : List (Label (Incoming Uri β))) i, .call i ∈ ls → True := fun _ _ _ => trivial
  have outline := upstream_outline (β := β) (w := w) parse some_upstream
  have holds : Holds _ _ c := outline.run (.of_no_calls rfl) (Object.along_calls (any before))
  constructor
  · have ticket : ∀ (i now : Nat) (s : Shared w) (k : Pc Uri β), True → s.service.upstreamAddrs = upstreams →
        Honest (.running k) →
        Takes upstreams.length s.service.nextUpstream (k.step parse now s).1.service.nextUpstream (picked s k) := by
      rintro i now s k - rfl -
      exact (step_picks parse now s k some_upstream).1
    exact emitted_fair upstreams.length (List.length_pos_iff.mpr some_upstream) (fun s => s.service.nextUpstream) outline
      ticket holds (Object.along_calls (any during))
  · intro i p taken
    obtain ⟨k, running, place⟩ := Object.emission_eq_some taken
    have same : c.shared.service.upstreamAddrs = upstreams := holds.1
    rw [Object.status_exec running, ← same]
    exact (step_picks parse c.clock c.shared k (same ▸ some_upstream)).2 p place

end Proxy

/-! ## The load balancer -/

namespace LoadBalancer

variable {w : Nat} {ι : Type}

instance : DecidablePred TakesTurns := fun _ => inferInstanceAs (Decidable (_ ∨ _))

/-- The place among the healthy endpoints that a step picks in turn. -/
def picked (s : Shared w ι) : Pc ι → Option Nat
  | .choose _ healthy =>
    if TakesTurns s.policy ∧ healthy.isEmpty = false then some (s.nextIndex.toNat % healthy.length) else none
  | _ => none

/-- The healthy endpoints stay what they are in `heap`, and all breakers stay `Closed`. -/
def steady (heap : Endpoints ι) : Object.Env (Shared w ι) (Method ι) (Pc ι) where
  calls _ := True
  steps _ s _ := ∀ e ∈ s.endpoints, (s.heap e).healthy = (heap e).healthy ∧ (s.heap e).circuitBreaker.state = .Closed

instance (heap : Endpoints ι) : DecidablePred (steady (w := w) heap).calls := fun _ => .isTrue trivial

instance (heap : Endpoints ι) (now : Nat) (s : Shared w ι) (k : Pc ι) : Decidable ((steady heap).steps now s k) :=
  inferInstanceAs (Decidable (∀ e ∈ s.endpoints, _ ∧ _))

/-- What a call has filtered, and what it chooses from, is the healthy part of the list. -/
def Filters (heap : Endpoints ι) (endpoints : List ι) : Status (Pc ι) (Option ι) → Prop
  | .running (.filter _ healthy rest) =>
    ∃ seen, endpoints = seen ++ rest ∧ healthy = seen.filter fun e => (heap e).healthy
  | .running (.choose _ healthy) => healthy = endpoints.filter fun e => (heap e).healthy
  | _ => True

/-- The call has picked `e`, and nothing but `e` can be its answer. -/
def Commits (e : ι) : Status (Pc ι) (Option ι) → Prop
  | .running (.ask x k _ _) => x = e ∧ (k = .allowCount ∨ k = .allowRead ∨ k = .ret .allowRequest (some true))
  | .running (.ret r) => r = some e
  | .done r => r = some e
  | _ => False

theorem filters_ofChoice (heap : Endpoints ι) (endpoints : List ι) (now : Endpoints ι) (healthy : List ι) (choice : Option ι) :
    Filters heap endpoints (.running (.ofChoice now healthy choice)) := by
  cases choice <;> trivial

variable [DecidableEq ι]

theorem filters_step {heap : Endpoints ι} {s : Shared w ι} {now : Nat} {k : Pc ι}
    (healthy : ∀ e ∈ s.endpoints, (s.heap e).healthy = (heap e).healthy) (mine : Filters heap s.endpoints (.running k)) :
    Filters heap s.endpoints (k.step now s).2 := by
  cases k with
  | select sample => exact ⟨[], rfl, rfl⟩
  | filter sample kept rest =>
    obtain ⟨seen, list, same⟩ := mine
    cases rest with
    | nil =>
      rw [List.append_nil] at list
      simp only [Pc.step]
      split
      · trivial
      · rw [list]
        exact same
    | cons e rest =>
      refine ⟨seen ++ [e], by simp [list], ?_⟩
      have flag := healthy e (by simp [list])
      rw [List.filter_append, ← same, flag]
      cases up : (heap e).healthy <;> simp [up]
  | choose sample kept =>
    simp only [Pc.step]
    split
    · exact filters_ofChoice ..
    · split <;> trivial
    · exact filters_ofChoice ..
    · exact filters_ofChoice ..
  | least kept best connections rest =>
    cases rest with
    | nil => trivial
    | cons e rest =>
      simp only [Pc.step]
      split <;> trivial
  | ask e k address rest =>
    simp only [Pc.step]
    split
    · trivial
    · split <;> trivial
  | scan address rest =>
    cases rest with
    | nil => trivial
    | cons e rest =>
      simp only [Pc.step]
      split <;> trivial
  | update f => trivial
  | ret r => trivial

/-- What a step does to the balancer: its list and policy stay; it takes a ticket or leaves the counter alone. -/
theorem step_balancer (now : Nat) (s : Shared w ι) (k : Pc ι) :
    (k.step now s).1.endpoints = s.endpoints ∧ (k.step now s).1.policy = s.policy ∧
    ((picked s k = none ∧ (k.step now s).1.nextIndex = s.nextIndex) ∨
      ∃ sample healthy, k = .choose sample healthy ∧ picked s k = some (s.nextIndex.toNat % healthy.length) ∧
        (k.step now s).1.nextIndex = s.nextIndex + 1) := by
  cases k with
  | choose sample healthy =>
    by_cases turns : TakesTurns s.policy
    · rw [step_choose turns]
      cases empty : healthy.isEmpty with
      | true => simp [Shared.roundRobin, picked, empty]
      | false => simp [Shared.roundRobin, picked, empty, turns]
    · have none : picked s (.choose sample healthy) = none := if_neg fun h => turns h.1
      cases policy : s.policy with
      | RoundRobin => exact absurd (.inl policy) turns
      | ConsistentHash => exact absurd (.inr policy) turns
      | Random => simp [Pc.step, policy, none]
      | LeastConnections => cases healthy <;> simp [Pc.step, policy, none]
  | filter sample healthy rest => cases rest <;> exact ⟨rfl, rfl, .inl ⟨rfl, rfl⟩⟩
  | least healthy best connections rest => cases rest <;> exact ⟨rfl, rfl, .inl ⟨rfl, rfl⟩⟩
  | scan address rest => cases rest <;> exact ⟨rfl, rfl, .inl ⟨rfl, rfl⟩⟩
  | _ => exact ⟨rfl, rfl, .inl ⟨rfl, rfl⟩⟩

/-- While the healthy endpoints stay the same, every call chooses among the same ones. -/
theorem steady_outline (heap : Endpoints ι) (endpoints : List ι) (policy : LoadBalancingPolicy) :
    Outline (shared w ι) (steady heap) (fun _ s => s.endpoints = endpoints ∧ s.policy = policy)
      (fun _ _ _ st => Filters heap endpoints st) where
  start i now s method _ _ := by cases method <;> trivial
  own i now s k still fixed mine := by
    obtain ⟨rfl, rfl⟩ := fixed
    obtain ⟨list, policy, -⟩ := step_balancer now s k
    exact ⟨⟨list, policy⟩, filters_step (fun e mem => (still e mem).1) mine⟩
  other _ _ _ _ _ _ _ _ _ _ theirs := theirs
  tick _ _ _ fixed := fixed
  tickLoc _ _ _ _ _ _ mine := mine

/-- A call that has picked `e` asks its breaker, which is `Closed`, and returns it. -/
theorem commits_step {e : ι} {s : Shared w ι} {now : Nat} {k : Pc ι} (closed : (s.heap e).circuitBreaker.state = .Closed)
    (mine : Commits e (.running k)) : Commits e (k.step now s).2 := by
  cases k with
  | ask x k address rest =>
    obtain ⟨rfl, rfl | rfl | rfl⟩ := mine
    · exact ⟨rfl, .inr (.inl rfl)⟩
    · simp only [Pc.step, CircuitBreaker.Pc.step, closed]
      exact ⟨rfl, .inr (.inr rfl)⟩
    · exact rfl
  | ret r => exact mine
  | _ => exact absurd mine not_false

/-- The step that picks a place commits the call to the endpoint there. -/
theorem commits_of_picked {s : Shared w ι} (now : Nat) {sample p : Nat} {healthy : List ι}
    (place : picked s (.choose sample healthy) = some p) :
    ∃ e ∈ healthy, healthy[p]? = some e ∧ Commits e ((Pc.choose sample healthy).step now s).2 := by
  simp only [picked] at place
  split at place
  · next turn =>
    obtain ⟨turns, some_healthy⟩ := turn
    cases place
    have bound : s.nextIndex.toNat % healthy.length < healthy.length := by
      apply Nat.mod_lt
      exact List.length_pos_iff.mpr (List.isEmpty_eq_false_iff.mp some_healthy)
    refine ⟨healthy[s.nextIndex.toNat % healthy.length], List.getElem_mem bound, List.getElem?_eq_getElem bound, ?_⟩
    rw [step_choose turns]
    simp only [Shared.roundRobin, some_healthy, Bool.false_eq_true, if_false, List.getElem?_eq_getElem bound]
    exact ⟨rfl, .inl rfl⟩
  · cases place

/-- From any state of the balancer, and however the calls overlap: as long as the healthy endpoints do not change and
all breakers stay `Closed`, the picks of any part `during` of a schedule are fair; and a call that returns, returns the
endpoint at the place that it picked. -/
def PicksFairly (clock : Nat) (s : Shared w ι) : Prop :=
  ∀ before during : List (Label (Method ι)), (shared w ι).Along (steady s.heap) ⟨clock, s, []⟩ (before ++ during) →
    let c := (shared w ι).run ⟨clock, s, []⟩ before
    FairWindow (2 ^ w) s.healthyEndpoints.length c.shared.nextIndex.toNat ((shared w ι).emitted picked c during) ∧
    ∀ i later p, during = .step i :: later → Object.emission picked c (.step i : Label (Method ι)) = some p →
      ∀ r, ((shared w ι).run c during).calls[i]? = some (.done r) → r = s.healthyEndpoints[p]?

theorem picks_fairly {s : Shared w ι} (some_healthy : s.healthyEndpoints ≠ []) (clock : Nat) : PicksFairly clock s := by
  intro before during still c
  obtain ⟨first, second⟩ := Object.along_append.mp still
  have outline := steady_outline (w := w) s.heap s.endpoints s.policy
  have holds : Holds _ _ c := outline.run (.of_no_calls ⟨rfl, rfl⟩) first
  constructor
  · have ticket : ∀ (i now : Nat) (s' : Shared w ι) (k : Pc ι), (steady s.heap).steps now s' k →
        s'.endpoints = s.endpoints ∧ s'.policy = s.policy → Filters s.heap s.endpoints (.running k) →
        Takes s.healthyEndpoints.length s'.nextIndex (k.step now s').1.nextIndex (picked s' k) := by
      intro i now s' k _ _ mine
      obtain ⟨-, -, ⟨none, same⟩ | ⟨sample, healthy, rfl, place, moved⟩⟩ := step_balancer now s' k
      · exact .inl ⟨none, same⟩
      · cases mine
        exact .inr ⟨place, moved⟩
    exact emitted_fair s.healthyEndpoints.length (List.length_pos_iff.mpr some_healthy) Shared.nextIndex outline ticket
      holds second
  · rintro i later p rfl taken r ended
    obtain ⟨k, running, place⟩ := Object.emission_eq_some taken
    obtain ⟨-, -, ⟨none, -⟩ | ⟨sample, healthy, rfl, -, -⟩⟩ := step_balancer c.clock c.shared k
    · cases none.symm.trans place
    have among : healthy = s.healthyEndpoints := holds.2 i _ running
    obtain ⟨e, mem, there, commits⟩ := commits_of_picked c.clock place
    have listed : e ∈ s.endpoints := by
      rw [among] at mem
      exact (List.mem_filter.mp mem).1
    -- from the pick on, the call can only return `e`
    have after : ∃ st, ((shared w ι).exec c (.step i)).calls[i]? = some st ∧ Commits e st :=
      ⟨_, Object.status_exec running, commits⟩
    obtain ⟨st, at_i, commits⟩ := outline.run_call
      (fun now s' k still fixed mine => commits_step (still e (fixed.1 ▸ listed)).2 mine) (outline.exec holds second.1)
      after second.2
    cases at_i.symm.trans ended
    rw [← among, there]
    exact commits

end LoadBalancer

/-- **Round robin is fair**, for any width of the counter and any reading it starts from: the proxy service over its
upstreams, and the load balancer over its healthy endpoints. -/
theorem round_robin_fairness (w : Nat) {Uri β ι : Type} [DecidableEq ι] (parse : String → Except String Uri) :
    (∀ upstreams ≠ [], Proxy.PicksFairly w β parse upstreams) ∧
    ∀ (clock : Nat) (s : LoadBalancer.Shared w ι), LoadBalancer.TakesTurns s.policy → s.healthyEndpoints ≠ [] →
      LoadBalancer.PicksFairly clock s :=
  ⟨fun _ some_upstream => Proxy.picks_fairly w β parse some_upstream,
    fun clock _ _ some_healthy => LoadBalancer.picks_fairly some_healthy clock⟩

/-- Two healthy endpoints, and a two-bit counter at its last reading. -/
def LoadBalancer.pair : LoadBalancer.Shared 2 Bool :=
  ⟨fun second => .new (if second then "http://b" else "http://a"), [false, true], .ConsistentHash, 3⟩

/-- Two calls of `select`, step by step in turn. -/
def LoadBalancer.inTurn : List (Label (LoadBalancer.Method Bool)) :=
  [.call (.select 0), .call (.select 0)] ++ (List.replicate 9 [.step 0, .step 1]).flatten

/-- Two requests at once, of which the second is the first to pick. -/
def Proxy.crossing : List (Label (Incoming String Unit)) :=
  [.call ⟨⟨"GET", none⟩, fun _ => .timedOut⟩, .call ⟨⟨"PUT", none⟩, fun _ => .timedOut⟩, .step 0, .step 1, .step 1, .step 0]

open LoadBalancer Proxy in
/-- The counter wraps between the two picks. The balancer has two endpoints and goes on in turn; the service has three
upstreams, which four readings do not divide by, and picks the first twice. -/
theorem round_robin_fairness_wrap :
    ((LoadBalancer.shared 2 Bool).Along (steady pair.heap) ⟨0, pair, []⟩ inTurn ∧
      (LoadBalancer.shared 2 Bool).emitted LoadBalancer.picked ⟨0, pair, []⟩ inTurn = [1, 0] ∧ FairWindow 4 2 3 [1, 0]) ∧
    (Proxy.shared 2 .ok).emitted Proxy.picked (fresh ["http://a", "http://b", "http://c"] 3 30000) crossing = [0, 0] ∧
      FairWindow 4 3 3 [0, 0] := by
  have still : (LoadBalancer.shared 2 Bool).Along (steady pair.heap) ⟨0, pair, []⟩ inTurn := by decide
  have endpoints : (LoadBalancer.shared 2 Bool).emitted LoadBalancer.picked ⟨0, pair, []⟩ inTurn = [1, 0] := by decide
  have upstreams : (Proxy.shared 2 .ok).emitted Proxy.picked (fresh ["http://a", "http://b", "http://c"] 3 30000) crossing =
      [0, 0] := by decide
  obtain ⟨service, balancer⟩ := round_robin_fairness 2 (β := Unit) (ι := Bool) (.ok : String → Except String String)
  have balanced : FairWindow 4 2 3 _ := (balancer 0 pair (.inr rfl) (by decide) [] inTurn still).1
  have served : FairWindow 4 3 3 _ := (service ["http://a", "http://b", "http://c"] (by decide) 3 30000 [] crossing).1
  refine ⟨⟨still, endpoints, ?_⟩, upstreams, ?_⟩
  · rw [← endpoints]
    exact balanced
  · rw [← upstreams]
    exact served

end ServiceMesh
