import ServiceMesh.CircuitBreaker.Tasks
import ServiceMesh.Transport.Availability

/-!
# The load balancer, one shared operation at a time

`select` as control states of a shared object. One step is one read of a `healthy` flag or of a connection count, one
`next_index.fetch_add`, or one step of `allow_request` on the breaker of one endpoint; between two steps any other call
may run. Whatever else happens to the endpoints (`set_healthy`, `record_failure`, `acquire_connection`, calls of
another balancer over the same endpoints) is an `update`, one store at a time. An endpoint's address never changes, so
it is no shared operation to read it. Here `usize` has `w` bits; with 64, a call that runs alone is the sequential
`select` (`solo_select`).
-/

namespace ServiceMesh.LoadBalancer

open Conc

/-- What all tasks share: the endpoints behind the pointers, and the balancer. -/
structure Shared (w : Nat) (ι : Type) where
  heap : Endpoints ι
  endpoints : List ι
  policy : LoadBalancingPolicy
  nextIndex : BitVec w

/-- A call of `select`, with the number that it draws under `Random`; or something else that writes to the endpoints. -/
inductive Method (ι : Type) where
  | select (sample : Nat)
  | update (f : Endpoints ι → Endpoints ι)

/-- Where a call stands. `filter` has tested the endpoints before `rest` and kept `healthy`; `least` has `best` with
its `connections` so far; `ask` is inside `e.allow_request()`, and after a refusal scans `rest` for another address. -/
inductive Pc (ι : Type) where
  | select (sample : Nat)
  | filter (sample : Nat) (healthy rest : List ι)
  | choose (sample : Nat) (healthy : List ι)
  | least (healthy : List ι) (best : ι) (connections : UInt64) (rest : List ι)
  | ask (e : ι) (k : CircuitBreaker.Pc) (address : String) (rest : List ι)
  | scan (address : String) (rest : List ι)
  | update (f : Endpoints ι → Endpoints ι)
  | ret (endpoint : Option ι)

variable {w : Nat} {ι : Type}

def Shared.healthyEndpoints (s : Shared w ι) : List ι := s.endpoints.filter fun e => (s.heap e).healthy

def Shared.roundRobin (endpoints : List ι) (s : Shared w ι) : Option ι × Shared w ι :=
  if endpoints.isEmpty then (none, s)
  else (endpoints[s.nextIndex.toNat % endpoints.length]?, { s with nextIndex := s.nextIndex + 1 })

/-- The policy's choice is asked first. -/
def Pc.ofChoice (heap : Endpoints ι) (healthy : List ι) : Option ι → Pc ι
  | some ep => .ask ep .allowCount (heap ep).address healthy
  | none => .ret none

variable [DecidableEq ι]

def Shared.setBreaker (e : ι) (b : CircuitBreaker) (s : Shared w ι) : Shared w ι :=
  { s with heap := Function.update s.heap e { s.heap e with circuitBreaker := b } }

def Pc.step (now : Nat) (s : Shared w ι) : Pc ι → Shared w ι × Status (Pc ι) (Option ι)
  | select sample => (s, .running (filter sample [] s.endpoints))
  | filter sample healthy [] => (s, .running (if healthy.isEmpty then ret none else choose sample healthy))
  | filter sample healthy (e :: rest) =>
    (s, .running (filter sample (if (s.heap e).healthy then healthy ++ [e] else healthy) rest))
  | choose sample healthy =>
    match s.policy with
    | .RoundRobin => ((s.roundRobin healthy).2, .running (ofChoice s.heap healthy (s.roundRobin healthy).1))
    | .LeastConnections =>
      match healthy with
      | [] => (s, .running (ret none))
      | e :: rest => (s, .running (least healthy e (s.heap e).activeConnections rest))
    | .Random => (s, .running (ofChoice s.heap healthy (random sample healthy)))
    | .ConsistentHash => ((s.roundRobin healthy).2, .running (ofChoice s.heap healthy (s.roundRobin healthy).1))
  | least healthy best _ [] => (s, .running (ofChoice s.heap healthy (some best)))
  | least healthy best connections (e :: rest) =>
    (s, .running (if (s.heap e).activeConnections < connections then least healthy e (s.heap e).activeConnections rest
      else least healthy best connections rest))
  | ask e k address rest =>
    (s.setBreaker e (k.step now (s.heap e).circuitBreaker).1,
      .running (match (k.step now (s.heap e).circuitBreaker).2 with
        | .running k => ask e k address rest
        | .done reply => if reply.answer = some true then ret (some e) else scan address rest))
  | scan _ [] => (s, .running (ret none))
  | scan address (e :: rest) =>
    (s, .running (if (s.heap e).address ≠ address then ask e .allowCount address rest else scan address rest))
  | update f => ({ s with heap := f s.heap }, .running (ret none))
  | ret endpoint => (s, .done endpoint)

/-- The balancer as an object that any number of tasks share. -/
def shared (w : Nat) (ι : Type) [DecidableEq ι] : Object (Shared w ι) (Method ι) (Pc ι) (Option ι) where
  start
    | .select sample => .select sample
    | .update f => .update f
  step := Pc.step

/-- The two policies that take turns: `ConsistentHash` falls back on round robin. -/
def TakesTurns (policy : LoadBalancingPolicy) : Prop := policy = .RoundRobin ∨ policy = .ConsistentHash

theorem step_choose {s : Shared w ι} (turns : TakesTurns s.policy) (now sample : Nat) (healthy : List ι) :
    (Pc.choose sample healthy).step now s =
      ((s.roundRobin healthy).2, .running (.ofChoice s.heap healthy (s.roundRobin healthy).1)) := by
  rcases turns with policy | policy <;> simp only [Pc.step, policy]

/-! ## Without interleaving -/

section
variable {now : Nat} {s s' : Shared w ι} {r : Option ι}

/-- All flags are read, and the choice is made among the endpoints kept. -/
theorem solo_filter {sample : Nat} {healthy rest : List ι}
    (onward : Solo (shared w ι) now s
      (if (healthy ++ rest.filter fun e => (s.heap e).healthy).isEmpty then .ret none
        else .choose sample (healthy ++ rest.filter fun e => (s.heap e).healthy)) s' r) :
    Solo (shared w ι) now s (.filter sample healthy rest) s' r := by
  induction rest generalizing healthy with
  | nil =>
    rw [List.filter_nil, List.append_nil] at onward
    exact .next rfl onward
  | cons e rest ih =>
    refine .next rfl (ih ?_)
    cases flag : (s.heap e).healthy with
    | true => simpa [flag] using onward
    | false => simpa [flag] using onward

/-- The connection counts are read one by one. -/
theorem solo_least {healthy rest : List ι} {best least : ι}
    (first : rest.foldl (List.argAux fun b c => (s.heap b).activeConnections.toNat < (s.heap c).activeConnections.toNat)
      (some best) = some least)
    (onward : Solo (shared w ι) now s (.ofChoice s.heap healthy (some least)) s' r) :
    Solo (shared w ι) now s (.least healthy best (s.heap best).activeConnections rest) s' r := by
  induction rest generalizing best with
  | nil =>
    cases first
    exact .next rfl onward
  | cons e rest ih =>
    refine .next rfl ?_
    rw [List.foldl_cons] at first
    split
    · next fewer =>
      refine ih ?_
      rw [← first]
      simp [List.argAux, UInt64.lt_iff_toNat_lt.mp fewer]
    · next more =>
      refine ih ?_
      rw [← first]
      rw [UInt64.lt_iff_toNat_lt] at more
      simp [List.argAux, more]

@[simp] theorem setBreaker_setBreaker (e : ι) (b b' : CircuitBreaker) (s : Shared w ι) :
    (s.setBreaker e b).setBreaker e b' = s.setBreaker e b' := by
  simp [Shared.setBreaker]

@[simp] theorem setBreaker_circuitBreaker (e : ι) (b : CircuitBreaker) (s : Shared w ι) :
    ((s.setBreaker e b).heap e).circuitBreaker = b := by
  simp [Shared.setBreaker]

/-- The breaker's call runs inside. -/
theorem solo_breaker {e : ι} {k : CircuitBreaker.Pc} {b b' : CircuitBreaker} {reply : CircuitBreaker.Reply}
    {address : String} {rest : List ι} (inner : Solo CircuitBreaker.shared now b k b' reply)
    (mine : (s.heap e).circuitBreaker = b)
    (onward : Solo (shared w ι) now (s.setBreaker e b')
      (if reply.answer = some true then .ret (some e) else .scan address rest) s' r) :
    Solo (shared w ι) now s (.ask e k address rest) s' r := by
  induction inner generalizing s with
  | @ret b b' k reply step =>
    have step : k.step now b = (b', .done reply) := step
    refine .next ?_ onward
    simp only [shared, Pc.step, mine, step]
  | @next b b' b'' k k' reply step _ ih =>
    have step : k.step now b = (b', .running k') := step
    have outer : (shared w ι).step now s (.ask e k address rest) =
        (s.setBreaker e b', .running (.ask e k' address rest)) := by
      simp only [shared, Pc.step, mine, step]
    refine .next outer (ih (setBreaker_circuitBreaker e b' s) ?_)
    rw [setBreaker_setBreaker]
    exact onward

theorem solo_ask {e : ι} {address : String} {rest : List ι}
    (onward : Solo (shared w ι) now { s with heap := (s.heap.allowRequest now e).2 }
      (if (s.heap.allowRequest now e).1 = true then .ret (some e) else .scan address rest) s' r) :
    Solo (shared w ι) now s (.ask e .allowCount address rest) s' r := by
  refine solo_breaker (CircuitBreaker.solo_allowRequest now _) rfl ?_
  simp only [Option.some.injEq]
  exact onward

theorem solo_scan (now : Nat) (address : String) (rest : List ι) (s : Shared w ι) :
    Solo (shared w ι) now s (.scan address rest) { s with heap := (findAnother now address rest s.heap).2 }
      (findAnother now address rest s.heap).1 := by
  induction rest generalizing s with
  | nil => exact .next rfl (.ret rfl)
  | cons e rest ih =>
    refine .next rfl ?_
    rw [findAnother]
    by_cases other : (s.heap e).address ≠ address
    · rw [if_pos other, if_pos other]
      refine solo_ask ?_
      cases allowed : (s.heap.allowRequest now e).1 with
      | true =>
        simp only [allowed, if_true]
        exact .ret rfl
      | false =>
        simp only [allowed, Bool.false_eq_true, if_false]
        exact ih _
    · rw [if_neg other, if_neg other]
      exact ih s

end

/-- The sequential balancer as shared state. -/
def share (heap : Endpoints ι) (lb : LoadBalancer ι) : Shared 64 ι :=
  ⟨heap, lb.endpoints, lb.policy, lb.nextIndex.toBitVec⟩

/-- The policy's choice alone. -/
theorem solo_choose {now sample : Nat} {heap : Endpoints ι} {lb : LoadBalancer ι} {healthy : List ι} {s' : Shared 64 ι}
    {r : Option ι} (some_healthy : healthy ≠ [])
    (onward : Solo (shared 64 ι) now (share heap (lb.choose sample heap healthy).2)
      (.ofChoice heap healthy (lb.choose sample heap healthy).1) s' r) :
    Solo (shared 64 ι) now (share heap lb) (.choose sample healthy) s' r := by
  have turn : TakesTurns lb.policy → (Pc.choose sample healthy).step now (share heap lb) =
      (share heap (lb.roundRobin healthy).2, .running (.ofChoice heap healthy (lb.roundRobin healthy).1)) := by
    intro turns
    rw [step_choose (s := share heap lb) turns]
    simp [Shared.roundRobin, LoadBalancer.roundRobin, some_healthy, share]
  cases policy : lb.policy with
  | RoundRobin =>
    simp only [choose, policy] at onward
    exact .next (turn (.inl policy)) onward
  | ConsistentHash =>
    simp only [choose, policy] at onward
    exact .next (turn (.inr policy)) onward
  | Random =>
    simp only [choose, policy] at onward
    refine .next ?_ onward
    simp only [shared, Pc.step, share, policy]
  | LeastConnections =>
    simp only [choose, policy] at onward
    cases healthy with
    | nil => exact absurd rfl some_healthy
    | cons e rest =>
      obtain ⟨least, first⟩ : ∃ least, leastConnections heap (e :: rest) = some least := by
        rw [← Option.ne_none_iff_exists']
        exact fun none => some_healthy (List.argmin_eq_none.mp none)
      rw [first] at onward
      have scan : (shared 64 ι).step now (share heap lb) (.choose sample (e :: rest)) =
          (share heap lb, .running (.least (e :: rest) e (heap e).activeConnections rest)) := by
        simp only [shared, Pc.step, share, policy]
      exact .next scan (solo_least (s := share heap lb) first onward)

/-- **No interleaving, no difference**: a call alone is the sequential `select`. -/
theorem solo_select (now sample : Nat) (heap : Endpoints ι) (lb : LoadBalancer ι) :
    Solo (shared 64 ι) now (share heap lb) (.select sample)
      (share (lb.select now sample heap).2.1 (lb.select now sample heap).2.2) (lb.select now sample heap).1 := by
  refine .next rfl (solo_filter ?_)
  rw [List.nil_append]
  change Solo _ _ _ (if (lb.healthyEndpoints heap).isEmpty then .ret none else Pc.choose sample (lb.healthyEndpoints heap)) _ _
  cases empty : (lb.healthyEndpoints heap).isEmpty with
  | true =>
    simp only [select, empty, if_true]
    exact .ret rfl
  | false =>
    have some_healthy : lb.healthyEndpoints heap ≠ [] := List.isEmpty_eq_false_iff.mp empty
    obtain ⟨first, mem, choice⟩ := choose_mem sample heap some_healthy lb
    rw [select_of_choice mem choice]
    simp only [Bool.false_eq_true, if_false]
    refine solo_choose some_healthy ?_
    rw [choice]
    refine solo_ask ?_
    have address : ((heap.allowRequest now first).2 first).address = (heap first).address := by
      simp [Endpoints.allowRequest, Endpoint.allowRequest]
    cases allowed : (heap.allowRequest now first).1 with
    | true =>
      simp only [share, allowed, if_true, Bool.not_true, Bool.false_eq_true, if_false]
      exact .ret rfl
    | false =>
      simp only [share, allowed, Bool.false_eq_true, if_false, Bool.not_false, if_true, address]
      exact solo_scan now (heap first).address _ _

end ServiceMesh.LoadBalancer
