import ServiceMesh.CircuitBreaker.Basic
import Mathlib.Data.List.MinMax
import Mathlib.Data.UInt
import Mathlib.Logic.Function.Basic

/-!
# Endpoints and the load balancer (`transport.rs`)

An `Arc<Endpoint>` is a pointer of type `ι` into a heap `ι → Endpoint`, so one endpoint may stand in
the list more than once, and two endpoints may have one address. `select` runs alone, at one clock
reading; the random index comes from outside (`sample`, reduced to the range). `usize` has 64 bits.
-/

namespace ServiceMesh

/-- `router::LoadBalancingPolicy`. -/
inductive LoadBalancingPolicy where
  | RoundRobin
  | LeastConnections
  | Random
  | ConsistentHash
deriving Repr, DecidableEq

structure Endpoint where
  address : String
  weight : UInt64
  activeConnections : UInt64
  totalRequests : UInt64
  successfulRequests : UInt64
  failedRequests : UInt64
  totalResponseTimeUs : UInt64
  healthy : Bool
  circuitBreaker : CircuitBreaker
deriving Repr, DecidableEq

namespace Endpoint

def new (address : String) : Endpoint :=
  { address, weight := 100, activeConnections := 0, totalRequests := 0, successfulRequests := 0, failedRequests := 0,
    totalResponseTimeUs := 0, healthy := true, circuitBreaker := .new .default }

/-- `response_time` is in nanoseconds; `as_micros() as u64` truncates. -/
def recordSuccess (responseTime : Nat) (e : Endpoint) : Endpoint :=
  { e with
    totalRequests := e.totalRequests + 1
    successfulRequests := e.successfulRequests + 1
    totalResponseTimeUs := e.totalResponseTimeUs + UInt64.ofNat (responseTime / 1000)
    circuitBreaker := e.circuitBreaker.recordSuccess }

def recordFailure (now : Nat) (e : Endpoint) : Endpoint :=
  { e with
    totalRequests := e.totalRequests + 1
    failedRequests := e.failedRequests + 1
    circuitBreaker := e.circuitBreaker.recordFailure now }

def allowRequest (now : Nat) (e : Endpoint) : Bool × Endpoint :=
  ((e.circuitBreaker.allowRequest now).1, { e with circuitBreaker := (e.circuitBreaker.allowRequest now).2 })

end Endpoint

/-- The endpoints behind the pointers. -/
abbrev Endpoints (ι : Type) := ι → Endpoint

structure LoadBalancer (ι : Type) where
  endpoints : List ι
  policy : LoadBalancingPolicy
  nextIndex : UInt64
deriving Repr, DecidableEq

variable {ι : Type}

/-- `e.allow_request()` through a pointer. -/
def Endpoints.allowRequest [DecidableEq ι] (now : Nat) (e : ι) (heap : Endpoints ι) : Bool × Endpoints ι :=
  (((heap e).allowRequest now).1, Function.update heap e ((heap e).allowRequest now).2)

namespace LoadBalancer

def new (endpoints : List ι) (policy : LoadBalancingPolicy) : LoadBalancer ι := { endpoints, policy, nextIndex := 0 }

def roundRobin (endpoints : List ι) (lb : LoadBalancer ι) : Option ι × LoadBalancer ι :=
  if endpoints.isEmpty then (none, lb)
  else (endpoints[lb.nextIndex.toNat % endpoints.length]?, { lb with nextIndex := lb.nextIndex + 1 })

/-- `min_by_key` returns the first of several minima. -/
def leastConnections (heap : Endpoints ι) (endpoints : List ι) : Option ι :=
  endpoints.argmin fun e => (heap e).activeConnections.toNat

def random (sample : Nat) (endpoints : List ι) : Option ι :=
  if endpoints.isEmpty then none else endpoints[sample % endpoints.length]?

/-- The policy's choice among the healthy endpoints. -/
def choose (sample : Nat) (heap : Endpoints ι) (healthyEndpoints : List ι) (lb : LoadBalancer ι) :
    Option ι × LoadBalancer ι :=
  match lb.policy with
  | .RoundRobin => lb.roundRobin healthyEndpoints
  | .LeastConnections => (leastConnections heap healthyEndpoints, lb)
  | .Random => (random sample healthyEndpoints, lb)
  | .ConsistentHash => lb.roundRobin healthyEndpoints

/-- "Try to find another endpoint": one with another address whose breaker allows the request. -/
def findAnother [DecidableEq ι] (now : Nat) (address : String) : List ι → Endpoints ι → Option ι × Endpoints ι
  | [], heap => (none, heap)
  | e :: rest, heap =>
    if (heap e).address ≠ address then
      let (allowed, heap) := heap.allowRequest now e
      if allowed then (some e, heap) else findAnother now address rest heap
    else findAnother now address rest heap

def healthyEndpoints (heap : Endpoints ι) (lb : LoadBalancer ι) : List ι :=
  lb.endpoints.filter fun e => (heap e).healthy

def select [DecidableEq ι] (now sample : Nat) (heap : Endpoints ι) (lb : LoadBalancer ι) :
    Option ι × Endpoints ι × LoadBalancer ι :=
  let healthy := lb.healthyEndpoints heap
  if healthy.isEmpty then (none, heap, lb)
  else
    let (endpoint, lb) := lb.choose sample heap healthy
    match endpoint with
    | some ep =>
      let (allowed, heap) := heap.allowRequest now ep
      if !allowed then
        let (another, heap) := findAnother now (heap ep).address healthy heap
        (another, heap, lb)
      else (some ep, heap, lb)
    | none => (none, heap, lb)

end LoadBalancer

end ServiceMesh
