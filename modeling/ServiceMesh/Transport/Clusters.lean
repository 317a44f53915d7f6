import ServiceMesh.Transport.Endpoint
import ServiceMesh.Transport.Interleaved

/-!
# The transport: clusters, balancers and endpoints together

`Transport` with everything that its callers do at once: `add_cluster`, `get_cluster`, `select_endpoint`, `select` on a
balancer got before, and the methods of the endpoints that they have got. One step is one operation on the `clusters` map or
on a counter, one step of a `select`, or one step of a method of an endpoint. Balancers and endpoints are numbered in the
order in which they are made; callers only have the numbers that they have been given, so that a call through any other does
nothing (`dangling`). A balancer that has been replaced in the map lives on with whoever has it.

Who does what to whom is kept by `Sound`, and by `Placed` for each call: the endpoints of a cluster are its own, and nobody
touches an endpoint before it is made.
-/

namespace ServiceMesh

open Conc

/-- What all tasks share: the endpoints behind the pointers, of which those from `allocated` on are not made yet, the
balancers behind theirs, and the map from the names of clusters. -/
structure Transport where
  heap : Endpoints Nat
  allocated : Nat
  balancers : List (LoadBalancer Nat)
  clusters : List (String × Nat)
  connectionsCreated : UInt64
  connectionsClosed : UInt64

/-- `PoolStats`. -/
structure PoolStats where
  connectionsCreated : UInt64
  connectionsClosed : UInt64
  idleConnections : UInt64
  activeConnections : UInt64
deriving Repr, DecidableEq

namespace Transport

/-- What an endpoint holds that nobody has made. -/
def unmade : Endpoint := .new ""

def new : Transport :=
  { heap := fun _ => unmade, allocated := 0, balancers := [], clusters := [], connectionsCreated := 0, connectionsClosed := 0 }

/-- `LoadBalancer::from_addresses`: the next endpoints, one for each address. -/
def fromAddresses (addresses : List String) (policy : LoadBalancingPolicy) (t : Transport) :
    LoadBalancer Nat × Transport :=
  (.new (List.range' t.allocated addresses.length) policy,
    { t with
      heap := fun e => if t.allocated ≤ e then (addresses[e - t.allocated]?).elim (t.heap e) .new else t.heap e
      allocated := t.allocated + addresses.length })

/-- `DashMap::insert` replaces what was there. -/
def addCluster (name : String) (endpoints : List String) (policy : LoadBalancingPolicy) (t : Transport) : Transport :=
  let (lb, t) := t.fromAddresses endpoints policy
  { t with
    balancers := t.balancers ++ [lb]
    clusters := (name, t.balancers.length) :: t.clusters.filter fun cluster => cluster.1 ≠ name }

def getCluster (name : String) (t : Transport) : Option Nat := t.clusters.lookup name

/-- The endpoints of a balancer; none if there is no such balancer. -/
def endpoints (b : Nat) (t : Transport) : List Nat := (t.balancers[b]?).elim [] LoadBalancer.endpoints

/-- `stats`, when nothing else goes on. -/
def stats (t : Transport) : PoolStats :=
  { connectionsCreated := t.connectionsCreated
    connectionsClosed := t.connectionsClosed
    idleConnections := 0
    activeConnections := ((t.clusters.flatMap fun cluster => t.endpoints cluster.2).map fun e =>
      (t.heap e).activeConnections).sum }

inductive Method where
  | addCluster (name : String) (endpoints : List String) (policy : LoadBalancingPolicy)
  | getCluster (name : String)
  | selectEndpoint (cluster : String) (sample : Nat)
  | select (balancer sample : Nat)
  | endpoint (e : Nat) (method : Endpoint.Method)
  | recordConnectionCreated
  | recordConnectionClosed

/-- What a call returns. -/
inductive Reply where
  | none
  | dangling
  | cluster (balancer : Option Nat)
  | endpoint (endpoint : Option Nat)
  | report (e : Nat) (reply : Endpoint.Reply)
deriving Repr, DecidableEq

/-- Where a call stands: at its first operation, in the `select` of a balancer, or in a method of an endpoint. -/
inductive Pc where
  | begin (method : Method)
  | select (balancer : Nat) (k : LoadBalancer.Pc Nat)
  | on (e : Nat) (k : Endpoint.Pc)

/-- The transport as the tasks of one balancer see it. -/
def view (lb : LoadBalancer Nat) (t : Transport) : LoadBalancer.Shared 64 Nat := LoadBalancer.share t.heap lb

/-- What they leave behind. -/
def put (b : Nat) (s : LoadBalancer.Shared 64 Nat) (t : Transport) : Transport :=
  { t with heap := s.heap, balancers := t.balancers.set b ⟨s.endpoints, s.policy, ⟨s.nextIndex⟩⟩ }

def Pc.step (now : Nat) (t : Transport) : Pc → Transport × Status Pc Reply
  | begin (.addCluster name endpoints policy) => (t.addCluster name endpoints policy, .done .none)
  | begin (.getCluster name) => (t, .done (.cluster (t.getCluster name)))
  | begin (.selectEndpoint cluster sample) =>
    match t.getCluster cluster with
    | some b => (t, .running (select b (.select sample)))
    | none => (t, .done (.endpoint none))
  | begin (.select b sample) =>
    (t, if b < t.balancers.length then .running (select b (.select sample)) else .done .dangling)
  | begin (.endpoint e method) => (t, if e < t.allocated then .running (on e (.start method)) else .done .dangling)
  | begin .recordConnectionCreated => ({ t with connectionsCreated := t.connectionsCreated + 1 }, .done .none)
  | begin .recordConnectionClosed => ({ t with connectionsClosed := t.connectionsClosed + 1 }, .done .none)
  | select b k =>
    match t.balancers[b]? with
    | some lb =>
      (t.put b (k.step now (t.view lb)).1,
        match (k.step now (t.view lb)).2 with
        | .running k => .running (select b k)
        | .done endpoint => .done (.endpoint endpoint))
    | none => (t, .done .dangling)
  | on e k =>
    ({ t with heap := Function.update t.heap e (k.step now (t.heap e)).1 },
      match (k.step now (t.heap e)).2 with
      | .running k => .running (on e k)
      | .done reply => .done (.report e reply))

/-- The transport as an object that any number of tasks share. -/
def shared : Object Transport Method Pc Reply where
  start := .begin
  step := Pc.step

abbrev Tasks := Pool Transport Pc Reply

/-- A new transport at time `now`. -/
def fresh (now : Nat) : Tasks := ⟨now, .new, []⟩

/-! ## What never changes hands -/

/-- The part of the state that only `add_cluster` writes. -/
def table (t : Transport) : Nat × List (String × Nat) × List (List Nat × LoadBalancingPolicy) :=
  (t.allocated, t.clusters, t.balancers.map fun lb => (lb.endpoints, lb.policy))

/-- The endpoints are those of the balancers, each of one; the ones that are not made are as if they were new; and clusters
have balancers. -/
structure Sound (t : Transport) : Prop where
  shared_out : t.balancers.flatMap LoadBalancer.endpoints = List.range t.allocated
  unmade : ∀ e, t.allocated ≤ e → t.heap e = unmade
  listed : ∀ cluster ∈ t.clusters, cluster.2 < t.balancers.length

theorem Sound.made {t : Transport} (h : Sound t) {b : Nat} {lb : LoadBalancer Nat} (at_b : t.balancers[b]? = some lb) {e : Nat}
    (mem : e ∈ lb.endpoints) : e < t.allocated := by
  rw [← List.mem_range, ← h.shared_out]
  exact List.mem_flatMap.mpr ⟨lb, List.mem_of_getElem? at_b, mem⟩

theorem Sound.found {t : Transport} (h : Sound t) {name : String} {b : Nat} (found : t.getCluster name = some b) :
    b < t.balancers.length := by
  obtain ⟨before, after, split, -⟩ := List.lookup_eq_some_iff.mp found
  exact h.listed (name, b) (split ▸ List.mem_append_right before List.mem_cons_self)

theorem sound_new : Sound .new := ⟨rfl, fun _ _ => rfl, fun _ mem => absurd mem List.not_mem_nil⟩

/-- A `select` of a balancer that there is, that knows what it needs by what it `saw` and `asked`. -/
def Selected (saw asked : Bool → Nat → Prop) (t : Transport) (b : Nat) (st : Status (LoadBalancer.Pc Nat) (Option Nat)) :
    Prop :=
  ∃ lb, t.balancers[b]? = some lb ∧ LoadBalancer.Selecting st ∧
    ∀ addr, LoadBalancer.Fixed lb.endpoints addr (t.view lb) → LoadBalancer.Justified saw asked False lb.endpoints addr st

/-- A call in a `select` is as far as it says, and a call in a method of an endpoint works on one that has been made. -/
def Placed (saw asked : Bool → Nat → Prop) (t : Transport) : Pc → Prop
  | .begin _ => True
  | .select b k => Selected saw asked t b (.running k)
  | .on e k => e < t.allocated ∧ Endpoint.Matched (.running k)

section
variable {saw asked : Bool → Nat → Prop} {t : Transport}

/-- The endpoint whose breaker a `select` asks has been made. -/
theorem Placed.asked_made (sound : Sound t) {b e : Nat} {inner : CircuitBreaker.Pc} {address : String} {rest : List Nat}
    (h : Placed saw asked t (.select b (.ask e inner address rest))) : LoadBalancer.Allowing inner ∧ e < t.allocated := by
  obtain ⟨lb, at_b, selecting, known⟩ := h
  obtain ⟨-, healthy, sifted, mem, -⟩ := known _ ⟨rfl, fun _ _ => rfl⟩
  exact ⟨selecting, sound.made at_b (sifted.kept e mem).1⟩

/-- **What one step does**: it adds a cluster; or the table stays, and of the endpoints at most one changes, which has been
made: the one whose breaker a `select` asks, or the one whose method it is a step of. -/
theorem step_cases (sound : Sound t) (now : Nat) {k : Pc} (placed : Placed saw asked t k) :
    (∃ name endpoints policy, k = .begin (.addCluster name endpoints policy) ∧
      k.step now t = (t.addCluster name endpoints policy, .done .none)) ∨
    ((k.step now t).1.table = t.table ∧
      ((∃ b e inner address rest, k = .select b (.ask e inner address rest) ∧ LoadBalancer.Allowing inner ∧
          e < t.allocated ∧ (k.step now t).1.heap = Function.update t.heap e
            { t.heap e with circuitBreaker := (inner.step now (t.heap e).circuitBreaker).1 }) ∨
        (∃ e inner, k = .on e inner ∧ Endpoint.Matched (.running inner) ∧ e < t.allocated ∧
          (k.step now t).1.heap = Function.update t.heap e (inner.step now (t.heap e)).1) ∨
        (∀ b e inner address rest, k ≠ .select b (.ask e inner address rest)) ∧ (∀ e inner, k ≠ .on e inner) ∧
          (k.step now t).1.heap = t.heap)) := by
  cases k with
  | begin method =>
    cases method with
    | addCluster name endpoints policy => exact .inl ⟨name, endpoints, policy, rfl, rfl⟩
    | selectEndpoint cluster sample =>
      refine .inr ?_
      simp only [Pc.step]
      split <;> exact ⟨rfl, .inr (.inr ⟨fun _ _ _ _ _ => by simp, fun _ _ => by simp, rfl⟩)⟩
    | _ => exact .inr ⟨rfl, .inr (.inr ⟨fun _ _ _ _ _ => by simp, fun _ _ => by simp, rfl⟩)⟩
  | on e inner => exact .inr ⟨rfl, .inr (.inl ⟨e, inner, rfl, placed.2, placed.1, rfl⟩)⟩
  | select b inner =>
    obtain ⟨lb, at_b, selecting, known⟩ := placed
    obtain ⟨list, policy, heap⟩ := LoadBalancer.step_frame now (t.view lb) selecting
    obtain ⟨bound, value⟩ := List.getElem?_eq_some_iff.mp at_b
    have table : ((Pc.select b inner).step now t).1.table = t.table := by
      simp only [Pc.step, at_b, Transport.table, put, list, policy, List.map_set]
      refine congrArg (fun l => (t.allocated, t.clusters, l)) ?_
      refine List.ext_getElem? fun n => ?_
      rw [List.getElem?_set]
      split
      · next same =>
        subst same
        simp [bound, value, view, LoadBalancer.share]
      · rfl
    refine .inr ⟨table, ?_⟩
    have after : ((Pc.select b inner).step now t).1.heap = (inner.step now (t.view lb)).1.heap := by
      simp only [Pc.step, at_b, put]
    rcases heap with ⟨e, asking, address, rest, rfl, heap⟩ | ⟨other, heap⟩
    · have placed : Placed saw asked t (.select b (.ask e asking address rest)) := ⟨lb, at_b, selecting, known⟩
      obtain ⟨allowing, made⟩ := placed.asked_made sound
      exact .inl ⟨b, e, asking, address, rest, rfl, allowing, made, after.trans heap⟩
    · refine .inr (.inr ⟨?_, fun _ _ => by simp, after.trans heap⟩)
      rintro b' e asking address rest same
      cases same
      exact other e asking address rest rfl

end

/-- What is there stays: balancers with their endpoints, endpoints with their addresses. -/
structure Extends (t t' : Transport) : Prop where
  balancers : ∀ (b : Nat) lb, t.balancers[b]? = some lb → ∃ lb', t'.balancers[b]? = some lb' ∧ lb'.endpoints = lb.endpoints
  allocated : t.allocated ≤ t'.allocated
  address : ∀ e < t.allocated, (t'.heap e).address = (t.heap e).address

section
variable {t t' : Transport}

theorem balancers_of_table (same : t'.table = t.table) (b : Nat) :
    (t'.balancers[b]?).map (fun lb => (lb.endpoints, lb.policy)) = (t.balancers[b]?).map fun lb => (lb.endpoints, lb.policy) := by
  have lists := congrArg (fun table => table.2.2[b]?) same
  simpa only [table, List.getElem?_map] using lists

theorem Extends.of_table (same : t'.table = t.table) (address : ∀ e, (t'.heap e).address = (t.heap e).address) :
    Extends t t' where
  balancers b lb at_b := by
    have both := balancers_of_table same b
    rw [at_b, Option.map_some] at both
    obtain ⟨lb', at_b', pair⟩ := Option.map_eq_some_iff.mp both
    exact ⟨lb', at_b', congrArg Prod.fst pair⟩
  allocated := (congrArg Prod.fst same).ge
  address e _ := address e

theorem Extends.addCluster (name : String) (endpoints : List String) (policy : LoadBalancingPolicy) (t : Transport) :
    Extends t (t.addCluster name endpoints policy) where
  balancers b lb at_b := by
    refine ⟨lb, ?_, rfl⟩
    simp only [Transport.addCluster, fromAddresses]
    rw [List.getElem?_append_left (List.getElem?_eq_some_iff.mp at_b).1, at_b]
  allocated := Nat.le_add_right _ _
  address e old := by
    simp only [Transport.addCluster, fromAddresses]
    rw [if_neg (Nat.not_le.mpr old)]

theorem Selected.mono {saw asked saw' asked' : Bool → Nat → Prop} {b : Nat} {st : Status (LoadBalancer.Pc Nat) (Option Nat)}
    (h : Selected saw asked t b st) (sound : Sound t) (grown : Extends t t') (sees : ∀ up e, saw up e → saw' up e)
    (asks : ∀ answer e, asked answer e → asked' answer e) : Selected saw' asked' t' b st := by
  obtain ⟨lb, at_b, selecting, known⟩ := h
  obtain ⟨lb', at_b', list⟩ := grown.balancers b lb at_b
  refine ⟨lb', at_b', selecting, fun addr fixed => ?_⟩
  rw [list] at fixed ⊢
  refine (known addr ⟨rfl, fun e mem => ?_⟩).mono sees asks id
  exact (grown.address e (sound.made at_b mem)).symm.trans (fixed.address e mem)

theorem Placed.mono {saw asked saw' asked' : Bool → Nat → Prop} {k : Pc} (h : Placed saw asked t k) (sound : Sound t)
    (grown : Extends t t') (sees : ∀ up e, saw up e → saw' up e) (asks : ∀ answer e, asked answer e → asked' answer e) :
    Placed saw' asked' t' k := by
  cases k with
  | begin method => trivial
  | select b k => exact Selected.mono h sound grown sees asks
  | on e k => exact ⟨Nat.lt_of_lt_of_le h.1 grown.allocated, h.2⟩

variable {saw asked : Bool → Nat → Prop}

theorem endpoint_step_address (now : Nat) (e : Endpoint) (k : Endpoint.Pc) : (k.step now e).1.address = e.address := by
  cases k <;> rfl

theorem extends_step (sound : Sound t) (now : Nat) {k : Pc} (placed : Placed saw asked t k) :
    Extends t (k.step now t).1 := by
  rcases step_cases sound now placed with ⟨name, endpoints, policy, -, next⟩ | ⟨table, heap⟩
  · rw [next]
    exact .addCluster name endpoints policy t
  · refine .of_table table fun x => ?_
    rcases heap with ⟨b, e, inner, address, rest, -, -, -, heap⟩ | ⟨e, inner, -, -, -, heap⟩ | ⟨-, -, heap⟩
    · rw [heap]
      by_cases mine : x = e
      · subst mine
        rw [Function.update_self]
      · rw [Function.update_of_ne mine]
    · rw [heap]
      by_cases mine : x = e
      · subst mine
        rw [Function.update_self, endpoint_step_address]
      · rw [Function.update_of_ne mine]
    · rw [heap]

theorem Sound.addCluster (h : Sound t) (name : String) (endpoints : List String) (policy : LoadBalancingPolicy) :
    Sound (t.addCluster name endpoints policy) where
  shared_out := by
    simp only [Transport.addCluster, fromAddresses, List.flatMap_append, List.flatMap_singleton, h.shared_out,
      LoadBalancer.new]
    rw [List.range_eq_range', List.range_eq_range', ← List.range'_append_1, Nat.zero_add]
  unmade e later := by
    simp only [Transport.addCluster, fromAddresses] at later ⊢
    have beyond : endpoints[e - t.allocated]? = none := List.getElem?_eq_none (by omega)
    rw [if_pos (by omega), beyond]
    exact h.unmade e (by omega)
  listed cluster mem := by
    simp only [Transport.addCluster, fromAddresses] at mem ⊢
    rw [List.length_append, List.length_singleton]
    rcases List.mem_cons.mp mem with rfl | old
    · exact Nat.lt_succ_self _
    · exact Nat.lt_succ_of_lt (h.listed cluster (List.mem_of_mem_filter old))

theorem Sound.of_table (h : Sound t) (same : t'.table = t.table) (heap : ∀ e, t.allocated ≤ e → t'.heap e = t.heap e) :
    Sound t' where
  shared_out := by
    have lists := congrArg (fun table => table.2.2.flatMap Prod.fst) same
    have allocated : t'.allocated = t.allocated := congrArg Prod.fst same
    simp only [table, List.flatMap_map] at lists
    rw [allocated]
    exact lists.trans h.shared_out
  unmade e later := by
    have allocated : t'.allocated = t.allocated := congrArg Prod.fst same
    rw [allocated] at later
    rw [heap e later]
    exact h.unmade e later
  listed := by
    have clusters : t'.clusters = t.clusters := congrArg (fun table => table.2.1) same
    have length : t'.balancers.length = t.balancers.length := by
      simpa [table] using congrArg (fun table => table.2.2.length) same
    rw [clusters, length]
    exact h.listed

theorem Sound.step (sound : Sound t) (now : Nat) {k : Pc} (placed : Placed saw asked t k) : Sound (k.step now t).1 := by
  rcases step_cases sound now placed with ⟨name, endpoints, policy, -, next⟩ | ⟨table, heap⟩
  · rw [next]
    exact sound.addCluster name endpoints policy
  · refine sound.of_table table fun x later => ?_
    rcases heap with ⟨b, e, inner, address, rest, -, -, made, heap⟩ | ⟨e, inner, -, -, made, heap⟩ | ⟨-, -, heap⟩
    · rw [heap, Function.update_of_ne (by omega)]
    · rw [heap, Function.update_of_ne (by omega)]
    · rw [heap]

/-- **One step of a `select`** in the transport. -/
theorem Selected.step (sound : Sound t) (now : Nat) {b : Nat} {k : LoadBalancer.Pc Nat}
    (h : Selected saw asked t b (.running k))
    (looks : ∀ sample healthy e rest, k = .filter sample healthy (e :: rest) → saw (t.heap e).healthy e)
    (asks : ∀ e answer address rest, k = .ask e (.ret .allowRequest (some answer)) address rest → asked answer e) :
    ∃ lb, t.balancers[b]? = some lb ∧ Selected saw asked ((Pc.select b k).step now t).1 b (k.step now (t.view lb)).2 := by
  obtain ⟨lb, at_b, selecting, known⟩ := h
  have placed : Placed saw asked t (.select b k) := ⟨lb, at_b, selecting, known⟩
  have grown := extends_step sound now placed
  obtain ⟨lb', at_b', list⟩ := grown.balancers b lb at_b
  refine ⟨lb, at_b, lb', at_b', (LoadBalancer.rank_step (n := lb.endpoints.length) rfl now selecting).1, fun addr fixed => ?_⟩
  rw [list] at fixed ⊢
  have before : LoadBalancer.Fixed lb.endpoints addr (t.view lb) := by
    refine ⟨rfl, fun e mem => ?_⟩
    exact (grown.address e (sound.made at_b mem)).symm.trans (fixed.address e mem)
  refine LoadBalancer.Justified.step before now (known addr before) looks asks ?_
  rintro f rfl
  exact selecting

/-- Where a step of a placed call leads, by what it has seen then. -/
theorem Placed.step (sound : Sound t) (now : Nat) {k : Pc} (placed : Placed saw asked t k)
    (looks : ∀ b sample healthy e rest, k = .select b (.filter sample healthy (e :: rest)) → saw (t.heap e).healthy e)
    (asks : ∀ b e answer address rest, k = .select b (.ask e (.ret .allowRequest (some answer)) address rest) →
      asked answer e) {k' : Pc} (next : (k.step now t).2 = .running k') : Placed saw asked (k.step now t).1 k' := by
  have starts : ∀ b sample, b < t.balancers.length → Selected saw asked t b (.running (.select sample)) := by
    intro b sample bound
    exact ⟨t.balancers[b], List.getElem?_eq_getElem bound, trivial, fun _ _ => trivial⟩
  cases k with
  | begin method =>
    cases method with
    | selectEndpoint cluster sample =>
      simp only [Pc.step] at next ⊢
      split at next
      · next b found =>
        cases next
        exact starts b sample (sound.found found)
      · cases next
    | select b sample =>
      simp only [Pc.step] at next ⊢
      split at next
      · next bound =>
        cases next
        exact starts b sample bound
      · cases next
    | endpoint e method =>
      simp only [Pc.step] at next ⊢
      split at next
      · next made =>
        cases next
        exact ⟨made, Endpoint.matched_start method⟩
      · cases next
    | _ => cases next
  | select b k =>
    obtain ⟨lb, at_b, after⟩ := Selected.step sound now placed (fun sample healthy e rest same => looks b sample healthy e rest
      (congrArg _ same)) (fun e answer address rest same => asks b e answer address rest (congrArg _ same))
    simp only [Pc.step, at_b] at next after ⊢
    cases status : (k.step now (t.view lb)).2 with
    | running k =>
      rw [status] at next after
      cases next
      exact after
    | done r =>
      rw [status] at next
      cases next
  | on e k =>
    have matched := Endpoint.Matched.step now (t.heap e) placed.2
    simp only [Pc.step] at next ⊢
    cases status : (k.step now (t.heap e)).2 with
    | running k =>
      rw [status] at next matched
      cases next
      exact ⟨placed.1, matched⟩
    | done r =>
      rw [status] at next
      cases next

end

/-! ## Every schedule -/

/-- A call in progress is where the transport has a place for it. -/
def Stands (t : Transport) (st : Status Pc Reply) : Prop :=
  ∀ k, st = .running k → Placed (fun _ _ => True) (fun _ _ => True) t k

theorem outline : Outline shared ⟨fun _ => True, fun _ _ _ => True⟩ (fun _ t => Sound t) (fun _ _ t st => Stands t st) where
  start i now t method _ _ := by
    rintro k ⟨⟩
    trivial
  own i now t k _ sound stands := by
    have placed := stands k rfl
    exact ⟨sound.step now placed, fun k' next =>
      placed.step sound now (fun _ _ _ _ _ _ => trivial) (fun _ _ _ _ _ _ => trivial) next⟩
  other i j now t k st _ _ sound stands theirs := by
    rintro k' rfl
    exact (theirs k' rfl).mono sound (extends_step sound now (stands k rfl)) (fun _ _ => id) fun _ _ => id
  tick _ _ _ sound := sound
  tickLoc _ _ _ _ _ _ stands := stands

theorem stands_run (now : Nat) (ls : List (Label Method)) :
    Holds (fun _ t => Sound t) (fun _ _ t st => Stands t st) (shared.run (fresh now) ls) :=
  outline.run (.of_no_calls sound_new) (Object.along_calls fun _ _ => trivial)

/-- What is there after a schedule stays, whatever comes after. -/
theorem extends_exec {c : Tasks} (h : Holds (fun _ t => Sound t) (fun _ _ t st => Stands t st) c) (l : Label Method) :
    Extends c.shared (shared.exec c l).shared := by
  have same : Extends c.shared c.shared := .of_table rfl fun _ => rfl
  cases l with
  | call method => exact same
  | tick d => exact same
  | step i =>
    rcases Object.exec_step_cases shared c i with ⟨k, running⟩ | idle
    · rw [Object.shared_exec running]
      exact extends_step h.1 c.clock (h.2 i _ running k rfl)
    · rw [idle]
      exact same

end Transport

end ServiceMesh
