import ServiceMesh.Transport.Clusters
import ServiceMesh.Logic.Past

/-!
# From the name of a cluster to an endpoint

The `add_cluster` operations of a schedule, in the order in which they took effect, say everything about the map: a name
stands for the balancer of the last of them (`Latest`), over new endpoints with the addresses given there
(`Registers`). A `select_endpoint` looks the name up once; what it returns is an endpoint of the balancer that it found then,
whatever is registered after.
-/

namespace ServiceMesh.Transport

open Conc Object

/-- What one `add_cluster` was called with. -/
structure Registration where
  name : String
  endpoints : List String
  policy : LoadBalancingPolicy
deriving Repr, DecidableEq

/-- The registration that a step makes. -/
def registration (_ : Transport) : Pc → Option Registration
  | .begin (.addCluster name endpoints policy) => some ⟨name, endpoints, policy⟩
  | _ => none

/-- The registrations made in a schedule of a new transport, in order. -/
abbrev registrations (now : Nat) (ls : List (Label Method)) : List Registration :=
  shared.emitted registration (fresh now) ls

/-- The `b`th registration is the last one of the name. -/
def Latest (made : List Registration) (name : String) (b : Nat) (r : Registration) : Prop :=
  made[b]? = some r ∧ r.name = name ∧ ∀ (later : Nat) r', b < later → made[later]? = some r' → r'.name ≠ name

theorem latest_append {made : List Registration} {new r : Registration} {name : String} {b : Nat} :
    Latest (made ++ [new]) name b r ↔
      (new.name = name ∧ b = made.length ∧ r = new) ∨ (new.name ≠ name ∧ Latest made name b r) := by
  constructor
  · rintro ⟨at_b, named, last⟩
    rw [List.getElem?_append] at at_b
    split at at_b
    · next older =>
      have other : new.name ≠ name := last made.length new older (List.getElem?_concat_length)
      refine .inr ⟨other, at_b, named, fun later r' after at_later => last later r' after ?_⟩
      rw [List.getElem?_append_left (List.getElem?_eq_some_iff.mp at_later).1, at_later]
    · rw [List.getElem?_singleton] at at_b
      split at at_b
      · cases at_b
        exact .inl ⟨named, by omega, rfl⟩
      · cases at_b
  · rintro (⟨named, rfl, rfl⟩ | ⟨other, at_b, named, last⟩)
    · refine ⟨List.getElem?_concat_length, named, fun later r' after at_later => ?_⟩
      rw [List.getElem?_eq_none (by simp; omega)] at at_later
      cases at_later
    · have older := (List.getElem?_eq_some_iff.mp at_b).1
      refine ⟨by rw [List.getElem?_append_left older, at_b], named, fun later r' after at_later => ?_⟩
      rw [List.getElem?_append] at at_later
      split at at_later
      · exact last later r' after at_later
      · rw [List.getElem?_singleton] at at_later
        split at at_later
        · cases at_later
          exact other
        · cases at_later

theorem lookup_filter_ne {clusters : List (String × Nat)} {name name' : String} (other : name' ≠ name) :
    (clusters.filter fun cluster => cluster.1 ≠ name).lookup name' = clusters.lookup name' := by
  induction clusters with
  | nil => rfl
  | cons cluster clusters ih =>
    by_cases replaced : cluster.1 = name
    · have differs : (name' == cluster.1) = false := beq_eq_false_iff_ne.mpr (replaced ▸ other)
      rw [List.filter_cons_of_neg (by simpa using replaced), ih, List.lookup_cons, differs]
    · rw [List.filter_cons_of_pos (by simpa using replaced), List.lookup_cons, List.lookup_cons, ih]

/-- The new cluster, and the others as they were. -/
theorem getCluster_addCluster (name name' : String) (endpoints : List String) (policy : LoadBalancingPolicy) (t : Transport) :
    (t.addCluster name endpoints policy).getCluster name' =
      if name = name' then some t.balancers.length else t.getCluster name' := by
  simp only [getCluster, addCluster, fromAddresses, List.lookup_cons]
  by_cases same : name = name'
  · rw [if_pos same, beq_iff_eq.mpr same.symm]
  · rw [if_neg same, beq_eq_false_iff_ne.mpr (Ne.symm same)]
    exact lookup_filter_ne (Ne.symm same)

/-- The balancers and the map are what has been registered. -/
structure Registers (made : List Registration) (t : Transport) : Prop where
  length : t.balancers.length = made.length
  balancer : ∀ (b : Nat) lb r, t.balancers[b]? = some lb → made[b]? = some r →
    lb.policy = r.policy ∧ lb.endpoints.map (fun e => (t.heap e).address) = r.endpoints
  found : ∀ name b, t.getCluster name = some b ↔ ∃ r, Latest made name b r

theorem Registers.addCluster {made : List Registration} {t : Transport} (h : Registers made t) (sound : Sound t)
    (name : String) (endpoints : List String) (policy : LoadBalancingPolicy) :
    Registers (made ++ [⟨name, endpoints, policy⟩]) (t.addCluster name endpoints policy) where
  length := by simp [Transport.addCluster, fromAddresses, h.length]
  balancer b lb r at_b made_b := by
    have grown := Extends.addCluster name endpoints policy t
    rw [List.getElem?_append, ← h.length] at made_b
    simp only [Transport.addCluster, fromAddresses] at at_b
    rw [List.getElem?_append] at at_b
    by_cases older : b < t.balancers.length
    · rw [if_pos older] at at_b made_b
      obtain ⟨same, addresses⟩ := h.balancer b lb r at_b made_b
      refine ⟨same, addresses ▸ List.map_congr_left fun e mem => ?_⟩
      exact grown.address e (sound.made at_b mem)
    · rw [if_neg older, List.getElem?_singleton] at at_b made_b
      split at at_b
      · next first =>
        rw [if_pos first] at made_b
        cases at_b
        cases made_b
        refine ⟨rfl, List.ext_getElem (by simp [LoadBalancer.new]) fun n inside bound => ?_⟩
        simp only [LoadBalancer.new, Transport.addCluster, fromAddresses, List.getElem_map, List.getElem_range', Nat.one_mul]
        rw [if_pos (Nat.le_add_right _ _), Nat.add_sub_cancel_left, List.getElem?_eq_getElem bound]
        rfl
      · cases at_b
  found name' b := by
    rw [getCluster_addCluster]
    by_cases same : name = name'
    · rw [if_pos same, h.length]
      constructor
      · rintro ⟨⟩
        exact ⟨_, latest_append.mpr (.inl ⟨same, rfl, rfl⟩)⟩
      · rintro ⟨r, latest⟩
        rcases latest_append.mp latest with ⟨-, rfl, -⟩ | ⟨other, -⟩
        · rfl
        · exact absurd same other
    · rw [if_neg same, h.found]
      refine exists_congr fun r => ?_
      constructor
      · exact fun latest => latest_append.mpr (.inr ⟨same, latest⟩)
      · intro latest
        rcases latest_append.mp latest with ⟨named, -⟩ | ⟨-, latest⟩
        · exact absurd named same
        · exact latest

theorem Registers.of_table {made : List Registration} {t t' : Transport} (h : Registers made t) (sound : Sound t)
    (grown : Extends t t') (same : t'.table = t.table) : Registers made t' where
  length := by
    rw [← h.length]
    simpa [table] using congrArg (fun table => table.2.2.length) same
  balancer b lb' r at_b made_b := by
    have both := balancers_of_table same b
    rw [at_b, Option.map_some] at both
    obtain ⟨lb, at_b', pair⟩ := Option.map_eq_some_iff.mp both.symm
    obtain ⟨policy, addresses⟩ := h.balancer b lb r at_b' made_b
    have list : lb.endpoints = lb'.endpoints := congrArg Prod.fst pair
    refine ⟨(congrArg Prod.snd pair).symm.trans policy, ?_⟩
    rw [← addresses, ← list]
    exact List.map_congr_left fun e mem => grown.address e (sound.made at_b' mem)
  found name b := by
    have clusters : t'.clusters = t.clusters := congrArg (fun table => table.2.1) same
    rw [getCluster, clusters]
    exact h.found name b

/-- Every registered name has a last registration. -/
theorem exists_latest {made : List Registration} {name : String} (some_made : ∃ r ∈ made, r.name = name) :
    ∃ b r, Latest made name b r := by
  induction made using List.reverseRecOn with
  | nil =>
    obtain ⟨r, mem, -⟩ := some_made
    cases mem
  | append_singleton made new ih =>
    by_cases named : new.name = name
    · exact ⟨made.length, new, latest_append.mpr (.inl ⟨named, rfl, rfl⟩)⟩
    · obtain ⟨r, mem, rnamed⟩ := some_made
      have older : r ∈ made := by
        rcases List.mem_append.mp mem with older | here
        · exact older
        · cases List.mem_singleton.mp here
          exact absurd rnamed named
      obtain ⟨b, r', latest⟩ := ih ⟨r, older, rnamed⟩
      exact ⟨b, r', latest_append.mpr (.inr ⟨named, latest⟩)⟩

/-- A name that is not found has not been registered. -/
theorem Registers.missing {made : List Registration} {t : Transport} (h : Registers made t) (name : String) :
    t.getCluster name = none ↔ ∀ r ∈ made, r.name ≠ name := by
  constructor
  · intro missing r mem named
    obtain ⟨b, r', latest⟩ := exists_latest ⟨r, mem, named⟩
    rw [(h.found name b).mpr ⟨r', latest⟩] at missing
    cases missing
  · intro never
    rw [Option.eq_none_iff_forall_not_mem]
    intro b found
    obtain ⟨r, at_b, named, -⟩ := (h.found name b).mp found
    exact never r (List.mem_of_getElem? at_b) named

theorem Registers.endpoints {made : List Registration} {t : Transport} (h : Registers made t) {b : Nat} {r : Registration}
    (at_b : made[b]? = some r) : (t.endpoints b).map (fun e => (t.heap e).address) = r.endpoints := by
  have bound : b < t.balancers.length := h.length ▸ (List.getElem?_eq_some_iff.mp at_b).1
  have there := List.getElem?_eq_getElem bound
  rw [Transport.endpoints, there]
  exact (h.balancer b _ r there at_b).2

theorem registration_eq_some {t : Transport} {k : Pc} {r : Registration} (registers : registration t k = some r) :
    k = .begin (.addCluster r.name r.endpoints r.policy) := by
  unfold registration at registers
  split at registers
  · cases registers
    rfl
  · cases registers

/-- **In every interleaving** the map is what has been registered. -/
theorem registers_run (now : Nat) (ls : List (Label Method)) :
    Registers (registrations now ls) (shared.run (fresh now) ls).shared := by
  have both : Holds (fun _ t => Sound t) (fun _ _ t st => Stands t st) (shared.run (fresh now) ls) ∧
      Registers (registrations now ls) (shared.run (fresh now) ls).shared := by
    refine run_emitted (O := shared)
      (I := fun made c => Holds (fun _ t => Sound t) (fun _ _ t st => Stands t st) c ∧ Registers made c.shared) ?_ ?_ ?_ ?_ ls
    · exact fun made c d before => ⟨outline.exec before.1 trivial, before.2⟩
    · exact fun made c method before => ⟨outline.exec before.1 trivial, before.2⟩
    · rintro made c i k running ⟨holds, registers⟩
      refine ⟨outline.exec holds fun _ _ => trivial, ?_⟩
      have placed := holds.2 i _ running k rfl
      rw [shared_exec running]
      cases out : registration c.shared k with
      | some r =>
        obtain rfl := registration_eq_some out
        exact registers.addCluster holds.1 r.name r.endpoints r.policy
      | none =>
        rw [Option.toList_none, List.append_nil]
        rcases step_cases holds.1 c.clock placed with ⟨name, endpoints, policy, rfl, -⟩ | ⟨table, -⟩
        · cases out
        · exact registers.of_table holds.1 (extends_step holds.1 c.clock placed) table
    · refine ⟨.of_no_calls sound_new, ⟨rfl, ?_, ?_⟩⟩
      · intro b lb r at_b
        cases at_b
      · intro name b
        constructor
        · intro found
          cases found
        · rintro ⟨r, at_b, -⟩
          cases at_b
  exact both.2

/-- **The last `add_cluster` wins**, in every interleaving of all methods of the transport, of balancers and of endpoints: a
name stands for the balancer of its last registration, and for nothing exactly if it was never registered; the endpoints of
each registration have the addresses given there, in order, and no endpoint belongs to two registrations or twice to one. -/
theorem last_registration_wins (now : Nat) (ls : List (Label Method)) :
    let t := (shared.run (fresh now) ls).shared
    let made := registrations now ls
    (∀ name b, t.getCluster name = some b ↔ ∃ r, Latest made name b r) ∧
    (∀ name, t.getCluster name = none ↔ ∀ r ∈ made, r.name ≠ name) ∧
    (∀ (b : Nat) r, made[b]? = some r → (t.endpoints b).map (fun e => (t.heap e).address) = r.endpoints) ∧
    ((List.range made.length).flatMap t.endpoints).Nodup := by
  intro t made
  have registers : Registers made t := registers_run now ls
  have sound : Sound t := (stands_run now ls).1
  refine ⟨registers.found, registers.missing, fun b r at_b => registers.endpoints at_b, ?_⟩
  have all : (List.range made.length).flatMap t.endpoints = t.balancers.flatMap LoadBalancer.endpoints := by
    rw [← registers.length, List.flatMap_def, List.flatMap_def]
    congr 1
    refine List.ext_getElem (by simp) fun b _ bound => ?_
    rw [List.length_map] at bound
    simp [Transport.endpoints, bound]
  rw [all, sound.shared_out]
  exact List.nodup_range

/-! ## What a selection has seen -/

/-- The `i`th call reads the health of `e`, and this is what it finds. -/
def Saw (i : Nat) (up : Bool) (e : Nat) (c : Tasks) (l : Label Method) : Prop :=
  l = .step i ∧ (c.shared.heap e).healthy = up ∧
    ∃ b sample healthy rest, c.calls[i]? = some (.running (.select b (.filter sample healthy (e :: rest))))

/-- The `allow_request` of the `i`th call on the breaker of `e` returns this answer. -/
def Asked (i : Nat) (answer : Bool) (e : Nat) (c : Tasks) (l : Label Method) : Prop :=
  l = .step i ∧ ∃ b address rest,
    c.calls[i]? = some (.running (.select b (.ask e (.ret .allowRequest (some answer)) address rest)))

/-- The `i`th call begins at the balancer `b`: it is one of its `select`, or has found it under the name of a cluster. -/
def Reached (i b : Nat) (c : Tasks) (l : Label Method) : Prop :=
  l = .step i ∧ ((∃ sample, c.calls[i]? = some (.running (.begin (.select b sample)))) ∨
    ∃ cluster sample, c.calls[i]? = some (.running (.begin (.selectEndpoint cluster sample))) ∧
      c.shared.getCluster cluster = some b)

/-- The `i`th call finds no balancer under the name of its cluster. -/
def Missed (i : Nat) (c : Tasks) (l : Label Method) : Prop :=
  l = .step i ∧ ∃ cluster sample, c.calls[i]? = some (.running (.begin (.selectEndpoint cluster sample))) ∧
    c.shared.getCluster cluster = none

/-- Something that has happened to a transport that was new at time `now`. -/
abbrev Past (now : Nat) (ls : List (Label Method)) (P : Tasks → Label Method → Prop) : Prop :=
  Once shared P (fresh now) ls

section
variable (now : Nat) (ls : List (Label Method)) (i : Nat)

/-- The `i`th call is in a `select` of `b`, or has returned from it, with what it has seen itself. -/
def Chose (b : Nat) (st : Status (LoadBalancer.Pc Nat) (Option Nat)) : Prop :=
  Past now ls (Reached i b) ∧
    Selected (fun up e => Past now ls (Saw i up e)) (fun answer e => Past now ls (Asked i answer e))
      (shared.run (fresh now) ls).shared b st

/-- What a call of the transport that selects an endpoint knows. -/
def Knows : Status Pc Reply → Prop
  | .running (.select b k) => Chose now ls i b (.running k)
  | .done (.endpoint endpoint) => (endpoint = none ∧ Past now ls (Missed i)) ∨ ∃ b, Chose now ls i b (.done endpoint)
  | _ => True

end

section
variable {now : Nat} {ls : List (Label Method)} {i : Nat}

theorem Chose.later {b : Nat} {st : Status (LoadBalancer.Pc Nat) (Option Nat)} (h : Chose now ls i b st) (l : Label Method) :
    Chose now (ls ++ [l]) i b st := by
  have holds := stands_run now ls
  refine ⟨h.1.later l, ?_⟩
  rw [run_append, run_cons, run_nil]
  exact h.2.mono holds.1 (extends_exec holds l) (fun _ _ seen => seen.later l) fun _ _ answered => answered.later l

theorem Knows.later {st : Status Pc Reply} (h : Knows now ls i st) (l : Label Method) : Knows now (ls ++ [l]) i st := by
  cases st with
  | running k =>
    cases k with
    | select b k => exact Chose.later h l
    | _ => trivial
  | done reply =>
    cases reply with
    | endpoint endpoint =>
      exact h.imp (fun missed => ⟨missed.1, missed.2.later l⟩) fun ⟨b, chose⟩ => ⟨b, chose.later l⟩
    | _ => trivial

/-- **One step** of a call keeps what it knows up to date. -/
theorem Knows.step {k : Pc} (running : (shared.run (fresh now) ls).calls[i]? = some (.running k))
    (h : Knows now ls i (.running k)) :
    Knows now (ls ++ [.step i]) i
      (k.step (shared.run (fresh now) ls).clock (shared.run (fresh now) ls).shared).2 := by
  have sound := (stands_run now ls).1
  have starts : ∀ b sample, b < (shared.run (fresh now) ls).shared.balancers.length →
      Reached i b (shared.run (fresh now) ls) (.step i) → Chose now (ls ++ [.step i]) i b (.running (.select sample)) := by
    intro b sample bound reached
    have there : Selected (fun up e => Past now ls (Saw i up e)) (fun answer e => Past now ls (Asked i answer e))
        (shared.run (fresh now) ls).shared b (.running (.select sample)) :=
      ⟨_, List.getElem?_eq_getElem bound, trivial, fun _ _ => trivial⟩
    have holds := stands_run now ls
    refine ⟨once_last reached, ?_⟩
    rw [run_append, run_cons, run_nil]
    exact there.mono holds.1 (extends_exec holds _) (fun _ _ seen => seen.later _) fun _ _ answered => answered.later _
  cases k with
  | begin method =>
    cases method with
    | selectEndpoint cluster sample =>
      simp only [Pc.step]
      split
      · next b found => exact starts b sample (sound.found found) ⟨rfl, .inr ⟨cluster, sample, running, found⟩⟩
      · next missing => exact .inl ⟨rfl, once_last ⟨rfl, cluster, sample, running, missing⟩⟩
    | select b sample =>
      simp only [Pc.step]
      split
      · next bound => exact starts b sample bound ⟨rfl, .inl ⟨sample, running⟩⟩
      · trivial
    | endpoint e method =>
      simp only [Pc.step]
      split <;> trivial
    | _ => trivial
  | on e k =>
    simp only [Pc.step]
    split <;> trivial
  | select b k =>
    have chose : Chose now ls i b (.running k) := h
    obtain ⟨reached, selected⟩ := chose
    have selected := selected.mono sound (.of_table rfl fun _ => rfl) (fun _ _ seen => seen.later (.step i))
      fun _ _ answered => answered.later (.step i)
    obtain ⟨lb, at_b, after⟩ := Selected.step sound (shared.run (fresh now) ls).clock selected
      (by rintro sample healthy e rest rfl; exact once_last ⟨rfl, rfl, b, sample, healthy, rest, running⟩)
      (by rintro e answer address rest rfl; exact once_last ⟨rfl, b, address, rest, running⟩)
    have state : (shared.run (fresh now) (ls ++ [.step i])).shared =
        ((Pc.select b k).step (shared.run (fresh now) ls).clock (shared.run (fresh now) ls).shared).1 := by
      rw [run_append, run_cons, run_nil, shared_exec running]
      rfl
    rw [← state] at after
    simp only [Pc.step, at_b]
    cases status : (k.step (shared.run (fresh now) ls).clock ((shared.run (fresh now) ls).shared.view lb)).2 with
    | running k' =>
      rw [status] at after
      exact ⟨reached.later _, after⟩
    | done endpoint =>
      rw [status] at after
      exact .inr ⟨b, reached.later _, after⟩

theorem knows_run (now : Nat) (ls : List (Label Method)) {i : Nat} {st : Status Pc Reply}
    (at_i : (shared.run (fresh now) ls).calls[i]? = some st) : Knows now ls i st := by
  have later : ∀ ls l i st, Knows now ls i st → Knows now (ls ++ [l]) i st := fun _ l _ _ h => h.later l
  exact past_of_calls (O := shared) (I := fun _ => True) later (fun _ _ _ _ => trivial) (fun _ _ _ _ running h => h.step running) rfl ls
    (fun _ _ => trivial) i st at_i

/-- No step leads back to the beginning. -/
theorem step_not_begin (now : Nat) (t : Transport) (k : Pc) (method : Method) :
    (k.step now t).2 ≠ .running (.begin method) := by
  intro back
  cases k with
  | begin first =>
    cases first with
    | selectEndpoint cluster sample =>
      simp only [Pc.step] at back
      split at back <;> cases back
    | select b sample =>
      simp only [Pc.step] at back
      split at back <;> cases back
    | endpoint e inner =>
      simp only [Pc.step] at back
      split at back <;> cases back
    | _ => cases back
  | select b k =>
    simp only [Pc.step] at back
    split at back
    · split at back <;> cases back
    · cases back
  | on e k =>
    simp only [Pc.step] at back
    split at back <;> cases back

/-- A call begins with the method that was called. -/
theorem begin_called {before rest : List (Label Method)} {method first : Method}
    (called : (methods (before ++ rest))[i]? = some method)
    (begins : (shared.run (fresh now) before).calls[i]? = some (.running (.begin first))) : first = method := by
  obtain ⟨length, each⟩ := run_called (O := shared) (c := fresh now)
    (Q := fun m st => ∀ first, st = .running (.begin first) → first = m) (by rintro m first ⟨⟩; rfl)
    (fun m t s k _ first next => absurd next (step_not_begin t s k first)) rfl before
  have inside : i < (methods before).length := length ▸ (List.getElem?_eq_some_iff.mp begins).1
  rw [methods_append, List.getElem?_append_left inside] at called
  obtain ⟨m, made, same⟩ := each i _ begins
  exact (same first rfl).trans (Option.some.inj (made.symm.trans called))

end

/-- **What a `select_endpoint` returns**, in every interleaving: at one of its own steps it looks its cluster up. An endpoint
that it returns is one of the last registration of that name by then, with an address given there, that this call has seen
healthy and whose breaker has let this call in. It returns `None` if the name has not been registered by then, or if it was
turned away by all endpoints of the last registration, save those with the address of the one asked first. -/
theorem select_endpoint_routed (now : Nat) (ls : List (Label Method)) {i : Nat} {cluster : String} {sample : Nat}
    (called : (methods ls)[i]? = some (.selectEndpoint cluster sample)) {endpoint : Option Nat}
    (ended : (shared.run (fresh now) ls).calls[i]? = some (.done (.endpoint endpoint))) :
    let t := (shared.run (fresh now) ls).shared
    ∃ before after, ls = before ++ .step i :: after ∧
      (∀ e, endpoint = some e → ∃ b r, Latest (registrations now before) cluster b r ∧ e ∈ t.endpoints b ∧
        (t.heap e).address ∈ r.endpoints ∧ Past now ls (Saw i true e) ∧ Past now ls (Asked i true e)) ∧
      (endpoint = none → (∀ r ∈ registrations now before, r.name ≠ cluster) ∨
        ∃ b r, Latest (registrations now before) cluster b r ∧ (t.endpoints b).map (fun e => (t.heap e).address) = r.endpoints ∧
          LoadBalancer.TurnedAway (fun up e => Past now ls (Saw i up e)) (fun answer e => Past now ls (Asked i answer e))
            (t.endpoints b) fun e => (t.heap e).address) := by
  intro t
  have known : Knows now ls i (.done (.endpoint endpoint)) := knows_run now ls ended
  rcases known with ⟨rfl, before, l, after, split, rfl, cluster', sample', begins, missing⟩ |
    ⟨b, ⟨before, l, after, split, rfl, how⟩, lb, at_b, -, justified⟩
  · rw [split] at called
    cases begin_called called begins
    refine ⟨before, after, split, fun e found => (by cases found), fun _ => .inl ?_⟩
    exact ((registers_run now before).missing cluster).mp missing
  · rw [split] at called
    have registers := registers_run now ls
    rcases how with ⟨sample', begins⟩ | ⟨cluster', sample', begins, found⟩
    · cases begin_called called begins
    cases begin_called called begins
    obtain ⟨r, latest⟩ := ((registers_run now before).found cluster b).mp found
    have made : (registrations now ls)[b]? = some r := by
      rw [registrations, split, emitted_append, List.getElem?_append_left (List.getElem?_eq_some_iff.mp latest.1).1]
      exact latest.1
    have addresses : (t.endpoints b).map (fun e => (t.heap e).address) = r.endpoints := registers.endpoints made
    have list : t.endpoints b = lb.endpoints := by
      rw [Transport.endpoints, at_b, Option.elim_some]
    have known := justified (fun e => (t.heap e).address) ⟨rfl, fun _ _ => rfl⟩
    rw [← list] at known
    refine ⟨before, after, split, ?_, ?_⟩
    · rintro e rfl
      obtain ⟨mem, seen, admitted⟩ := known
      exact ⟨b, r, latest, mem, addresses ▸ List.mem_map_of_mem mem, seen, admitted⟩
    · rintro rfl
      exact .inr ⟨b, r, latest, addresses, known.resolve_left id⟩

/-- A cluster that is registered again while a `select_endpoint` is under way, and selected from once more. -/
def replaced : List (Label Method) :=
  [.call (.addCluster "api" ["a"] .LeastConnections), .step 0, .call (.selectEndpoint "api" 0), .step 1,
    .call (.addCluster "api" ["b"] .LeastConnections), .step 2] ++ List.replicate 11 (.step 1) ++
    .call (.selectEndpoint "api" 0) :: List.replicate 12 (.step 3)

/-- The one under way returns the endpoint of the first registration, the next one that of the second. -/
theorem select_endpoint_routed_replaced :
    let t := (shared.run (fresh 0) replaced).shared
    t.getCluster "api" = some 1 ∧ (t.heap 0).address = "a" ∧ (t.heap 1).address = "b" ∧
    (∃ before after, replaced = before ++ .step 1 :: after ∧ ∃ b r, Latest (registrations 0 before) "api" b r ∧
      (t.heap 0).address ∈ r.endpoints ∧ Past 0 replaced (Saw 1 true 0)) ∧
    ∃ before after, replaced = before ++ .step 3 :: after ∧ ∃ b r, Latest (registrations 0 before) "api" b r ∧
      (t.heap 1).address ∈ r.endpoints ∧ Past 0 replaced (Saw 3 true 1) := by
  have first : (shared.run (fresh 0) replaced).calls[1]? = some (.done (.endpoint (some 0))) :=
    Pool.done_of_result (by decide +kernel)
  have second : (shared.run (fresh 0) replaced).calls[3]? = some (.done (.endpoint (some 1))) :=
    Pool.done_of_result (by decide +kernel)
  have called : (methods replaced)[1]? = some (.selectEndpoint "api" 0) := rfl
  have called' : (methods replaced)[3]? = some (.selectEndpoint "api" 0) := rfl
  refine ⟨by decide +kernel, by decide +kernel, by decide +kernel, ?_, ?_⟩
  · obtain ⟨before, after, split, found, -⟩ := select_endpoint_routed 0 replaced called first
    obtain ⟨b, r, latest, -, address, seen, -⟩ := found 0 rfl
    exact ⟨before, after, split, b, r, latest, address, seen⟩
  · obtain ⟨before, after, split, found, -⟩ := select_endpoint_routed 0 replaced called' second
    obtain ⟨b, r, latest, -, address, seen, -⟩ := found 1 rfl
    exact ⟨before, after, split, b, r, latest, address, seen⟩

end ServiceMesh.Transport
