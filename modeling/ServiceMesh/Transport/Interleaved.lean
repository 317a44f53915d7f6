import ServiceMesh.Transport.Tasks
import ServiceMesh.Logic.Past

/-!
# `select` while everything else goes on

Other calls of `select`, reports, health changes and connections may come between any two reads of a `select`. By the time
it returns, the endpoint may have become unhealthy and its breaker may have opened again; what still holds is about the
past of the call (`Justified`): it has itself seen the endpoint healthy and been admitted by its breaker, and if it returns
`None` it has itself been turned away everywhere, but for endpoints with the address of its first choice. No `select` waits
for another: after nine steps for each endpoint, and eleven, it has returned (`rank`).
-/

namespace ServiceMesh.LoadBalancer

open Conc Object

variable {w : Nat} {ι : Type}

/-! ## Inside `allow_request` -/

/-- The steps of `allow_request` before its last. -/
def askRank : CircuitBreaker.Pc → Nat
  | .allowCount => 5
  | .allowRead => 4
  | .allowCheck => 3
  | .allowHalfOpen => 2
  | .allowClear => 1
  | _ => 0

/-- A control state of `allow_request`. -/
def Allowing (k : CircuitBreaker.Pc) : Prop := 0 < askRank k ∨ ∃ answer, k = .ret .allowRequest (some answer)

/-- One step of `allow_request`: closer to the end, or the answer. -/
theorem Allowing.step {k : CircuitBreaker.Pc} (h : Allowing k) (now : Nat) (b : CircuitBreaker) :
    (∃ k', (k.step now b).2 = .running k' ∧ Allowing k' ∧ askRank k' < askRank k) ∨
    ∃ answer, k = .ret .allowRequest (some answer) ∧ k.step now b = (b, .done ⟨.allowRequest, some answer⟩) := by
  have ret : ∀ answer, Allowing (.ret .allowRequest (some answer)) := fun answer => .inr ⟨answer, rfl⟩
  rcases h with inside | ⟨answer, rfl⟩
  · refine .inl ?_
    cases k with
    | allowCount => exact ⟨_, rfl, .inl (by decide), by decide⟩
    | allowRead =>
      simp only [CircuitBreaker.Pc.step]
      split
      · exact ⟨_, rfl, ret true, by decide⟩
      · exact ⟨_, rfl, .inl (by decide), by decide⟩
      · exact ⟨_, rfl, ret true, by decide⟩
    | allowCheck =>
      simp only [CircuitBreaker.Pc.step]
      split
      · exact ⟨_, rfl, .inl (by decide), by decide⟩
      · exact ⟨_, rfl, ret false, by decide⟩
    | allowHalfOpen => exact ⟨_, rfl, .inl (by decide), by decide⟩
    | allowClear => exact ⟨_, rfl, ret true, by decide⟩
    | _ => exact absurd inside (Nat.lt_irrefl 0)
  · exact .inr ⟨answer, rfl, rfl⟩

/-! ## What stays -/

/-- The endpoints of the balancer, and the address of each. -/
structure Fixed (endpoints : List ι) (addr : ι → String) (s : Shared w ι) : Prop where
  list : s.endpoints = endpoints
  address : ∀ e ∈ endpoints, (s.heap e).address = addr e

/-- An address never changes once the endpoint is made. -/
def KeepsAddresses (endpoints : List ι) : Method ι → Prop
  | .select _ => True
  | .update f => ∀ (heap : Endpoints ι), ∀ e ∈ endpoints, (f heap e).address = (heap e).address

def StillKeeps (endpoints : List ι) : Status (Pc ι) (Option ι) → Prop
  | .running (.update f) => KeepsAddresses endpoints (.update f)
  | _ => True

theorem stillKeeps_ofChoice (endpoints : List ι) (heap : Endpoints ι) (healthy : List ι) (choice : Option ι) :
    StillKeeps endpoints (.running (.ofChoice heap healthy choice)) := by
  cases choice <;> trivial

variable [DecidableEq ι]

theorem setBreaker_address (e x : ι) (b : CircuitBreaker) (s : Shared w ι) :
    ((s.setBreaker e b).heap x).address = (s.heap x).address := by
  by_cases mine : x = e
  · subst mine
    simp [Shared.setBreaker]
  · simp [Shared.setBreaker, Function.update_of_ne mine]

omit [DecidableEq ι] in
theorem roundRobin_frame (healthy : List ι) (s : Shared w ι) :
    (s.roundRobin healthy).2.heap = s.heap ∧ (s.roundRobin healthy).2.endpoints = s.endpoints ∧
      (s.roundRobin healthy).2.policy = s.policy := by
  unfold Shared.roundRobin
  split <;> exact ⟨rfl, rfl, rfl⟩

/-- **One step** changes no list and no address. -/
theorem Fixed.step {endpoints : List ι} {addr : ι → String} {s : Shared w ι} (h : Fixed endpoints addr s) (now : Nat)
    {k : Pc ι} (keeps : StillKeeps endpoints (.running k)) :
    Fixed endpoints addr (k.step now s).1 ∧ StillKeeps endpoints (k.step now s).2 := by
  cases k with
  | select sample => exact ⟨h, trivial⟩
  | filter sample healthy rest =>
    cases rest with
    | nil =>
      simp only [Pc.step]
      split <;> exact ⟨h, trivial⟩
    | cons e rest => exact ⟨h, trivial⟩
  | choose sample healthy =>
    obtain ⟨heap, list, -⟩ := roundRobin_frame healthy s
    have turned : Fixed endpoints addr (s.roundRobin healthy).2 := ⟨list.trans h.list, by rw [heap]; exact h.address⟩
    simp only [Pc.step]
    split
    · exact ⟨turned, stillKeeps_ofChoice ..⟩
    · split <;> exact ⟨h, trivial⟩
    · exact ⟨h, stillKeeps_ofChoice ..⟩
    · exact ⟨turned, stillKeeps_ofChoice ..⟩
  | least healthy best connections rest =>
    cases rest with
    | nil => exact ⟨h, trivial⟩
    | cons e rest =>
      simp only [Pc.step]
      split <;> exact ⟨h, trivial⟩
  | ask e k address rest =>
    refine ⟨⟨h.list, fun x mem => (setBreaker_address e x _ s).trans (h.address x mem)⟩, ?_⟩
    simp only [Pc.step]
    split
    · trivial
    · split <;> trivial
  | scan address rest =>
    cases rest with
    | nil => exact ⟨h, trivial⟩
    | cons e rest =>
      simp only [Pc.step]
      split <;> exact ⟨h, trivial⟩
  | update f => exact ⟨⟨h.list, fun x mem => (keeps s.heap x mem).trans (h.address x mem)⟩, trivial⟩
  | ret r => exact ⟨h, trivial⟩

theorem fixed_outline (endpoints : List ι) (addr : ι → String) :
    Outline (shared w ι) ⟨KeepsAddresses endpoints, fun _ _ _ => True⟩ (fun _ s => Fixed endpoints addr s)
      (fun _ _ _ st => StillKeeps endpoints st) where
  start i now s m keeps _ := by
    cases m with
    | select sample => trivial
    | update f => exact keeps
  own i now s k _ fixed keeps := fixed.step now keeps
  other _ _ _ _ _ _ _ _ _ _ theirs := theirs
  tick _ _ _ fixed := fixed
  tickLoc _ _ _ _ _ _ keeps := keeps

/-! ## What a call has seen -/

section
variable (saw asked : Bool → ι → Prop)

/-- Of the endpoints looked at, the ones kept were seen healthy and the others were not. -/
structure Sifted (looked healthy : List ι) : Prop where
  kept : ∀ e ∈ healthy, e ∈ looked ∧ saw true e
  dropped : ∀ e ∈ looked, e ∈ healthy ∨ saw false e

/-- The call was turned away everywhere: no endpoint was healthy, or one refused and with it each healthy one that has
another address. -/
def TurnedAway (endpoints : List ι) (addr : ι → String) : Prop :=
  (∀ e ∈ endpoints, saw false e) ∨
  ∃ first ∈ endpoints, asked false first ∧ ∀ e ∈ endpoints, saw false e ∨ asked false e ∨ addr e = addr first

/-- What a call knows by the health that it `saw` and the answers of the breakers it `asked`, if it has not `wrote`
anything itself. -/
def Justified (wrote : Prop) (endpoints : List ι) (addr : ι → String) : Status (Pc ι) (Option ι) → Prop
  | .running (.filter _ healthy rest) => ∃ looked, endpoints = looked ++ rest ∧ Sifted saw looked healthy
  | .running (.choose _ healthy) => healthy ≠ [] ∧ Sifted saw endpoints healthy
  | .running (.least healthy best _ rest) => Sifted saw endpoints healthy ∧ best ∈ healthy ∧ ∀ e ∈ rest, e ∈ healthy
  | .running (.ask e k address rest) =>
    Allowing k ∧ ∃ healthy, Sifted saw endpoints healthy ∧ e ∈ healthy ∧ (∀ x ∈ rest, x ∈ healthy) ∧
      (∃ first ∈ healthy, addr first = address ∧ (first = e ∨ asked false first)) ∧
      ∀ x ∈ healthy, x ∈ rest ∨ x = e ∨ asked false x ∨ addr x = address
  | .running (.scan address rest) =>
    ∃ healthy, Sifted saw endpoints healthy ∧ (∀ x ∈ rest, x ∈ healthy) ∧
      (∃ first ∈ healthy, addr first = address ∧ asked false first) ∧
      ∀ x ∈ healthy, x ∈ rest ∨ asked false x ∨ addr x = address
  | .running (.ret (some e)) | .done (some e) => e ∈ endpoints ∧ saw true e ∧ asked true e
  | .running (.ret none) | .done none => wrote ∨ TurnedAway saw asked endpoints addr
  | .running (.select _) | .running (.update _) => True

end

section
variable {saw asked saw' asked' : Bool → ι → Prop} {wrote wrote' : Prop} {endpoints looked healthy : List ι}
  {addr : ι → String}

omit [DecidableEq ι] in
theorem Sifted.mono (h : Sifted saw looked healthy) (sees : ∀ up e, saw up e → saw' up e) : Sifted saw' looked healthy where
  kept e mem := ⟨(h.kept e mem).1, sees true e (h.kept e mem).2⟩
  dropped e mem := (h.dropped e mem).imp id (sees false e)

omit [DecidableEq ι] in
theorem TurnedAway.mono (h : TurnedAway saw asked endpoints addr) (sees : ∀ up e, saw up e → saw' up e)
    (asks : ∀ answer e, asked answer e → asked' answer e) : TurnedAway saw' asked' endpoints addr := by
  rcases h with down | ⟨first, mem, refused, all⟩
  · exact .inl fun e mem => sees false e (down e mem)
  · exact .inr ⟨first, mem, asks false first refused, fun e mem => (all e mem).imp (sees false e) (Or.imp (asks false e) id)⟩

omit [DecidableEq ι] in
/-- What a call knows, it knows from then on. -/
theorem Justified.mono {st : Status (Pc ι) (Option ι)} (h : Justified saw asked wrote endpoints addr st)
    (sees : ∀ up e, saw up e → saw' up e) (asks : ∀ answer e, asked answer e → asked' answer e) (writes : wrote → wrote') :
    Justified saw' asked' wrote' endpoints addr st := by
  have returned : ∀ r : Option ι, Justified saw asked wrote endpoints addr (.done r) →
      Justified saw' asked' wrote' endpoints addr (.done r) := by
    intro r h
    cases r with
    | none => exact h.imp writes fun away => away.mono sees asks
    | some e => exact ⟨h.1, sees true e h.2.1, asks true e h.2.2⟩
  cases st with
  | done r => exact returned r h
  | running k =>
    cases k with
    | select sample => trivial
    | filter sample healthy rest =>
      obtain ⟨looked, split, sifted⟩ := h
      exact ⟨looked, split, sifted.mono sees⟩
    | choose sample healthy => exact ⟨h.1, h.2.mono sees⟩
    | least healthy best connections rest => exact ⟨h.1.mono sees, h.2⟩
    | ask e k address rest =>
      obtain ⟨inside, healthy, sifted, mem, sub, ⟨first, member, named, tried⟩, cover⟩ := h
      exact ⟨inside, healthy, sifted.mono sees, mem, sub, ⟨first, member, named, tried.imp id (asks false first)⟩,
        fun x mem => (cover x mem).imp id (Or.imp id (Or.imp (asks false x) id))⟩
    | scan address rest =>
      obtain ⟨healthy, sifted, sub, ⟨first, member, named, tried⟩, cover⟩ := h
      exact ⟨healthy, sifted.mono sees, sub, ⟨first, member, named, asks false first tried⟩,
        fun x mem => (cover x mem).imp id (Or.imp (asks false x) id)⟩
    | update f => trivial
    | ret r =>
      cases r with
      | none => exact returned none h
      | some e => exact returned (some e) h

omit [DecidableEq ι] in
/-- Another endpoint looked at. -/
theorem Sifted.snoc (h : Sifted saw looked healthy) {e : ι} {up : Bool} (seen : saw up e) :
    Sifted saw (looked ++ [e]) (if up then healthy ++ [e] else healthy) := by
  cases up with
  | true =>
    refine ⟨fun x mem => ?_, fun x mem => ?_⟩
    · rcases List.mem_append.mp mem with old | new
      · exact ⟨List.mem_append_left _ (h.kept x old).1, (h.kept x old).2⟩
      · obtain rfl := List.mem_singleton.mp new
        exact ⟨List.mem_append_right _ new, seen⟩
    · rcases List.mem_append.mp mem with old | new
      · exact (h.dropped x old).imp (List.mem_append_left _) id
      · exact .inl (List.mem_append_right _ new)
  | false =>
    refine ⟨fun x mem => ⟨List.mem_append_left _ (h.kept x mem).1, (h.kept x mem).2⟩, fun x mem => ?_⟩
    rcases List.mem_append.mp mem with old | new
    · exact h.dropped x old
    · obtain rfl := List.mem_singleton.mp new
      exact .inr seen

omit [DecidableEq ι] in
/-- The first choice, before its breaker is asked. -/
theorem Justified.ofChoice (sifted : Sifted saw endpoints healthy) {heap : Endpoints ι}
    (address : ∀ e ∈ endpoints, (heap e).address = addr e) {e : ι} (mem : e ∈ healthy) :
    Justified saw asked wrote endpoints addr (.running (.ofChoice heap healthy (some e))) := by
  refine ⟨.inl (by decide), healthy, sifted, mem, fun x mem => mem, ⟨e, mem, ?_, .inl rfl⟩, fun x mem => .inl mem⟩
  exact (address e (sifted.kept e mem).1).symm

end

omit [DecidableEq ι] in
/-- A turn is a member. -/
theorem roundRobin_mem {s : Shared w ι} {healthy : List ι} (some_healthy : healthy ≠ []) :
    ∃ e ∈ healthy, (s.roundRobin healthy).1 = some e := by
  have inside : s.nextIndex.toNat % healthy.length < healthy.length :=
    Nat.mod_lt _ (List.length_pos_iff.mpr some_healthy)
  refine ⟨healthy[s.nextIndex.toNat % healthy.length], List.getElem_mem inside, ?_⟩
  rw [Shared.roundRobin, if_neg (by simpa using some_healthy)]
  exact List.getElem?_eq_getElem inside

/-- Every policy asks a member first; one of them reads the connection counts before that. -/
theorem step_choose_cases (now sample : Nat) (s : Shared w ι) {healthy : List ι} (some_healthy : healthy ≠ []) :
    (∃ e ∈ healthy, ((Pc.choose sample healthy).step now s).2 = .running (.ofChoice s.heap healthy (some e))) ∨
    ∃ e rest, healthy = e :: rest ∧
      ((Pc.choose sample healthy).step now s).2 = .running (.least healthy e (s.heap e).activeConnections rest) := by
  have turn : TakesTurns s.policy →
      ∃ e ∈ healthy, ((Pc.choose sample healthy).step now s).2 = .running (.ofChoice s.heap healthy (some e)) := by
    intro turns
    obtain ⟨e, mem, first⟩ := roundRobin_mem (s := s) some_healthy
    exact ⟨e, mem, by rw [step_choose turns, first]⟩
  cases policy : s.policy with
  | RoundRobin => exact .inl (turn (.inl policy))
  | ConsistentHash => exact .inl (turn (.inr policy))
  | LeastConnections =>
    obtain ⟨e, rest, rfl⟩ := List.exists_cons_of_ne_nil some_healthy
    exact .inr ⟨e, rest, rfl, by simp only [Pc.step, policy]⟩
  | Random =>
    have inside : sample % healthy.length < healthy.length := Nat.mod_lt _ (List.length_pos_iff.mpr some_healthy)
    refine .inl ⟨healthy[sample % healthy.length], List.getElem_mem inside, ?_⟩
    have drawn : random sample healthy = some healthy[sample % healthy.length] := by
      rw [random, if_neg (by simpa using some_healthy)]
      exact List.getElem?_eq_getElem inside
    simp only [Pc.step, policy, drawn]

/-- **One step** of a call keeps what it knows up to date, where it has seen the health that it reads and has got the
answers that the breakers give. -/
theorem Justified.step {saw asked : Bool → ι → Prop} {wrote : Prop} {endpoints : List ι} {addr : ι → String}
    {s : Shared w ι} (fixed : Fixed endpoints addr s) (now : Nat) {k : Pc ι}
    (h : Justified saw asked wrote endpoints addr (.running k))
    (looks : ∀ sample healthy e rest, k = .filter sample healthy (e :: rest) → saw (s.heap e).healthy e)
    (asks : ∀ e answer address rest, k = .ask e (.ret .allowRequest (some answer)) address rest → asked answer e)
    (writes : ∀ f, k = .update f → wrote) :
    Justified saw asked wrote endpoints addr (k.step now s).2 := by
  cases k with
  | select sample =>
    refine ⟨[], by rw [fixed.list]; rfl, ?_⟩
    exact ⟨fun e mem => absurd mem List.not_mem_nil, fun e mem => absurd mem List.not_mem_nil⟩
  | filter sample healthy rest =>
    obtain ⟨looked, split, sifted⟩ := h
    cases rest with
    | nil =>
      rw [List.append_nil] at split
      subst split
      simp only [Pc.step]
      split
      · next empty =>
        obtain rfl := List.isEmpty_iff.mp empty
        exact .inr (.inl fun e mem => (sifted.dropped e mem).resolve_left List.not_mem_nil)
      · next some_healthy => exact ⟨by simpa using some_healthy, sifted⟩
    | cons e rest =>
      refine ⟨looked ++ [e], by rw [split, List.append_assoc, List.singleton_append], ?_⟩
      exact sifted.snoc (looks sample healthy e rest rfl)
  | choose sample healthy =>
    obtain ⟨some_healthy, sifted⟩ := h
    rcases step_choose_cases now sample s some_healthy with ⟨e, mem, next⟩ | ⟨e, rest, rfl, next⟩
    · rw [next]
      exact .ofChoice sifted fixed.address mem
    · rw [next]
      exact ⟨sifted, List.mem_cons_self, fun x mem => List.mem_cons_of_mem e mem⟩
  | least healthy best connections rest =>
    obtain ⟨sifted, mem, sub⟩ := h
    cases rest with
    | nil => exact .ofChoice sifted fixed.address mem
    | cons e rest =>
      simp only [Pc.step]
      split
      · exact ⟨sifted, sub e List.mem_cons_self, fun x mem => sub x (List.mem_cons_of_mem e mem)⟩
      · exact ⟨sifted, mem, fun x mem => sub x (List.mem_cons_of_mem e mem)⟩
  | ask e k address rest =>
    obtain ⟨inside, healthy, sifted, mem, sub, ⟨first, member, named, tried⟩, cover⟩ := h
    rcases inside.step now (s.heap e).circuitBreaker with ⟨k', next, still, -⟩ | ⟨answer, rfl, next⟩
    · simp only [Pc.step, next]
      exact ⟨still, healthy, sifted, mem, sub, ⟨first, member, named, tried⟩, cover⟩
    · have answered : asked answer e := asks e answer address rest rfl
      simp only [Pc.step, next]
      cases answer with
      | true => exact ⟨(sifted.kept e mem).1, (sifted.kept e mem).2, answered⟩
      | false =>
        refine ⟨healthy, sifted, sub, ⟨first, member, named, ?_⟩, fun x mem => ?_⟩
        · rcases tried with rfl | refused
          · exact answered
          · exact refused
        · rcases cover x mem with later | rfl | rest
          · exact .inl later
          · exact .inr (.inl answered)
          · exact .inr rest
  | scan address rest =>
    obtain ⟨healthy, sifted, sub, ⟨first, member, named, refused⟩, cover⟩ := h
    cases rest with
    | nil =>
      refine .inr (.inr ⟨first, (sifted.kept first member).1, refused, fun e mem => ?_⟩)
      rcases sifted.dropped e mem with up | down
      · exact .inr (((cover e up).resolve_left List.not_mem_nil).imp id fun same => same.trans named.symm)
      · exact .inl down
    | cons e rest =>
      have sub' : ∀ x ∈ rest, x ∈ healthy := fun x mem => sub x (List.mem_cons_of_mem e mem)
      simp only [Pc.step]
      split
      · refine ⟨.inl (by decide), healthy, sifted, sub e List.mem_cons_self, sub', ⟨first, member, named, .inr refused⟩,
          fun x mem => ?_⟩
        rcases cover x mem with later | rest
        · rcases List.mem_cons.mp later with rfl | later
          · exact .inr (.inl rfl)
          · exact .inl later
        · exact .inr (.inr rest)
      · next same =>
        refine ⟨healthy, sifted, sub', ⟨first, member, named, refused⟩, fun x mem => ?_⟩
        rcases cover x mem with later | rest
        · rcases List.mem_cons.mp later with rfl | later
          · exact .inr (.inr ((fixed.address x (sifted.kept x mem).1).symm.trans (not_not.mp same)))
          · exact .inl later
        · exact .inr rest
  | update f => exact .inl (writes f rfl)
  | ret r =>
    cases r with
    | none => exact h
    | some e => exact h

/-! ## Steps that are left -/

/-- A status of a `select`. -/
def Selecting : Status (Pc ι) (Option ι) → Prop
  | .running (.ask _ k _ _) => Allowing k
  | .running (.update _) => False
  | _ => True

/-- An upper bound for the steps that a `select` over `n` endpoints takes before its last. -/
def rank (n : Nat) : Pc ι → Nat
  | .select _ => 9 * n + 10
  | .filter _ healthy rest => 8 * healthy.length + 9 * rest.length + 9
  | .choose _ healthy => 8 * healthy.length + 8
  | .least healthy _ _ rest => 7 * healthy.length + rest.length + 8
  | .ask _ k _ rest => 7 * rest.length + askRank k + 2
  | .scan _ rest => 7 * rest.length + 1
  | .update _ => 0
  | .ret _ => 0

omit [DecidableEq ι] in
theorem rank_ofChoice (n : Nat) (heap : Endpoints ι) (healthy : List ι) (choice : Option ι) :
    Selecting (.running (.ofChoice heap healthy choice)) ∧ rank n (.ofChoice heap healthy choice) ≤ 7 * healthy.length + 7 := by
  cases choice with
  | none => exact ⟨trivial, Nat.zero_le _⟩
  | some e => exact ⟨.inl (by decide), Nat.le_refl _⟩

omit [DecidableEq ι] in
theorem closer {n : Nat} {k k' : Pc ι} (still : Selecting (.running k')) (less : rank n k' < rank n k) :
    Selecting (.running k') ∧ ∀ next, Status.running (ρ := Option ι) k' = .running next → rank n next < rank n k :=
  ⟨still, fun _ same => Status.running.inj same ▸ less⟩

/-- **One step** of a `select` stays in it and comes closer to its end. -/
theorem rank_step {n : Nat} {s : Shared w ι} (count : s.endpoints.length = n) (now : Nat) {k : Pc ι}
    (mine : Selecting (.running k)) :
    Selecting (k.step now s).2 ∧ ∀ k', (k.step now s).2 = .running k' → rank n k' < rank n k := by
  cases k with
  | select sample => exact closer trivial (by simp only [rank, List.length_nil]; omega)
  | filter sample healthy rest =>
    cases rest with
    | nil =>
      simp only [Pc.step]
      split
      · exact closer trivial (by simp only [rank]; omega)
      · exact closer trivial (by simp only [rank]; omega)
    | cons e rest =>
      refine closer trivial ?_
      simp only [rank]
      split <;> simp only [List.length_append, List.length_cons, List.length_nil] <;> omega
  | choose sample healthy =>
    have chosen : ∀ choice, Selecting (.running (.ofChoice s.heap healthy choice)) ∧
        rank n (.ofChoice s.heap healthy choice) < rank n (.choose sample healthy) := by
      intro choice
      obtain ⟨still, small⟩ := rank_ofChoice n s.heap healthy choice
      exact ⟨still, Nat.lt_of_le_of_lt small (by simp only [rank]; omega)⟩
    simp only [Pc.step]
    split
    · exact closer (chosen _).1 (chosen _).2
    · split
      · exact closer trivial (by simp [rank])
      · exact closer trivial (by simp only [rank, List.length_cons]; omega)
    · exact closer (chosen _).1 (chosen _).2
    · exact closer (chosen _).1 (chosen _).2
  | least healthy best connections rest =>
    cases rest with
    | nil =>
      obtain ⟨still, small⟩ := rank_ofChoice n s.heap healthy (some best)
      exact closer still (Nat.lt_of_le_of_lt small (by simp only [rank, List.length_nil]; omega))
    | cons e rest =>
      simp only [Pc.step]
      split
      · exact closer trivial (by simp only [rank, List.length_cons]; omega)
      · exact closer trivial (by simp only [rank, List.length_cons]; omega)
  | ask e k address rest =>
    have mine : Allowing k := mine
    rcases mine.step now (s.heap e).circuitBreaker with ⟨k', next, still, less⟩ | ⟨answer, rfl, next⟩
    · simp only [Pc.step, next]
      exact closer still (by simp only [rank]; omega)
    · simp only [Pc.step, next]
      split
      · exact closer trivial (by simp only [rank]; omega)
      · exact closer trivial (by simp only [rank]; omega)
  | scan address rest =>
    cases rest with
    | nil => exact closer trivial (by simp only [rank]; omega)
    | cons e rest =>
      simp only [Pc.step]
      split
      · exact closer (.inl (by decide)) (by simp only [rank, askRank, List.length_cons]; omega)
      · exact closer trivial (by simp only [rank, List.length_cons]; omega)
  | update f => exact absurd mine id
  | ret r => exact ⟨trivial, fun k' next => by cases next⟩

/-- What a step of a `select` changes: the breaker that it asks, and the turn. -/
theorem step_frame (now : Nat) (s : Shared w ι) {k : Pc ι} (mine : Selecting (.running k)) :
    (k.step now s).1.endpoints = s.endpoints ∧ (k.step now s).1.policy = s.policy ∧
    ((∃ e inner address rest, k = .ask e inner address rest ∧
        (k.step now s).1.heap =
          Function.update s.heap e { s.heap e with circuitBreaker := (inner.step now (s.heap e).circuitBreaker).1 }) ∨
      (∀ e inner address rest, k ≠ .ask e inner address rest) ∧ (k.step now s).1.heap = s.heap) := by
  cases k with
  | ask e inner address rest => exact ⟨rfl, rfl, .inl ⟨e, inner, address, rest, rfl, rfl⟩⟩
  | update f => exact absurd mine id
  | filter sample healthy rest => cases rest <;> exact ⟨rfl, rfl, .inr ⟨fun _ _ _ _ => by simp, rfl⟩⟩
  | choose sample healthy =>
    obtain ⟨heap, list, policy⟩ := roundRobin_frame healthy s
    simp only [Pc.step]
    split
    · exact ⟨list, policy, .inr ⟨fun _ _ _ _ => by simp, heap⟩⟩
    · split <;> exact ⟨rfl, rfl, .inr ⟨fun _ _ _ _ => by simp, rfl⟩⟩
    · exact ⟨rfl, rfl, .inr ⟨fun _ _ _ _ => by simp, rfl⟩⟩
    · exact ⟨list, policy, .inr ⟨fun _ _ _ _ => by simp, heap⟩⟩
  | least healthy best connections rest => cases rest <;> exact ⟨rfl, rfl, .inr ⟨fun _ _ _ _ => by simp, rfl⟩⟩
  | scan address rest => cases rest <;> exact ⟨rfl, rfl, .inr ⟨fun _ _ _ _ => by simp, rfl⟩⟩
  | _ => exact ⟨rfl, rfl, .inr ⟨fun _ _ _ _ => by simp, rfl⟩⟩

/-! ## Whole schedules -/

/-- The `i`th call reads the health of `e`, and this is what it finds. -/
def Saw (i : Nat) (up : Bool) (e : ι) (c : Pool (Shared w ι) (Pc ι) (Option ι)) (l : Label (Method ι)) : Prop :=
  l = .step i ∧ (c.shared.heap e).healthy = up ∧
    ∃ sample healthy rest, c.calls[i]? = some (.running (.filter sample healthy (e :: rest)))

/-- The `allow_request` of the `i`th call on the breaker of `e` returns this answer. -/
def Asked (i : Nat) (answer : Bool) (e : ι) (c : Pool (Shared w ι) (Pc ι) (Option ι)) (l : Label (Method ι)) : Prop :=
  l = .step i ∧ ∃ address rest, c.calls[i]? = some (.running (.ask e (.ret .allowRequest (some answer)) address rest))

/-- The `i`th call is no `select`: it writes to the endpoints. -/
def Writes (i : Nat) (c : Pool (Shared w ι) (Pc ι) (Option ι)) (l : Label (Method ι)) : Prop :=
  l = .step i ∧ ∃ f, c.calls[i]? = some (.running (.update f))

/-- Something that has happened since `c`. -/
abbrev Past (c : Pool (Shared w ι) (Pc ι) (Option ι)) (ls : List (Label (Method ι)))
    (P : Pool (Shared w ι) (Pc ι) (Option ι) → Label (Method ι) → Prop) : Prop :=
  Once (shared w ι) P c ls

/-- What the `i`th call knows by what it has seen itself since `c`. -/
abbrev Knows (c : Pool (Shared w ι) (Pc ι) (Option ι)) (ls : List (Label (Method ι))) (i : Nat) :
    Status (Pc ι) (Option ι) → Prop :=
  Justified (fun up e => Past c ls (Saw i up e)) (fun answer e => Past c ls (Asked i answer e)) (Past c ls (Writes i))
    c.shared.endpoints fun e => (c.shared.heap e).address

section
variable {c : Pool (Shared w ι) (Pc ι) (Option ι)} (none : c.calls = []) {ls : List (Label (Method ι))}
  (keeps : ∀ m, .call m ∈ ls → KeepsAddresses c.shared.endpoints m)
include none keeps

/-- In every schedule of calls that keep the addresses, the list and the addresses stay. -/
theorem fixed_run :
    Holds (fun _ s => Fixed c.shared.endpoints (fun e => (c.shared.heap e).address) s)
      (fun _ _ _ st => StillKeeps c.shared.endpoints st) ((shared w ι).run c ls) := by
  refine (fixed_outline c.shared.endpoints fun e => (c.shared.heap e).address).run ⟨⟨rfl, fun _ _ => rfl⟩, ?_⟩
    (along_calls keeps)
  intro i st at_i
  rw [none] at at_i
  cases at_i

theorem justified_run {i : Nat} {st : Status (Pc ι) (Option ι)} (at_i : ((shared w ι).run c ls).calls[i]? = some st) :
    Knows c ls i st := by
  have later : ∀ ls l i st, Knows c ls i st → Knows c (ls ++ [l]) i st :=
    fun _ l _ _ h => h.mono (fun _ _ seen => seen.later l) (fun _ _ answered => answered.later l) fun wrote => wrote.later l
  refine past_of_calls (I := fun c' => Fixed c.shared.endpoints (fun e => (c.shared.heap e).address) c'.shared) later
    ?_ ?_ none ls ?_ i st at_i
  · intro ls i m called
    cases m <;> trivial
  · intro ls i k fixed running h
    refine Justified.step fixed _ (later ls (.step i) i _ h) ?_ ?_ ?_
    · rintro sample healthy e rest rfl
      exact once_last ⟨rfl, rfl, sample, healthy, rest, running⟩
    · rintro e answer address rest rfl
      exact once_last ⟨rfl, address, rest, running⟩
    · rintro f rfl
      exact once_last ⟨rfl, f, running⟩
  · rintro ks ⟨rest, rfl⟩
    exact (fixed_run none fun m called => keeps m (List.mem_append_left rest called)).1

end

/-- A call of `select` goes through the steps of a `select`. -/
theorem selecting_run {c : Pool (Shared w ι) (Pc ι) (Option ι)} (none : c.calls = []) (ls : List (Label (Method ι)))
    {i sample : Nat} (called : (methods ls)[i]? = some (.select sample)) {st : Status (Pc ι) (Option ι)}
    (at_i : ((shared w ι).run c ls).calls[i]? = some st) : Selecting st := by
  obtain ⟨-, each⟩ := run_called (O := shared w ι)
    (Q := fun m st => ∀ sample, m = .select sample → Selecting st)
    (by rintro _ sample rfl; trivial) (fun m t s k mine sample made => (rank_step rfl t (mine sample made)).1) none ls
  obtain ⟨m, made, selecting⟩ := each i st at_i
  exact selecting sample (Option.some.inj (made.symm.trans called))

/-- **What a `select` returns, it has seen itself**, whatever ran in between: an endpoint of the balancer that this call
found healthy and whose breaker let this call in; and `None` only after each endpoint was found unhealthy or refused by its
breaker, save those with the address of the one asked first, which are not asked again. -/
theorem select_justified {c : Pool (Shared w ι) (Pc ι) (Option ι)} (none : c.calls = []) (ls : List (Label (Method ι)))
    (keeps : ∀ m, .call m ∈ ls → KeepsAddresses c.shared.endpoints m) {i sample : Nat}
    (called : (methods ls)[i]? = some (.select sample)) :
    (∀ e, ((shared w ι).run c ls).calls[i]? = some (.done (some e)) →
      e ∈ c.shared.endpoints ∧ Past c ls (Saw i true e) ∧ Past c ls (Asked i true e)) ∧
    (((shared w ι).run c ls).calls[i]? = some (.done .none) →
      TurnedAway (fun up e => Past c ls (Saw i up e)) (fun answer e => Past c ls (Asked i answer e)) c.shared.endpoints
        fun e => (c.shared.heap e).address) := by
  refine ⟨fun e ended => justified_run none keeps ended, fun ended => ?_⟩
  have known : Knows c ls i (.done .none) := justified_run none keeps ended
  refine known.resolve_left ?_
  rintro ⟨before, l, after, rfl, -, f, running⟩
  -- the call was one of `select` from its start
  have made : (methods before)[i]? = some (.select sample) := by
    obtain ⟨length, -⟩ := run_called (O := shared w ι) (Q := fun _ _ => True) (fun _ => trivial) (fun _ _ _ _ _ => trivial)
      none before
    have inside : i < (methods before).length := length ▸ (List.getElem?_eq_some_iff.mp running).1
    rw [methods_append, List.getElem?_append_left inside] at called
    exact called
  exact selecting_run none before made running

/-- One endpoint. -/
def single (policy : LoadBalancingPolicy) : Pool (Shared 64 Unit) (Pc Unit) (Option Unit) :=
  ⟨0, ⟨fun _ => .new "a", [()], policy, 0⟩, []⟩

/-- A `select` that has looked at its only endpoint when that becomes unhealthy. -/
def lately : List (Label (Method Unit)) :=
  [.call (.select 0), .step 0, .step 0, .call (.update fun heap e => { heap e with healthy := false }), .step 1] ++
    List.replicate 7 (.step 0)

theorem lately_keeps (m : Method Unit) (called : .call m ∈ lately) : KeepsAddresses [()] m := by
  have one : m = .select 0 ∨ m = .update fun heap e => { heap e with healthy := false } := by simpa [lately] using called
  rcases one with rfl | rfl
  · trivial
  · exact fun _ _ _ => rfl

/-- It is returned all the same: this call has seen it healthy, and its breaker has let the call in. -/
theorem select_justified_lately :
    (((shared 64 Unit).run (single .LeastConnections) lately).shared.heap ()).healthy = false ∧
    ((shared 64 Unit).run (single .LeastConnections) lately).calls[0]? = some (.done (some ())) ∧
    Past (single .LeastConnections) lately (Saw 0 true ()) ∧ Past (single .LeastConnections) lately (Asked 0 true ()) := by
  have ended : ((shared 64 Unit).run (single .LeastConnections) lately).calls[0]? = some (.done (some ())) := by
    simp [lately, single, run, exec, shared, Pc.step, Pc.ofChoice, CircuitBreaker.Pc.step, Shared.setBreaker,
      Endpoint.new, CircuitBreaker.new]
  have called : (methods lately)[0]? = some (.select 0) := rfl
  have known := select_justified (c := single .LeastConnections) rfl lately lately_keeps called
  exact ⟨rfl, ended, (known.1 () ended).2⟩

/-- **`select` waits for nobody**: once it has been given eleven steps, and nine for each endpoint, it has returned, whatever
ran in between. -/
theorem select_returns {c : Pool (Shared w ι) (Pc ι) (Option ι)} (none : c.calls = [])
    (before after : List (Label (Method ι))) (sample : Nat)
    (keeps : ∀ m, .call m ∈ before ++ .call (.select sample) :: after → KeepsAddresses c.shared.endpoints m)
    (enough : 9 * c.shared.endpoints.length + 11 ≤
      after.countP (Label.isStep ((shared w ι).run c before).calls.length)) :
    ∃ r, ((shared w ι).run c (before ++ .call (.select sample) :: after)).calls[((shared w ι).run c before).calls.length]? =
      some (.done r) := by
  have kept : ∀ m, .call m ∈ before ++ [.call (.select sample)] → KeepsAddresses c.shared.endpoints m := by
    refine fun m called => keeps m ?_
    rcases List.mem_append.mp called with earlier | here
    · exact List.mem_append_left _ earlier
    · exact List.mem_append_right _ (List.mem_cons.mpr (.inl (List.mem_singleton.mp here)))
  have begun := fixed_run none kept
  rw [run_append] at begun ⊢
  refine (fixed_outline c.shared.endpoints fun e => (c.shared.heap e).address).ends Selecting (rank c.shared.endpoints.length) ?_ begun
    (status_called (shared w ι) _ (.select sample)) trivial (along_calls fun m called => keeps m ?_) ?_
  · intro t s k _ fixed mine
    exact rank_step (congrArg List.length fixed.list) t mine
  · exact List.mem_append_right _ (List.mem_cons_of_mem _ called)
  · have start : rank c.shared.endpoints.length ((shared w ι).start (.select sample)) =
        9 * c.shared.endpoints.length + 10 := rfl
    omega

/-- Another `select` in between keeps nobody waiting. -/
theorem select_returns_single :
    ∃ r, ((shared 64 Unit).run (single .RoundRobin)
      (lately ++ .call (.select 1) :: (lately ++ List.replicate 20 (.step 2)))).calls[2]? = some (.done r) := by
  have two : ((shared 64 Unit).run (single .RoundRobin) lately).calls.length = 2 := by decide +kernel
  have keeps : ∀ m, .call m ∈ lately ++ .call (.select 1) :: (lately ++ List.replicate 20 (.step 2)) →
      KeepsAddresses [()] m := by
    intro m called
    have one : m = .select 1 ∨ .call m ∈ lately := by simpa [or_comm] using called
    rcases one with rfl | again
    · trivial
    · exact lately_keeps m again
  have returned := select_returns (c := single .RoundRobin) rfl lately (lately ++ List.replicate 20 (.step 2)) 1 keeps
  rw [two] at returned
  exact returned (by decide)

end ServiceMesh.LoadBalancer
