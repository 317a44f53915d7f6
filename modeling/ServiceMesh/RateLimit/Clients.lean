import ServiceMesh.RateLimit.Eviction
import ServiceMesh.RateLimit.Throughput
import Mathlib.Data.List.Dedup
import Mathlib.Data.List.ReduceOption
import Mathlib.Data.Rat.Floor

/-!
# Whose bucket a check is charged to

The map from clients to entries is read, filled and cleaned by all checks at once, and an entry that has been cleaned out of
the map lives on in the hands of the checks that looked it up before. Still no two clients ever share an entry: each place
of the heap has an owner from its allocation on, and every check works at a place of its own client (`Charged`). The map
never has a client twice, nor one that no check has named.
-/

namespace ServiceMesh.RateLimit

open Conc

/-- `RateLimitStats`. -/
structure RateLimitStats where
  globalAvailable : Nat
  clientCount : Nat
  requestsPerSecond : Nat
  burstSize : Nat
deriving Repr, DecidableEq

/-- `RateLimiter::stats`; `as u64` truncates and saturates. -/
def RateLimiter.stats {Ip : Type} (l : RateLimiter Ip) : RateLimitStats :=
  { globalAvailable := min ⌊l.globalBucket.tokens⌋₊ (2 ^ 64 - 1)
    clientCount := l.clientBuckets.length
    requestsPerSecond := l.config.requestsPerSecond
    burstSize := l.config.burstSize }

variable {Ip : Type}

/-- What a check knows of its client: `ms` are the clients of the checks made so far, `owner` those of the places. -/
def Charged (ms : List (Option Ip)) (owner : Nat → Ip) (allocated i : Nat) : Status (Pc Ip) Reply → Prop
  | .running (.consumeGlobal clientIp) => ms[i]? = some clientIp
  | .running (.cleanup ip) | .running (.countBefore ip) | .running (.retain ip _) | .running (.countAfter ip _)
  | .running (.lookup ip) => ms[i]? = some (some ip)
  | .running (.readClock place) | .running (.touch place _) | .running (.consumeClient place)
  | .running (.waitClient place) | .done (.ok (some place)) => place < allocated ∧ ms[i]? = some (some (owner place))
  | .running .waitGlobal | .done (.ok none) | .done (.err _) | .done (.panicked _) => True

/-- More checks and more places change nothing for a check under way. -/
theorem Charged.mono {ms ms' : List (Option Ip)} {owner owner' : Nat → Ip} {allocated allocated' i : Nat}
    (grown : ms <+: ms') (more : allocated ≤ allocated') (same : ∀ place < allocated, owner' place = owner place)
    {st : Status (Pc Ip) Reply} (h : Charged ms owner allocated i st) : Charged ms' owner' allocated' i st := by
  have still : ∀ {m : Option Ip}, ms[i]? = some m → ms'[i]? = some m := fun at_i => by
    obtain ⟨rest, rfl⟩ := grown
    rw [List.getElem?_append_left (List.getElem?_eq_some_iff.mp at_i).1, at_i]
  have held : ∀ {place : Nat}, place < allocated ∧ ms[i]? = some (some (owner place)) →
      place < allocated' ∧ ms'[i]? = some (some (owner' place)) := fun ⟨old, mine⟩ =>
    ⟨old.trans_le more, by rw [same _ old]; exact still mine⟩
  rcases st with ⟨_ | _ | _ | _ | _ | _ | _ | _ | _ | _ | _⟩ | ⟨(_ | place) | _ | _⟩ <;>
    first | exact still h | exact held h | exact h

/-- The map is in order, its clients have been named, and it leads every client to a place of its own. -/
structure Mapped (ms : List (Option Ip)) (owner : Nat → Ip) (l : RateLimiter Ip) : Prop where
  placed : l.Placed
  named : ∀ client ∈ l.clientBuckets, some client.1 ∈ ms
  owned : ∀ client ∈ l.clientBuckets, owner client.2 = client.1

theorem Mapped.mono {ms ms' : List (Option Ip)} {owner : Nat → Ip} {l : RateLimiter Ip} (h : Mapped ms owner l)
    (grown : ms <+: ms') : Mapped ms' owner l :=
  ⟨h.placed, fun client mem => grown.subset (h.named client mem), h.owned⟩

/-- Unmapping some clients leaves the others their places. -/
theorem Mapped.unmap {ms : List (Option Ip)} {owner : Nat → Ip} {l : RateLimiter Ip} (h : Mapped ms owner l)
    (keep : Ip × Nat → Bool) : Mapped ms owner { l with clientBuckets := l.clientBuckets.filter keep } :=
  ⟨h.placed.unmap keep l.lastCleanup, fun client mem => h.named client (List.mem_filter.mp mem).1,
    fun client mem => h.owned client (List.mem_filter.mp mem).1⟩

variable [DecidableEq Ip] {ms : List (Option Ip)} {owner : Nat → Ip} {l : RateLimiter Ip}

/-- A lookup finds a place of the client's, or makes one: no place changes hands. -/
theorem Mapped.entry (h : Mapped ms owner l) (now : Nat) {ip : Ip} {i : Nat} (mine : ms[i]? = some (some ip)) :
    ∃ owner', Mapped ms owner' (l.entry now ip).2 ∧ (∀ place < l.allocated, owner' place = owner place) ∧
      l.allocated ≤ (l.entry now ip).2.allocated ∧ (l.entry now ip).1 < (l.entry now ip).2.allocated ∧
      owner' (l.entry now ip).1 = ip := by
  rcases found : l.clientBuckets.lookup ip with _ | place
  · have unmapped := RateLimiter.lookup_none_iff.mp found
    have allocated : l.entry now ip = (l.allocated, l.allocate now ip) := by
      rw [RateLimiter.entry, found]
      rfl
    rw [allocated]
    have old : ∀ place < l.allocated, Function.update owner l.allocated ip place = owner place :=
      fun place below => Function.update_of_ne below.ne ip owner
    refine ⟨Function.update owner l.allocated ip, ⟨h.placed.allocate unmapped now, ?_, ?_⟩, old, Nat.le_succ _,
      Nat.lt_succ_self _, Function.update_self l.allocated ip owner⟩
    · intro client mem
      rcases List.mem_cons.mp mem with rfl | mem
      · exact List.mem_of_getElem? mine
      · exact h.named client mem
    · intro client mem
      rcases List.mem_cons.mp mem with rfl | mem
      · exact Function.update_self l.allocated ip owner
      · rw [old client.2 (h.placed.below client mem)]
        exact h.owned client mem
  · have same : l.entry now ip = (place, l) := by rw [RateLimiter.entry, found]
    have mem := h.placed.lookup_iff.mp found
    rw [same]
    exact ⟨owner, h, fun _ _ => rfl, Nat.le_refl _, h.placed.below _ mem, h.owned _ mem⟩

/-- **One step**: the map stays in order, no place changes hands, and the check works at a place of its client. -/
theorem Mapped.step (h : Mapped ms owner l) (overflowChecks : Bool) (now : Nat) {k : Pc Ip} {i : Nat}
    (mine : Charged ms owner l.allocated i (.running k)) :
    ∃ owner', Mapped ms owner' (k.step overflowChecks now l).1 ∧ (∀ place < l.allocated, owner' place = owner place) ∧
      l.allocated ≤ (k.step overflowChecks now l).1.allocated ∧
      Charged ms owner' (k.step overflowChecks now l).1.allocated i (k.step overflowChecks now l).2 := by
  have stays : ∀ {l' : RateLimiter Ip}, l'.clientBuckets = l.clientBuckets → l'.allocated = l.allocated →
      Mapped ms owner l' := fun map bound =>
    ⟨⟨map ▸ h.placed.clients, map ▸ h.placed.places, by rw [map, bound]; exact h.placed.below⟩, map ▸ h.named,
      map ▸ h.owned⟩
  cases k with
  | consumeGlobal clientIp =>
    refine ⟨owner, stays rfl rfl, fun _ _ => rfl, Nat.le_refl _, ?_⟩
    simp only [Pc.step]
    split
    · unfold Pc.granted
      split
      · cases clientIp with
        | none => trivial
        | some ip => exact mine
      · trivial
    · trivial
  | cleanup ip =>
    simp only [Pc.step]
    split
    · exact ⟨owner, h, fun _ _ => rfl, Nat.le_refl _, mine⟩
    · exact ⟨owner, stays rfl rfl, fun _ _ => rfl, Nat.le_refl _, mine⟩
  | countBefore ip => exact ⟨owner, h, fun _ _ => rfl, Nat.le_refl _, mine⟩
  | retain ip initialCount => exact ⟨owner, h.unmap _, fun _ _ => rfl, Nat.le_refl _, mine⟩
  | countAfter ip initialCount =>
    refine ⟨owner, h, fun _ _ => rfl, Nat.le_refl _, ?_⟩
    simp only [Pc.step]
    split
    · trivial
    · exact mine
  | lookup ip =>
    obtain ⟨owner', mapped, old, more, below, own⟩ := h.entry now (i := i) mine
    have mine : ms[i]? = some (some ip) := mine
    exact ⟨owner', mapped, old, more, below, mine.trans (congrArg (fun ip => some (some ip)) own.symm)⟩
  | readClock place => exact ⟨owner, h, fun _ _ => rfl, Nat.le_refl _, mine⟩
  | touch place t => exact ⟨owner, stays rfl rfl, fun _ _ => rfl, Nat.le_refl _, mine⟩
  | consumeClient place =>
    refine ⟨owner, stays rfl rfl, fun _ _ => rfl, Nat.le_refl _, ?_⟩
    simp only [Pc.step]
    split <;> exact mine
  | waitGlobal =>
    refine ⟨owner, h, fun _ _ => rfl, Nat.le_refl _, ?_⟩
    simp only [Pc.step, Reply.rejected]
    split <;> trivial
  | waitClient place =>
    refine ⟨owner, h, fun _ _ => rfl, Nat.le_refl _, ?_⟩
    simp only [Pc.step, Reply.rejected]
    split <;> trivial

/-- The map and all checks, for some owners of the places. -/
def Apart (ms : List (Option Ip)) (c : Checks Ip) : Prop :=
  ms.length = c.calls.length ∧ ∃ owner, Mapped ms owner c.shared ∧
    ∀ i st, c.calls[i]? = some st → Charged ms owner c.shared.allocated i st

theorem apart_run [Inhabited Ip] (overflowChecks : Bool) (config : RateLimitConfig) (t₀ : Nat)
    (labels : List (Label (Option Ip))) :
    Apart (Object.methods labels) ((shared Ip overflowChecks).run (fresh Ip config t₀) labels) := by
  refine Object.run_methods (I := Apart) ?_ ?_ ?_ ?_ labels
  · exact fun ms c d before => before
  · rintro ms c clientIp ⟨length, owner, mapped, charged⟩
    have grown : ms <+: ms ++ [clientIp] := List.prefix_append ms _
    refine ⟨by simp [length], owner, mapped.mono grown, ?_⟩
    intro i st at_i
    rw [Object.exec_call, List.getElem?_append] at at_i
    split at at_i
    · exact (charged i st at_i).mono grown (Nat.le_refl _) fun _ _ => rfl
    · next new =>
      obtain ⟨first, rfl⟩ : i = ms.length ∧ st = .running (.consumeGlobal clientIp) := by
        rw [List.getElem?_singleton] at at_i
        split at at_i
        · cases at_i
          exact ⟨by omega, rfl⟩
        · cases at_i
      show (ms ++ [clientIp])[i]? = some clientIp
      rw [first, List.getElem?_concat_length]
  · rintro ms c i k running ⟨length, owner, mapped, charged⟩
    obtain ⟨owner', mapped', old, more, mine⟩ := mapped.step overflowChecks c.clock (charged i _ running)
    have after : ((shared Ip overflowChecks).exec c (.step i)).shared = (k.step overflowChecks c.clock c.shared).1 :=
      Object.shared_exec running
    refine ⟨?_, owner', ?_, ?_⟩
    · rw [Object.exec_running running, List.length_set, length]
    · rw [after]
      exact mapped'
    · intro j st at_j
      rw [after]
      rcases Object.status_of_step running at_j with ⟨rfl, rfl⟩ | ⟨-, before⟩
      · exact mine
      · exact (charged j st before).mono (List.prefix_refl ms) more old
  · refine ⟨rfl, fun _ => default, ⟨RateLimiter.placed_new config t₀, ?_, ?_⟩, ?_⟩
    · exact fun client mem => absurd mem List.not_mem_nil
    · exact fun client mem => absurd mem List.not_mem_nil
    · exact fun i st at_i => by cases at_i

/-- **Clients are kept apart**, in every interleaving: the map has no client twice and only clients that checks have named,
so the statistics count no more clients than there are; a check is charged at an entry of the client it was made for, and
two checks charged at one entry, whenever that was in the map, were made for one client. -/
theorem clients_apart [Inhabited Ip] (overflowChecks : Bool) (config : RateLimitConfig) (t₀ : Nat)
    (labels : List (Label (Option Ip))) :
    let c := (shared Ip overflowChecks).run (fresh Ip config t₀) labels
    let made := Object.methods labels
    ((c.shared.clientBuckets.map Prod.fst).Nodup ∧ ∀ client ∈ c.shared.clientBuckets, some client.1 ∈ made) ∧
    c.shared.stats.clientCount ≤ (made.reduceOption.dedup).length ∧ c.shared.stats.globalAvailable ≤ config.burstSize ∧
    ∀ (i place : Nat), c.calls[i]? = some (.done (.ok (some place))) → ∃ ip, made[i]? = some (some ip) ∧
      ∀ j : Nat, c.calls[j]? = some (.done (.ok (some place))) → made[j]? = some (some ip) := by
  intro c made
  obtain ⟨-, owner, mapped, charged⟩ : Apart made c := apart_run overflowChecks config t₀ labels
  have timely : Timely config c := timely_run overflowChecks config t₀ labels
  refine ⟨⟨mapped.placed.clients, mapped.named⟩, ?_, ?_, ?_⟩
  · have named : c.shared.clientBuckets.map Prod.fst ⊆ made.reduceOption.dedup := by
      intro ip mem
      obtain ⟨client, inside, rfl⟩ := List.mem_map.mp mem
      exact List.mem_dedup.mpr (List.reduceOption_mem_iff.mpr (mapped.named client inside))
    have counted := (List.subperm_of_subset mapped.placed.clients named).length_le
    rw [List.length_map] at counted
    exact counted
  · have full : c.shared.globalBucket.tokens ≤ config.burstSize :=
      timely.2.globalBucket.capacity ▸ timely.1.1.globalBucket.below
    exact (min_le_left _ _).trans (Nat.floor_le_of_le full)
  · intro i place ended
    exact ⟨owner place, (charged i _ ended).2, fun j other => (charged j _ other).2⟩

end ServiceMesh.RateLimit
