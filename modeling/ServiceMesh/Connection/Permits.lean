import ServiceMesh.Connection.Basic
import ServiceMesh.Logic.Wrapping

/-!
# Permits and counters agree in every interleaving

The permit and the counter are updated in opposite orders on acquire and on drop, so between
calls they agree and inside calls they do not. What holds in every intermediate state is an
equation for each of them: permits left plus calls holding one is the maximum, and each
counter is the number of calls that it counts (`Ledger`). One step moves one call, and the
equations move with it.
-/

namespace ServiceMesh.Connection

open Conc

/-- The books of the limiter: each field against the calls it counts. -/
structure Ledger (config : ConnectionConfig) (c : Calls) : Prop where
  same : c.shared.config = config
  permits : c.shared.semaphore + c.count holdsPermit = config.maxConnections
  active : Wraps c.shared.activeConnections (c.count isActive)
  accepted : Wraps c.shared.totalAccepted (c.count isAccepted)
  rejected : Wraps c.shared.totalRejected (c.count isRejected)

theorem Ledger.init {config : ConnectionConfig} {limiter : ConnectionLimiter}
    (built : ConnectionLimiter.new config = some limiter) : Ledger config ⟨0, limiter, []⟩ := by
  unfold ConnectionLimiter.new at built
  split at built
  · cases built
    exact ⟨rfl, rfl, Wraps.zero, Wraps.zero, Wraps.zero⟩
  · cases built

/-- A new call is not counted anywhere yet. -/
theorem Ledger.call {config : ConnectionConfig} {c : Calls} (h : Ledger config c) :
    Ledger config (shared.exec c (.call ())) := by
  refine ⟨h.same, ?_, ?_, ?_, ?_⟩ <;> rw [count_call]
  · exact h.permits
  · exact h.active
  · exact h.accepted
  · exact h.rejected

/-! ## What one step does to each field

Each field moves as the count of its calls does: up when the call becomes counted, down when it stops being. -/

theorem permits_move {k : Pc} {l : ConnectionLimiter} {n n' : Nat}
    (moves : n' + (holdsPermit (.running k)).toNat = n + (holdsPermit (k.step l).2).toNat) :
    (k.step l).1.semaphore + n' = l.semaphore + n := by
  cases k with
  | acquire =>
    by_cases free : 0 < l.semaphore
    · simp only [Pc.step, if_pos free, holdsPermit, Bool.toNat_true, Bool.toNat_false] at moves ⊢
      omega
    · simp only [Pc.step, if_neg free, holdsPermit, Bool.toNat_false] at moves ⊢
      omega
  | _ =>
    simp only [Pc.step, holdsPermit, Bool.toNat_true, Bool.toNat_false] at moves ⊢
    omega

theorem active_move (k : Pc) (l : ConnectionLimiter) :
    Moves l.activeConnections (k.step l).1.activeConnections (isActive (.running k)) (isActive (k.step l).2) := by
  cases k with
  | acquire =>
    simp only [Pc.step]
    split <;> exact .inl ⟨rfl, rfl⟩
  | countActive => exact .inr (.inl ⟨rfl, rfl, rfl⟩)
  | dropCount => exact .inr (.inr ⟨rfl, rfl, rfl⟩)
  | _ => exact .inl ⟨rfl, rfl⟩

theorem accepted_move (k : Pc) (l : ConnectionLimiter) :
    Moves l.totalAccepted (k.step l).1.totalAccepted (isAccepted (.running k)) (isAccepted (k.step l).2) := by
  cases k with
  | acquire =>
    simp only [Pc.step]
    split <;> exact .inl ⟨rfl, rfl⟩
  | countAccepted => exact .inr (.inl ⟨rfl, rfl, rfl⟩)
  | _ => exact .inl ⟨rfl, rfl⟩

theorem rejected_move (k : Pc) (l : ConnectionLimiter) :
    Moves l.totalRejected (k.step l).1.totalRejected (isRejected (.running k)) (isRejected (k.step l).2) := by
  cases k with
  | acquire =>
    simp only [Pc.step]
    split <;> exact .inl ⟨rfl, rfl⟩
  | countRejected => exact .inr (.inl ⟨rfl, rfl, rfl⟩)
  | _ => exact .inl ⟨rfl, rfl⟩

/-- **One step** of one call keeps the books. -/
theorem Ledger.step {config : ConnectionConfig} {c : Calls} (h : Ledger config c) {i : Nat} {k : Pc}
    (running : c.calls[i]? = some (.running k)) : Ledger config (shared.exec c (.step i)) := by
  have after : (shared.exec c (.step i)).shared = (k.step c.shared).1 := Object.shared_exec running
  have same : (k.step c.shared).1.config = c.shared.config := by
    cases k with
    | acquire => simp only [Pc.step]; split <;> rfl
    | _ => rfl
  constructor
  · rw [after, same, h.same]
  · rw [after, permits_move (count_step holdsPermit running), h.permits]
  · rw [after]
    exact h.active.move (count_step isActive running) (active_move k c.shared)
  · rw [after]
    exact h.accepted.move (count_step isAccepted running) (accepted_move k c.shared)
  · rw [after]
    exact h.rejected.move (count_step isRejected running) (rejected_move k c.shared)

/-- The books balance after every schedule. -/
theorem Ledger.run {config : ConnectionConfig} {c : Calls} (h : Ledger config c) (labels : List (Label Unit)) :
    Ledger config (shared.run c labels) := by
  refine Object.Every.run ?_ ?_ ?_ (Object.every_of_forall (fun _ _ => trivial) c labels) h
  · exact fun _ _ before => ⟨before.same, before.permits, before.active, before.accepted, before.rejected⟩
  · exact fun _ _ _ before => before.call
  · exact fun _ _ _ running _ before => before.step running

/-! ## The law -/

/-- A call counted as active holds a permit. -/
theorem active_le_held (c : Calls) : c.count isActive ≤ c.count holdsPermit := by
  apply List.countP_mono_left
  intro st _ active
  rcases st with ⟨k⟩ | ⟨outcome⟩
  · cases k <;> first | rfl | cases active
  · cases active

theorem Ledger.held_le {config : ConnectionConfig} {c : Calls} (h : Ledger config c) :
    c.count holdsPermit ≤ config.maxConnections := by
  have permits := h.permits
  omega

theorem Ledger.active_exact {config : ConnectionConfig} {c : Calls} (h : Ledger config c)
    (small : config.maxConnections ≤ maxPermits) : c.shared.activeConnections.toNat = c.count isActive := by
  have held := h.held_le
  have active := active_le_held c
  apply h.active.exact
  simp only [maxPermits] at small
  omega

/-- Between calls the active calls are the live guards. -/
theorem Idle.active_eq_live {c : Calls} (idle : Idle c) : c.count isActive = c.count isLive := by
  apply List.countP_congr
  intro st member
  rcases idle st member with live | ⟨outcome, rfl⟩
  · rcases st with ⟨k⟩ | ⟨outcome⟩
    · cases k <;> first | rfl | cases live
    · cases live
  · cases outcome <;> rfl

/-- Between calls every call has been accepted or rejected. -/
theorem Idle.accepted_add_rejected {c : Calls} (idle : Idle c) :
    c.count isAccepted + c.count isRejected = c.calls.length := by
  have complement : c.count isRejected = c.calls.countP (fun st => ¬ isAccepted st) := by
    apply List.countP_congr
    intro st member
    rcases idle st member with live | ⟨outcome, rfl⟩
    · rcases st with ⟨k⟩ | ⟨outcome⟩
      · cases k <;> first | decide | cases live
      · cases live
    · cases outcome <;> decide
  rw [complement]
  exact (List.length_eq_countP_add_countP isAccepted).symm

/-- A call is turned away only when no permit is left. -/
theorem refused_at_zero {c : Calls} {i : Nat} (running : c.calls[i]? = some (.running .acquire))
    (refused : (shared.exec c (.step i)).calls[i]? = some (.running .countRejected)) : c.shared.semaphore = 0 := by
  rw [Object.status_exec running] at refused
  by_cases free : 0 < c.shared.semaphore
  · simp [shared, Pc.step, if_pos free] at refused
  · omega

/-- **The connection limiter, in every interleaving.** The counter never exceeds the permits
held and those never exceed the maximum; a drop finds the counter positive; a refusal finds all
permits held; and whenever nothing is in progress, the counter is the number of live guards and
every call made has been counted once, as accepted or as rejected. -/
theorem limiter_law {config : ConnectionConfig} {limiter : ConnectionLimiter}
    (built : ConnectionLimiter.new config = some limiter) (labels : List (Label Unit)) :
    let c : Calls := shared.run ⟨0, limiter, []⟩ labels
    (c.shared.activeConnections.toNat ≤ c.count holdsPermit ∧ c.count holdsPermit ≤ config.maxConnections) ∧
    (∀ i : Nat, c.calls[i]? = some (.running .dropCount) → 0 < c.shared.activeConnections.toNat) ∧
    (∀ i : Nat, c.calls[i]? = some (.running .acquire) →
      (shared.exec c (.step i)).calls[i]? = some (.running .countRejected) →
      c.count holdsPermit = config.maxConnections) ∧
    (Idle c → c.shared.activeConnections.toNat = c.count isLive ∧
      (c.calls.length < 2 ^ 64 →
        c.shared.totalAccepted.toNat + c.shared.totalRejected.toNat = c.calls.length)) := by
  intro c
  have small : config.maxConnections ≤ maxPermits := by
    unfold ConnectionLimiter.new at built
    split at built
    · assumption
    · cases built
  have ledger : Ledger config c := (Ledger.init built).run labels
  have exact := ledger.active_exact small
  refine ⟨⟨exact ▸ active_le_held c, ledger.held_le⟩, ?_, ?_, ?_⟩
  · intro i dropping
    rw [exact]
    exact List.countP_pos_iff.mpr ⟨.running .dropCount, List.mem_of_getElem? dropping, rfl⟩
  · intro i running refused
    have none_left := refused_at_zero running refused
    have permits := ledger.permits
    omega
  · intro idle
    refine ⟨exact.trans idle.active_eq_live, fun fits => ?_⟩
    have total := idle.accepted_add_rejected
    rw [ledger.accepted.exact (by omega), ledger.rejected.exact (by omega), total]

/-- Two calls under a limit of one: the second is refused while the first holds its guard. -/
theorem limiter_law_one :
    ConnectionLimiter.new ⟨1⟩ = some ⟨1, 0, 0, 0, ⟨1⟩⟩ ∧
    (shared.run ⟨0, ⟨1, 0, 0, 0, ⟨1⟩⟩, []⟩
      [.call (), .step 0, .step 0, .step 0, .call (), .step 1]).count holdsPermit ≤ 1 :=
  ⟨by decide, (limiter_law (by decide : ConnectionLimiter.new ⟨1⟩ = some ⟨1, 0, 0, 0, ⟨1⟩⟩) _).1.2⟩

end ServiceMesh.Connection
