import ServiceMesh.Proxy.Shutdown

/-!
# What shuts down, when, and that it does

`run` begins to shut down on ctrl-c, or when it finds a loop ended that has panicked; a loop ends by a panic, or by the
message, which is there only after that. From then on the loop accepts nothing; the handlers go on until `run` has
returned. All of it is read off what one event changes (`Change`), by induction on the run.

That the shutdown ends is a rank: each stage waits for one event, and no event takes a stage back (`ranked`).
-/

namespace ServiceMesh.Proxy

open Transducer

namespace Server

/-- What the connections that a listener has accepted are handled by, in their order. -/
def accepted (s : Server) (which : Which) : List Handler :=
  s.connections.filterMap fun c => if c.listener = which then some c.handler else none

variable {s s' : Server} {e : Event}

/-- `run` leaves its `select!` on ctrl-c, or when it finds a loop ended. -/
theorem Change.begun_iff (change : Change s e s') :
    s'.stage ≠ .selecting ↔
      s.stage ≠ .selecting ∨ e = .ctrlC ∨ ∃ which, e = .completed which ∧ s.serving which = false := by
  cases change with
  | idle e quiet =>
    constructor
    · exact .inl
    · rintro (begun | rfl | ⟨which, rfl, stopped⟩)
      · exact begun
      · exact quiet
      · exact fun selecting => quiet ⟨selecting, stopped⟩
  | panicked which => cases which <;> simp [stop]
  | received which serving sent => cases which <;> simp [stop]
  | accepted which serving => simp
  | finished i => simp
  | advanced e stage sent advance =>
    cases advance with
    | interrupted selecting => simp
    | found which selecting ended => simp [ended]
    | sends p a sending => simp [sending]
    | joinsProxy a joining ended => simp [joining]
    | joinsAdmin joining ended => simp [joining]
    | returns joining => simp [joining]

theorem filterMap_modify {α β : Type} {f : α → α} {g : α → Option β} (l : List α) (i : Nat) (same : ∀ a, g (f a) = g a) :
    (l.modify i f).filterMap g = l.filterMap g := by
  induction l generalizing i with
  | nil => rw [List.modify_nil]
  | cons a l ih =>
    cases i with
    | zero => rw [List.modify_zero_cons, List.filterMap_cons, List.filterMap_cons, same]
    | succ i => rw [List.modify_succ_cons, List.filterMap_cons, List.filterMap_cons, ih]

theorem Change.accepted_of_stopped (change : Change s e s') {which : Which} (stopped : s.serving which = false) :
    s'.accepted which = s.accepted which := by
  cases change with
  | idle e quiet => rfl
  | panicked w => cases w <;> rfl
  | received w serving sent => cases w <;> rfl
  | accepted w serving =>
    have apart : w ≠ which := by
      rintro rfl
      rw [stopped] at serving
      cases serving
    simp [Server.accepted, apart]
  | finished i => exact filterMap_modify s.connections i fun _ => rfl
  | advanced e stage sent advance => rfl

/-! ## Runs -/

/-- **Why a loop has ended**: it panicked, or it received the message. -/
theorem stopped_iff (listener : Listener) (events : List Event) (which : Which) :
    (after listener events).serving which = false ↔
      .panic which ∈ events ∨ ∃ before, before ++ [.receive which] <+: events ∧ (after listener before).sent = true := by
  induction events using List.reverseRecOn with
  | nil => cases which <;> simp [after, start, serving]
  | append_singleton events e ih =>
    rw [after_snoc, (step_change e _).stopped_iff, ih, List.mem_append, List.mem_singleton]
    simp only [List.prefix_concat_iff, or_and_right, exists_or]
    constructor
    · rintro ((panicked | ⟨before, initial, sent⟩) | rfl | ⟨rfl, sent⟩)
      · exact .inl (.inl panicked)
      · exact .inr (.inr ⟨before, initial, sent⟩)
      · exact .inl (.inr rfl)
      · exact .inr (.inl ⟨events, rfl, sent⟩)
    · rintro ((panicked | rfl) | ⟨before, last, sent⟩ | ⟨before, initial, sent⟩)
      · exact .inl (.inl panicked)
      · exact .inr (.inl rfl)
      · obtain ⟨rfl, same⟩ := List.append_inj' last rfl
        exact .inr (.inr ⟨(List.singleton_inj.mp same).symm, sent⟩)
      · exact .inl (.inr ⟨before, initial, sent⟩)

/-- What has begun has begun for good. -/
theorem begun_mono (listener : Listener) {before events : List Event} (initial : before <+: events)
    (begun : (after listener before).stage ≠ .selecting) : (after listener events).stage ≠ .selecting := by
  obtain ⟨later, rfl⟩ := initial
  rw [after_append]
  exact run_invariant (f := fun e s => ((), step e s)) (I := fun s => s.stage ≠ .selecting)
    (fun e s still => (step_change e s).begun_iff.mpr (.inl still)) begun later

/-- **Why `run` has begun to shut down**: ctrl-c, or a loop that it found ended, by a panic. -/
theorem begun_iff (listener : Listener) (events : List Event) :
    (after listener events).stage ≠ .selecting ↔
      .ctrlC ∈ events ∨ ∃ which, List.Sublist [.panic which, .completed which] events := by
  induction events using List.reverseRecOn with
  | nil => simp [after, start]
  | append_singleton events e ih =>
    have grow := List.sublist_append_left events [e]
    rw [after_snoc, (step_change e _).begun_iff]
    constructor
    · rintro (before | rfl | ⟨which, rfl, stopped⟩)
      · exact (ih.mp before).imp (List.mem_append_left _) (Exists.imp fun which found => found.trans grow)
      · exact .inl (List.mem_append_right _ (List.mem_singleton_self _))
      · rcases (stopped_iff listener events which).mp stopped with panicked | ⟨before, initial, sent⟩
        · exact .inr ⟨which, (List.singleton_sublist.mpr panicked).append (List.Sublist.refl [Event.completed which])⟩
        · -- the message was there: `run` had begun before
          have begun : (after listener before).stage ≠ .selecting := by
            intro selecting
            rw [(consistent listener before).sent, selecting] at sent
            cases sent
          have still := begun_mono listener ((List.prefix_append before _).trans initial) begun
          exact (ih.mp still).imp (List.mem_append_left _) (Exists.imp fun which found => found.trans grow)
    · rintro (pressed | ⟨which, found⟩)
      · rcases List.mem_append.mp pressed with earlier | last
        · exact .inl (ih.mpr (.inl earlier))
        · exact .inr (.inl (List.mem_singleton.mp last).symm)
      · obtain ⟨first, second, split, early, late⟩ := List.sublist_append_iff.mp found
        cases late with
        | cons _ nothing =>
          rw [List.sublist_nil.mp nothing, List.append_nil] at split
          exact .inl (ih.mpr (.inr ⟨which, split ▸ early⟩))
        | cons_cons _ nothing =>
          rw [List.sublist_nil.mp nothing] at split
          have parts : [Event.panic which] ++ [Event.completed which] = first ++ [e] := split
          obtain ⟨panicked, completed⟩ := List.append_inj' parts rfl
          rw [← panicked] at early
          have stopped := (stopped_iff listener events which).mpr (.inl (List.singleton_sublist.mp early))
          exact .inr (.inr ⟨which, (List.singleton_inj.mp completed).symm, stopped⟩)

/-- **A loop that has ended accepts nothing.** -/
theorem accepted_of_stopped (listener : Listener) {which : Which} {before later : List Event}
    (stopped : (after listener before).serving which = false) :
    (after listener (before ++ later)).accepted which = (after listener before).accepted which := by
  rw [after_append]
  refine (run_invariant (f := fun e s => ((), step e s))
    (I := fun s => s.serving which = false ∧ s.accepted which = (after listener before).accepted which) ?_
    ⟨stopped, rfl⟩ later).2
  rintro e s ⟨still, same⟩
  have change := step_change e s
  exact ⟨(change.stopped_iff which).mpr (.inl still), (change.accepted_of_stopped still).trans same⟩

end Server

open Server

/-- How the server shuts down in a run of events. -/
structure Orderly (listener : Listener) (events : List Event) : Prop where
  /-- on ctrl-c, or when a loop that has panicked is found ended -/
  begins : (after listener events).stage ≠ .selecting ↔
    .ctrlC ∈ events ∨ ∃ which, List.Sublist [.panic which, .completed which] events
  /-- each loop by a panic, or by the message -/
  stops : ∀ which, (after listener events).serving which = false ↔
    .panic which ∈ events ∨ ∃ before, before ++ [.receive which] <+: events ∧ (after listener before).sent = true
  /-- the message only once the shutdown has begun -/
  sends : (after listener events).sent = true → (after listener events).stage ≠ .selecting
  /-- `run` returns when both loops have ended, and the message was sent -/
  returns : (after listener events).stage = .returned →
    (after listener events).sent = true ∧ ∀ which, (after listener events).serving which = false
  /-- a loop that has ended accepts nothing -/
  silent : ∀ which before later, events = before ++ later → (after listener before).serving which = false →
    (after listener events).accepted which = (after listener before).accepted which
  /-- until `run` has returned, a handler goes on until it ends by itself -/
  handled : (after listener events).stage ≠ .returned → ∀ i c before later, events = before ++ later →
    (after listener before).connections[i]? = some c → .finish i ∉ later →
    (after listener events).connections[i]? = some c

/-- **Every run shuts down in order.** -/
theorem shutdown_orderly (listener : Listener) (events : List Event) : Orderly listener events where
  begins := begun_iff listener events
  stops := stopped_iff listener events
  sends := by
    intro sent selecting
    rw [(consistent listener events).sent, selecting] at sent
    cases sent
  returns := by
    intro returned
    have h := consistent listener events
    refine ⟨by rw [h.sent, returned]; rfl, fun which => ?_⟩
    cases which with
    | proxy => exact h.proxy (by rw [returned]; rfl)
    | admin => exact h.admin (by rw [returned]; rfl)
  silent := by
    rintro which before later rfl stopped
    exact accepted_of_stopped listener stopped
  handled := by
    rintro - i c before later rfl now working
    rw [connection_after listener later now, if_neg working]

/-! ## It ends -/

namespace Server

/-- The events that `run` waits for until it returns. -/
def remaining (s : Server) : Nat :=
  match s.stage with
  | .selecting => 0
  | .sending _ _ => 6
  | .joining false _ => if s.proxyServing then 5 else 4
  | .joining true false => if s.adminServing then 3 else 2
  | .joining true true => 1
  | .returned => 0

/-- The event that it waits for. -/
def awaited (s : Server) : Event :=
  match s.stage with
  | .joining false _ => if s.proxyServing then .receive .proxy else .proceed
  | .joining true false => if s.adminServing then .receive .admin else .proceed
  | _ => .proceed

/-- The loops and the stage are all that `run` looks at. -/
theorem remaining_congr {s s' : Server} (stage : s'.stage = s.stage) (proxy : s'.proxyServing = s.proxyServing)
    (admin : s'.adminServing = s.adminServing) : s'.remaining = s.remaining ∧ s'.awaited = s.awaited := by
  unfold remaining awaited
  rw [stage, proxy, admin]
  exact ⟨rfl, rfl⟩

/-- The end of a loop is awaited, or makes no difference yet. -/
theorem remaining_stop (s : Server) (which : Which) :
    (s.stop which).remaining < s.remaining ∨
      ((s.stop which).remaining = s.remaining ∧ (s.stop which).awaited = s.awaited) := by
  cases which with
  | proxy =>
    cases serving : s.proxyServing with
    | false => exact .inr (remaining_congr rfl serving.symm rfl)
    | true =>
      rcases stage : s.stage with _ | ⟨p, a⟩ | ⟨_ | _, _ | _⟩ | _ <;>
        simp [remaining, awaited, stop, stage, serving]
  | admin =>
    cases serving : s.adminServing with
    | false => exact .inr (remaining_congr rfl rfl serving.symm)
    | true =>
      rcases stage : s.stage with _ | ⟨p, a⟩ | ⟨_ | _, _ | _⟩ | _ <;>
        simp [remaining, awaited, stop, stage, serving]

/-- `run` goes on to a later stage. -/
theorem Advance.remaining_lt {s : Server} {e : Event} {stage : Stage} {sent : Bool} (advance : s.Advance e stage sent)
    (begun : s.stage ≠ .selecting) : ({ s with stage, sent } : Server).remaining < s.remaining := by
  cases advance with
  | interrupted selecting => exact absurd selecting begun
  | found which selecting ended => exact absurd selecting begun
  | sends p a sending =>
    simp only [remaining, sending]
    split
    · contradiction
    · contradiction
    · split <;> decide
    · split <;> decide
    · decide
    · contradiction
  | joinsProxy a joining ended =>
    have four : s.remaining = 4 := by simp [remaining, joining, ended]
    rw [four]
    cases a with
    | false =>
      simp only [remaining]
      split <;> decide
    | true => exact (by decide : 1 < 4)
  | joinsAdmin joining ended => simp [remaining, joining, ended]
  | returns joining => simp [remaining, joining]

/-- Once the shutdown has begun, every event brings it nearer to its end or leaves it where it is. -/
theorem ranked : Ranked (fun e s => ((), step e s)) (fun s => s.stage ≠ .selecting ∧ Consistent s) remaining awaited where
  keeps e s h := ⟨(step_change e s).begun_iff.mpr (.inl h.1), h.2.change (step_change e s)⟩
  lowers s h positive := by
    have sent := h.2.sent
    show (step (awaited s) s).remaining < s.remaining
    rcases stage : s.stage with _ | ⟨p, a⟩ | ⟨_ | _, _ | _⟩ | _ <;> rw [stage] at sent
    · exact absurd stage h.1
    · cases p <;> cases a <;> cases proxy : s.proxyServing <;> cases admin : s.adminServing <;>
        simp [step, proceed, awaited, remaining, stage, proxy, admin]
    · cases proxy : s.proxyServing <;> cases admin : s.adminServing <;>
        simp [step, proceed, stop, serving, Stage.pastSend, awaited, remaining, stage, proxy, admin, sent]
    · cases proxy : s.proxyServing <;>
        simp [step, proceed, stop, serving, Stage.pastSend, awaited, remaining, stage, proxy, sent]
    · cases admin : s.adminServing <;>
        simp [step, proceed, stop, serving, Stage.pastSend, awaited, remaining, stage, admin, sent]
    · simp [step, proceed, awaited, remaining, stage]
    · rw [remaining, stage] at positive
      exact absurd positive (Nat.lt_irrefl 0)
  others e s h := by
    show (step e s).remaining < s.remaining ∨ ((step e s).remaining = s.remaining ∧ (step e s).awaited = s.awaited)
    have change := step_change e s
    generalize step e s = s' at change
    cases change with
    | idle e quiet => exact .inr ⟨rfl, rfl⟩
    | panicked which => exact remaining_stop s which
    | received which serving sent => exact remaining_stop s which
    | accepted which serving => exact .inr (remaining_congr rfl rfl rfl)
    | finished i => exact .inr (remaining_congr rfl rfl rfl)
    | advanced e stage sent advance => exact .inl (advance.remaining_lt h.1)

theorem remaining_le (s : Server) : s.remaining ≤ 6 := by
  unfold remaining
  split
  · exact Nat.zero_le 6
  · exact Nat.le_refl 6
  · split <;> decide
  · split <;> decide
  · decide
  · exact Nat.zero_le 6

theorem returned_of_remaining {s : Server} (begun : s.stage ≠ .selecting) (nothing : s.remaining = 0) :
    s.stage = .returned := by
  rcases stage : s.stage with _ | ⟨p, a⟩ | ⟨_ | _, _ | _⟩ | _
  · exact absurd stage begun
  · simp [remaining, stage] at nothing
  · cases proxy : s.proxyServing <;> simp [remaining, stage, proxy] at nothing
  · cases proxy : s.proxyServing <;> simp [remaining, stage, proxy] at nothing
  · cases admin : s.adminServing <;> simp [remaining, stage, admin] at nothing
  · simp [remaining, stage] at nothing
  · rfl

end Server

/-- A round in which `run` goes on and each loop's `select!` tries its `recv` arm. -/
def FairRound (round : List Event) : Prop :=
  .proceed ∈ round ∧ .receive .proxy ∈ round ∧ .receive .admin ∈ round

instance : DecidablePred FairRound := fun _ => inferInstanceAs (Decidable (_ ∧ _))

/-- **Every shutdown ends.** Once it has begun, `run` has returned after six rounds in which it goes on and both loops
try their `recv` arms, whatever is accepted, served, broken or pressed in between, in any order, and whether or not a
handler ends. (A `select!` may take the other arm whenever both are ready: that each loop tries this one is assumed.) -/
theorem shutdown_ends (listener : Listener) (before : List Event) (rounds : List (List Event))
    (begun : (after listener before).stage ≠ .selecting) (fair : ∀ round ∈ rounds, FairRound round)
    (enough : 6 ≤ rounds.length) : (after listener (before ++ rounds.flatten)).stage = .returned := by
  rw [after_append]
  have inv : (after listener before).stage ≠ .selecting ∧ Consistent (after listener before) :=
    ⟨begun, consistent listener before⟩
  have helped : ∀ round ∈ rounds, ∀ s : Server, s.stage ≠ .selecting ∧ Consistent s → 0 < s.remaining → s.awaited ∈ round := ?_
  · have nothing := ranked.run_rounds inv helped (Nat.le_trans (remaining_le _) enough)
    exact returned_of_remaining (run_invariant ranked.keeps inv _).1 nothing
  · intro round mem s _ _
    obtain ⟨proceeds, proxy, admin⟩ := fair round mem
    unfold awaited
    split
    · split
      · exact proxy
      · exact proceeds
    · split
      · exact admin
      · exact proceeds
    · exact proceeds

/-- Connections are accepted until the loops hear of it, and their handlers never end. -/
theorem shutdown_ends_busy :
    (after .bind ([.accept .proxy, .ctrlC] ++
      (List.replicate 6 [.accept .proxy, .receive .admin, .proceed, .accept .admin, .receive .proxy]).flatten)).stage =
        .returned :=
  shutdown_ends .bind _ _ (by decide) (by decide) (by decide)

end ServiceMesh.Proxy
