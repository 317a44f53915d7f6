import ServiceMesh.Logic.Transducer

/-!
# Shutting down (`listener.rs`, `admin_listener.rs`, `main.rs`)

The two serve loops, the tasks they spawn and `run`, one event at a time. A loop accepts a connection and spawns
a handler for it with `tokio::spawn`, dropping the handle; it ends when it receives the shutdown message. `run`
waits for ctrl-c or for one of the loops to end, sends the message, joins the loops and returns. Nobody joins the
handlers: `run` may return while they are at work (`cut_off`), and does so exactly in the runs in which one of them has
not finished by then (`graceful_iff_finished`).

What an event does to the server is said once (`Change`, `step_change`); what holds of every run is read off that.
-/

namespace ServiceMesh.Proxy

/-- `protocol::HttpProtocol`. -/
inductive HttpProtocol where
  | Http1
  | Http2
  | Auto
deriving Repr, DecidableEq

/-- The listener's fields that `serve` reads: whether `tls_acceptor` is there, and `default_protocol`. -/
structure Listener where
  tlsAcceptor : Bool
  defaultProtocol : HttpProtocol
deriving Repr, DecidableEq

/-- `Listener::bind`. -/
def Listener.bind : Listener := { tlsAcceptor := false, defaultProtocol := .Http1 }

/-- What a spawned task runs. -/
inductive Handler where
  | handleTlsConnection
  | handleH2cConnection
  | handleHttp1Connection
  | handleAdminConnection
deriving Repr, DecidableEq

/-- The two listeners of `run`. -/
inductive Which where
  | proxy
  | admin
deriving Repr, DecidableEq

/-- An accepted connection; `handling` until its task ends. -/
structure Connection where
  listener : Which
  handler : Handler
  handling : Bool
deriving Repr, DecidableEq

/-- Where `run` stands: at its `select!`, before the send, between the joins (the flags are `proxy_finished` and
`admin_finished`, set also by the join itself), or back in `main`, whose end drops the runtime and every task in it. -/
inductive Stage where
  | selecting
  | sending (proxyFinished adminFinished : Bool)
  | joining (proxyFinished adminFinished : Bool)
  | returned
deriving Repr, DecidableEq

structure Server where
  listener : Listener
  stage : Stage
  /-- the message is in the channel, for each loop to receive -/
  sent : Bool
  proxyServing : Bool
  adminServing : Bool
  connections : List Connection
deriving Repr, DecidableEq

/-- What can happen next. A loop's `select!` takes any arm that is ready. -/
inductive Event where
  | accept (which : Which)
  | acceptError (which : Which)
  | receive (which : Which)
  /-- the task of a loop panics, in a build that unwinds: `run` handles the join error -/
  | panic (which : Which)
  /-- a handler ends, with its connection served or broken -/
  | finish (i : Nat)
  | ctrlC
  /-- `run`'s `select!` finds the task of a loop ended -/
  | completed (which : Which)
  /-- `run` goes on: the send, a join that is ready, the return -/
  | proceed
deriving Repr, DecidableEq

namespace Server

/-- Both loops are spawned. -/
def start (listener : Listener) : Server :=
  { listener, stage := .selecting, sent := false, proxyServing := true, adminServing := true, connections := [] }

def serving (s : Server) : Which → Bool
  | .proxy => s.proxyServing
  | .admin => s.adminServing

def stop (s : Server) : Which → Server
  | .proxy => { s with proxyServing := false }
  | .admin => { s with adminServing := false }

/-- The handler of the spawned task. -/
def handler (s : Server) : Which → Handler
  | .proxy =>
    if s.listener.tlsAcceptor then .handleTlsConnection
    else
      match s.listener.defaultProtocol with
      | .Http2 => .handleH2cConnection
      | _ => .handleHttp1Connection
  | .admin => .handleAdminConnection

def proceed (s : Server) : Server :=
  match s.stage with
  | .selecting => s
  | .sending proxyFinished adminFinished => { s with sent := true, stage := .joining proxyFinished adminFinished }
  | .joining false adminFinished => if s.proxyServing then s else { s with stage := .joining true adminFinished }
  | .joining true false => if s.adminServing then s else { s with stage := .joining true true }
  | .joining true true => { s with stage := .returned }
  | .returned => s

def step (e : Event) (s : Server) : Server :=
  match e with
  | .accept which =>
    if s.serving which then { s with connections := s.connections ++ [⟨which, s.handler which, true⟩] } else s
  | .acceptError _ => s
  | .receive which => if s.serving which && s.sent then s.stop which else s
  | .panic which => s.stop which
  | .finish i => { s with connections := s.connections.modify i ({ · with handling := false }) }
  | .ctrlC =>
    match s.stage with
    | .selecting => { s with stage := .sending false false }
    | _ => s
  | .completed which =>
    match s.stage with
    | .selecting =>
      if s.serving which then s else { s with stage := .sending (which = .proxy) (which = .admin) }
    | _ => s
  | .proceed => s.proceed

/-- The server after a run of events. -/
def after (listener : Listener) (events : List Event) : Server :=
  Transducer.run (fun e s => ((), step e s)) (start listener) events

/-- The handlers of the proxy's connections have ended. -/
def Drained (s : Server) : Prop := ∀ c ∈ s.connections, c.listener = .proxy → c.handling = false

instance (s : Server) : Decidable (Drained s) :=
  inferInstanceAs (Decidable (∀ c ∈ s.connections, c.listener = .proxy → c.handling = false))

end Server

open Server

/-- In every state of the run in which `run` has returned, no connection of the listener is being handled. -/
def Graceful (listener : Listener) (events : List Event) : Prop :=
  ∀ before later, events = before ++ later → (after listener before).stage = .returned → (after listener before).Drained

/-- Every connection that the listener accepts in the run is served: its handler finishes later on. -/
def Finished (listener : Listener) (events : List Event) : Prop :=
  ∀ before later, events = before ++ .accept .proxy :: later → (after listener before).serving .proxy = true →
    .finish (after listener before).connections.length ∈ later

/-- Whenever `run` is to return, having joined both loops, every connection that the listener has accepted is served. -/
def FinishedAtReturn (listener : Listener) (events : List Event) : Prop :=
  ∀ before later, events = before ++ .proceed :: later → (after listener before).stage = .joining true true →
    Finished listener before

/-- A connection is accepted, ctrl-c is pressed, the message is sent and received, both loops are joined. -/
def shutdownUnderWay : List Event :=
  [.accept .proxy, .ctrlC, .proceed, .receive .proxy, .receive .admin, .proceed, .proceed, .proceed]

/-- `run` has returned, and the connection is still being handled. -/
theorem cut_off : ¬ Graceful Listener.bind shutdownUnderWay := by
  intro law
  exact absurd (law shutdownUnderWay [] (by simp) (by decide)) (by decide)

/-! ## What each event can do -/

namespace Server

/-- The event finds what it needs. -/
def Ready (s : Server) : Event → Prop
  | .accept which => s.serving which = true
  | .acceptError _ => False
  | .receive which => s.serving which = true ∧ s.sent = true
  | .panic _ => True
  | .finish _ => True
  | .ctrlC => s.stage = .selecting
  | .completed which => s.stage = .selecting ∧ s.serving which = false
  | .proceed => s.proceed ≠ s

/-- How `run` goes on: its next stage, and whether the message is sent by then. -/
inductive Advance (s : Server) : Event → Stage → Bool → Prop where
  | interrupted (selecting : s.stage = .selecting) : Advance s .ctrlC (.sending false false) s.sent
  | found (which : Which) (selecting : s.stage = .selecting) (ended : s.serving which = false) :
      Advance s (.completed which) (.sending (which = .proxy) (which = .admin)) s.sent
  | sends (p a : Bool) (sending : s.stage = .sending p a) : Advance s .proceed (.joining p a) true
  | joinsProxy (a : Bool) (joining : s.stage = .joining false a) (ended : s.proxyServing = false) :
      Advance s .proceed (.joining true a) s.sent
  | joinsAdmin (joining : s.stage = .joining true false) (ended : s.adminServing = false) :
      Advance s .proceed (.joining true true) s.sent
  | returns (joining : s.stage = .joining true true) : Advance s .proceed .returned s.sent

/-- What an event changes: a loop ends, or accepts while it serves; a handler finishes; or `run` goes on. -/
inductive Change (s : Server) : Event → Server → Prop where
  | idle (e : Event) (quiet : ¬ s.Ready e) : Change s e s
  | panicked (which : Which) : Change s (.panic which) (s.stop which)
  | received (which : Which) (serving : s.serving which = true) (sent : s.sent = true) :
      Change s (.receive which) (s.stop which)
  | accepted (which : Which) (serving : s.serving which = true) :
      Change s (.accept which) { s with connections := s.connections ++ [⟨which, s.handler which, true⟩] }
  | finished (i : Nat) :
      Change s (.finish i) { s with connections := s.connections.modify i ({ · with handling := false }) }
  | advanced (e : Event) (stage : Stage) (sent : Bool) (advance : s.Advance e stage sent) :
      Change s e { s with stage, sent }

theorem proceed_change (s : Server) : Change s .proceed s.proceed := by
  by_cases still : s.proceed = s
  · rw [still]
    exact .idle .proceed fun ready => ready still
  · simp only [proceed] at still ⊢
    split at still
    · exact absurd rfl still
    · next p a sending => exact .advanced .proceed (.joining p a) true (.sends p a sending)
    · next a joining =>
      split at still
      · exact absurd rfl still
      · next ended =>
        rw [if_neg ended]
        exact .advanced .proceed (.joining true a) s.sent (.joinsProxy a joining (Bool.eq_false_iff.mpr ended))
    · next joining =>
      split at still
      · exact absurd rfl still
      · next ended =>
        rw [if_neg ended]
        exact .advanced .proceed (.joining true true) s.sent (.joinsAdmin joining (Bool.eq_false_iff.mpr ended))
    · next joining => exact .advanced .proceed .returned s.sent (.returns joining)
    · exact absurd rfl still

/-- **One event**, in full. -/
theorem step_change (e : Event) (s : Server) : Change s e (step e s) := by
  cases e with
  | accept which =>
    simp only [step]
    split
    · next serving => exact .accepted which serving
    · next ended => exact .idle (.accept which) ended
  | acceptError which => exact .idle (.acceptError which) id
  | receive which =>
    simp only [step]
    split
    · next ready =>
      obtain ⟨serving, sent⟩ := Bool.and_eq_true_iff.mp ready
      exact .received which serving sent
    · next deaf => exact .idle (.receive which) fun ready => deaf (Bool.and_eq_true_iff.mpr ready)
  | panic which => exact .panicked which
  | finish i => exact .finished i
  | ctrlC =>
    simp only [step]
    split
    · next selecting => exact .advanced .ctrlC (.sending false false) s.sent (.interrupted selecting)
    · next busy => exact .idle .ctrlC busy
  | completed which =>
    simp only [step]
    split
    · next selecting =>
      split
      · next serving =>
        refine .idle (.completed which) ?_
        rintro ⟨-, ended⟩
        exact Bool.eq_false_iff.mp ended serving
      · next ended =>
        exact .advanced (.completed which) (.sending (which = .proxy) (which = .admin)) s.sent
          (.found which selecting (Bool.eq_false_iff.mpr ended))
    · next busy => exact .idle (.completed which) fun ready => busy ready.1
  | proceed => exact s.proceed_change

theorem after_snoc (listener : Listener) (events : List Event) (e : Event) :
    after listener (events ++ [e]) = step e (after listener events) := by
  simp [after]

theorem after_append (listener : Listener) (before later : List Event) :
    after listener (before ++ later) = Transducer.run (fun e s => ((), step e s)) (after listener before) later := by
  simp [after]

end Server

/-! ## Where `run` stands -/

namespace Stage

/-- `run` has found the proxy's loop ended. -/
def proxyJoined : Stage → Bool
  | selecting => false
  | sending proxyFinished _ => proxyFinished
  | joining proxyFinished _ => proxyFinished
  | returned => true

/-- `run` has found the admin's loop ended. -/
def adminJoined : Stage → Bool
  | selecting => false
  | sending _ adminFinished => adminFinished
  | joining _ adminFinished => adminFinished
  | returned => true

/-- `run` is past its send. -/
def pastSend : Stage → Bool
  | selecting => false
  | sending _ _ => false
  | joining _ _ => true
  | returned => true

end Stage

namespace Server

/-- What `run` takes for ended has ended, and the message is there from the send on. -/
structure Consistent (s : Server) : Prop where
  proxy : s.stage.proxyJoined = true → s.proxyServing = false
  admin : s.stage.adminJoined = true → s.adminServing = false
  sent : s.sent = s.stage.pastSend

variable {s s' : Server} {e : Event}

theorem Consistent.stop (h : Consistent s) (which : Which) : Consistent (s.stop which) := by
  cases which with
  | proxy => exact ⟨fun _ => rfl, h.admin, h.sent⟩
  | admin => exact ⟨h.proxy, fun _ => rfl, h.sent⟩

/-- `run` goes past a join only when the loop has ended. -/
theorem Consistent.advance (h : Consistent s) {stage : Stage} {sent : Bool} (advance : s.Advance e stage sent) :
    Consistent { s with stage, sent } := by
  have proxy := h.proxy
  have admin := h.admin
  have before := h.sent
  cases advance with
  | interrupted selecting =>
    rw [selecting] at before
    exact ⟨(fun impossible => by cases impossible), (fun impossible => by cases impossible), before⟩
  | found which selecting ended =>
    rw [selecting] at before
    cases which with
    | proxy => exact ⟨fun _ => ended, (fun impossible => by cases impossible), before⟩
    | admin => exact ⟨(fun impossible => by cases impossible), fun _ => ended, before⟩
  | sends p a sending =>
    rw [sending] at proxy admin
    exact ⟨proxy, admin, rfl⟩
  | joinsProxy a joining ended =>
    rw [joining] at admin before
    exact ⟨fun _ => ended, admin, before⟩
  | joinsAdmin joining ended =>
    rw [joining] at proxy before
    exact ⟨proxy, fun _ => ended, before⟩
  | returns joining =>
    rw [joining] at proxy admin before
    exact ⟨proxy, admin, before⟩

theorem Consistent.change (h : Consistent s) (change : Change s e s') : Consistent s' := by
  cases change with
  | idle e quiet => exact h
  | panicked which => exact h.stop which
  | received which serving sent => exact h.stop which
  | accepted which serving => exact ⟨h.proxy, h.admin, h.sent⟩
  | finished i => exact ⟨h.proxy, h.admin, h.sent⟩
  | advanced e stage sent advance => exact h.advance advance

theorem consistent (listener : Listener) (events : List Event) : Consistent (after listener events) :=
  Transducer.run_invariant (f := fun e s => ((), step e s)) (I := Consistent) (fun e s h => h.change (step_change e s))
    ⟨(fun impossible => by cases impossible), (fun impossible => by cases impossible), rfl⟩ events

/-! ## The connections -/

/-- A connection stays in its place, and only its own event ends its handling. -/
theorem Change.connection (change : Change s e s') {i : Nat} {c : Connection} (now : s.connections[i]? = some c) :
    s'.connections[i]? = some (if e = .finish i then { c with handling := false } else c) := by
  cases change with
  | idle e quiet =>
    have other : e ≠ .finish i := by
      rintro rfl
      exact quiet trivial
    rw [if_neg other, now]
  | panicked which => cases which <;> exact now
  | received which serving sent => cases which <;> exact now
  | accepted which serving => exact (List.getElem?_append_left (List.getElem?_eq_some_iff.mp now).1).trans now
  | finished j =>
    simp only [List.getElem?_modify, now, Event.finish.injEq]
    split <;> rfl
  | advanced e stage sent advance => cases advance <;> exact now

/-- No connection is new but one that a serving loop accepts. -/
theorem Change.connections_length (change : Change s e s') :
    s'.connections.length = s.connections.length ∨
      ∃ which, e = .accept which ∧ s.serving which = true ∧
        s'.connections = s.connections ++ [⟨which, s.handler which, true⟩] := by
  cases change with
  | idle e quiet => exact .inl rfl
  | panicked which => cases which <;> exact .inl rfl
  | received which serving sent => cases which <;> exact .inl rfl
  | accepted which serving => exact .inr ⟨which, rfl, serving, rfl⟩
  | finished i => exact .inl (List.length_modify _ _ _)
  | advanced e stage sent advance => exact .inl rfl

theorem connection_after (listener : Listener) {i : Nat} {c : Connection} {before : List Event} (later : List Event)
    (now : (after listener before).connections[i]? = some c) :
    (after listener (before ++ later)).connections[i]? =
      some (if .finish i ∈ later then { c with handling := false } else c) := by
  induction later using List.reverseRecOn with
  | nil => simpa using now
  | append_singleton later e ih =>
    rw [← List.append_assoc, after_snoc, (step_change e _).connection ih]
    by_cases ends : e = .finish i
    · subst ends
      by_cases earlier : .finish i ∈ later <;> simp [earlier]
    · by_cases earlier : .finish i ∈ later <;> simp [ends, earlier, Ne.symm ends]

/-- **A connection from its acceptance on**: it is handled until its own event. -/
theorem connection_accepted (listener : Listener) {which : Which} {before : List Event} (later : List Event)
    (serving : (after listener before).serving which = true) :
    (after listener (before ++ .accept which :: later)).connections[(after listener before).connections.length]? =
      some ⟨which, (after listener before).handler which,
        decide (.finish (after listener before).connections.length ∉ later)⟩ := by
  have now : (after listener (before ++ [.accept which])).connections[(after listener before).connections.length]? =
      some ⟨which, (after listener before).handler which, true⟩ := by
    rw [after_snoc, step, if_pos serving]
    exact List.getElem?_concat_length
  rw [List.append_cons, connection_after listener later now]
  by_cases ends : .finish (after listener before).connections.length ∈ later <;> simp [ends]

/-- Every connection was accepted, by a loop that was serving. -/
theorem exists_accepted (listener : Listener) {i : Nat} {c : Connection} {events : List Event}
    (present : (after listener events).connections[i]? = some c) :
    ∃ which before later, events = before ++ .accept which :: later ∧ (after listener before).serving which = true ∧
      i = (after listener before).connections.length := by
  induction events using List.reverseRecOn generalizing c with
  | nil => cases present
  | append_singleton events e ih =>
    rw [after_snoc] at present
    have inside := (List.getElem?_eq_some_iff.mp present).1
    by_cases old : i < (after listener events).connections.length
    · obtain ⟨which, before, later, split, serving, place⟩ := ih (List.getElem?_eq_getElem old)
      exact ⟨which, before, later ++ [e], by simp [split], serving, place⟩
    · rcases (step_change e (after listener events)).connections_length with same | ⟨which, accepts, serving, added⟩
      · exact absurd (same ▸ inside) old
      · rw [added, List.length_append, List.length_singleton] at inside
        exact ⟨which, events, [], by rw [accepts], serving, by omega⟩

/-- The handlers have ended when every accepted connection has had its event. -/
theorem drained_iff (listener : Listener) (events : List Event) :
    (after listener events).Drained ↔ Finished listener events := by
  constructor
  · rintro drained before later rfl serving
    have last := connection_accepted listener later serving
    have ended := drained _ (List.mem_of_getElem? last) rfl
    simpa using ended
  · intro finished c present proxy
    obtain ⟨i, at_i⟩ := List.mem_iff_getElem?.mp present
    obtain ⟨which, before, later, rfl, serving, rfl⟩ := exists_accepted listener at_i
    have last := connection_accepted listener later serving
    rw [last] at at_i
    cases at_i
    cases proxy
    simpa using finished before later rfl serving

/-! ## The return -/

/-- `run` has returned already, or returns now, from the state in which it has joined both loops. -/
theorem Change.returned (change : Change s e s') (returned : s'.stage = .returned) :
    s.stage = .returned ∨ (e = .proceed ∧ s.stage = .joining true true) := by
  cases change with
  | idle e quiet => exact .inl returned
  | panicked which => cases which <;> exact .inl returned
  | received which serving sent => cases which <;> exact .inl returned
  | accepted which serving => exact .inl returned
  | finished i => exact .inl returned
  | advanced e stage sent advance =>
    cases returned
    cases advance with
    | returns joining => exact .inr ⟨rfl, joining⟩

/-- Where the return stands in the run. -/
theorem exists_return (listener : Listener) {events : List Event} (returned : (after listener events).stage = .returned) :
    ∃ before later, events = before ++ .proceed :: later ∧ (after listener before).stage = .joining true true := by
  induction events using List.reverseRecOn with
  | nil => cases returned
  | append_singleton events e ih =>
    rw [after_snoc] at returned
    rcases (step_change e (after listener events)).returned returned with already | ⟨rfl, joined⟩
    · obtain ⟨before, later, split, joined⟩ := ih already
      exact ⟨before, later ++ [e], by simp [split], joined⟩
    · exact ⟨events, [], rfl, joined⟩

theorem serving_stop (s : Server) (which which' : Which) :
    (s.stop which).serving which' = false ↔ s.serving which' = false ∨ which = which' := by
  cases which <;> cases which' <;> simp [stop, serving]

/-- A loop ends by a panic, or by the message. -/
theorem Change.stopped_iff (change : Change s e s') (which : Which) :
    s'.serving which = false ↔
      s.serving which = false ∨ e = .panic which ∨ (e = .receive which ∧ s.sent = true) := by
  cases change with
  | idle e quiet =>
    constructor
    · exact .inl
    · rintro (stopped | rfl | ⟨rfl, sent⟩)
      · exact stopped
      · exact absurd trivial quiet
      · exact Bool.eq_false_iff.mpr fun serving => quiet ⟨serving, sent⟩
  | panicked w =>
    rw [serving_stop]
    simp
  | received w serving sent =>
    rw [serving_stop]
    simp [sent]
  | accepted w serving => cases which <;> simp [Server.serving]
  | finished i => cases which <;> simp [Server.serving]
  | advanced e stage sent advance =>
    have other : e ≠ .panic which ∧ e ≠ .receive which := by cases advance <;> simp
    cases which <;> simp [Server.serving, other]

/-- **A loop that has ended stays so.** -/
theorem stopped_append (listener : Listener) {which : Which} {before : List Event} (later : List Event)
    (stopped : (after listener before).serving which = false) :
    (after listener (before ++ later)).serving which = false := by
  rw [after_append]
  exact Transducer.run_invariant (f := fun e s => ((), step e s)) (I := fun s => s.serving which = false)
    (fun e s still => ((step_change e s).stopped_iff which).mpr (.inl still)) stopped later

end Server

/-! ## Runs -/

/-- **Shutdown, exactly.** In every run of events, no connection of the listener is being handled in any state after
`run` has returned, if and only if each has finished when `run` takes its last step: nothing waits for the handlers. -/
theorem graceful_iff_finished (listener : Listener) (events : List Event) :
    Graceful listener events ↔ FinishedAtReturn listener events := by
  constructor
  · intro graceful before later split joined
    have last : after listener (before ++ [.proceed]) = { after listener before with stage := .returned } := by
      rw [after_snoc]
      simp only [step, proceed, joined]
    have drained := graceful (before ++ [.proceed]) later (by simp [split]) (by rw [last])
    rw [last] at drained
    exact (drained_iff listener before).mp drained
  · intro finished events' rest split returned
    obtain ⟨before, later, rfl, joined⟩ := exists_return listener returned
    refine (drained_iff listener _).mpr ?_
    intro earlier between accepts serving
    rcases List.append_eq_append_iff.mp accepts with ⟨tail, rfl, ends⟩ | ⟨tail, rfl, ends⟩
    · -- accepted after the return: the loop had ended
      have ended : (after listener before).serving .proxy = false :=
        (consistent listener before).proxy (by rw [joined]; rfl)
      rw [stopped_append listener tail ended] at serving
      cases serving
    · cases tail with
      | nil => cases ends
      | cons e tail =>
        obtain ⟨rfl, rfl⟩ := List.cons.inj ends
        have served := finished _ _ (by rw [split, List.append_assoc, List.cons_append]) joined earlier tail rfl serving
        exact List.mem_append_left _ served

end ServiceMesh.Proxy
