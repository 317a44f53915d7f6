import ServiceMesh.Router.Tasks

/-!
# The regex cache is transparent

Two threads that miss the same pattern both compile it, and the later insertion overwrites the earlier. None of this is
seen: every regex in the map, and every regex on its way into it, is what compiling its own pattern gives (`Sound`,
`Honest`), so what a call still owes is at each of its steps what it owed at the start (`Goes`).
-/

namespace ServiceMesh.RegexCache

open Conc

variable {crate : RegexCrate}

/-- What is cached is what compiling gives. -/
def Sound (cache : RegexCache crate) : Prop :=
  ∀ pattern regex, cache pattern = some regex → crate.new pattern = some regex

theorem Sound.insert {cache : RegexCache crate} (h : Sound cache) {pattern : String} {regex : crate.Regex}
    (compiled : crate.new pattern = some regex) : Sound (Function.update cache pattern (some regex)) := by
  intro other cached found
  by_cases same : other = pattern
  · subst same
    rw [Function.update_self] at found
    rw [compiled, found]
  · rw [Function.update_of_ne same] at found
    exact h other cached found

/-- One call of `get_or_compile_regex` with nobody else at the cache. -/
theorem Sound.getOrCompileRegex (pattern : String) (cache : RegexCache crate) (h : Sound cache) :
    (crate.getOrCompileRegex pattern cache).1 = crate.new pattern ∧ Sound (crate.getOrCompileRegex pattern cache).2 := by
  unfold RegexCrate.getOrCompileRegex
  split
  · next regex found => exact ⟨(h pattern regex found).symm, h⟩
  · split
    · next regex compiled => exact ⟨compiled.symm, h.insert compiled⟩
    · next invalid => exact ⟨invalid.symm, h⟩

/-- What a call about to insert has compiled is of its own pattern. -/
def Honest : Status (Pc crate) (Answer crate) → Prop
  | .running (.insert pattern regex _) => crate.new pattern = some regex
  | _ => True

/-- What a call still has to return. -/
def Pc.value : Pc crate → Answer crate
  | run task => task.eval crate.new
  | compile pattern go => (go (crate.new pattern)).eval crate.new
  | insert _ regex go => (go (some regex)).eval crate.new

/-- The steps it can take before it returns: three for a question. -/
def Pc.rank : Pc crate → Nat
  | run task => 3 * task.questions crate.new
  | compile pattern go => 3 * (go (crate.new pattern)).questions crate.new + 2
  | insert _ regex go => 3 * (go (some regex)).questions crate.new + 1

/-- The call returns this, or has returned it. -/
def Owes (answer : Answer crate) : Status (Pc crate) (Answer crate) → Prop
  | .running k => k.value = answer
  | .done returned => returned = answer

/-- What one step of a call at `k` makes of the cache and of the call. -/
structure Goes (k : Pc crate) (cache : RegexCache crate) (next : Status (Pc crate) (Answer crate)) : Prop where
  sound : Sound cache
  honest : Honest next
  owes : Owes k.value next
  lower : ∀ k', next = .running k' → k'.rank < k.rank

/-- **One step.** -/
theorem Pc.goes {k : Pc crate} {cache : RegexCache crate} (sound : Sound cache) (honest : Honest (.running k)) :
    Goes k (k.step cache).1 (k.step cache).2 := by
  match k with
  | run (.ret answer) => exact ⟨sound, trivial, rfl, fun k' running => by cases running⟩
  | run (.ask pattern go) =>
    cases cached : cache pattern with
    | some regex =>
      have compiled := sound pattern regex cached
      simp only [Pc.step, cached]
      refine ⟨sound, trivial, ?_, ?_⟩
      · simp only [Owes, Pc.value, Query.eval, compiled]
      · rintro _ ⟨⟩
        simp only [Pc.rank, Query.questions, compiled]
        omega
    | none =>
      simp only [Pc.step, cached]
      refine ⟨sound, trivial, rfl, ?_⟩
      rintro _ ⟨⟩
      simp only [Pc.rank, Query.questions]
      omega
  | compile pattern go =>
    cases compiled : crate.new pattern with
    | some regex =>
      simp only [Pc.step, compiled]
      refine ⟨sound, compiled, ?_, ?_⟩
      · simp only [Owes, Pc.value, compiled]
      · rintro _ ⟨⟩
        simp only [Pc.rank, compiled]
        omega
    | none =>
      simp only [Pc.step, compiled]
      refine ⟨sound, trivial, ?_, ?_⟩
      · simp only [Owes, Pc.value, compiled]
      · rintro _ ⟨⟩
        simp only [Pc.rank, compiled]
        omega
  | insert pattern regex go =>
    refine ⟨sound.insert honest, trivial, rfl, ?_⟩
    rintro _ ⟨⟩
    simp only [Pc.rank]
    omega

/-- In every interleaving the cache is sound, and the calls about to insert are honest. -/
theorem outline (crate : RegexCrate) :
    Outline (shared crate) ⟨fun _ => True, fun _ _ _ => True⟩ (fun _ cache => Sound cache)
      (fun _ _ _ st => Honest st) where
  start _ _ _ _ _ _ := trivial
  own _ _ _ _ _ sound honest := ⟨(Pc.goes sound honest).sound, (Pc.goes sound honest).honest⟩
  other _ _ _ _ _ _ _ _ _ _ honest := honest
  tick _ _ _ sound := sound
  tickLoc _ _ _ _ _ _ honest := honest

theorem holds_run (labels : List (Label Method)) :
    Holds (fun _ cache => Sound cache) (fun _ _ _ st => Honest st) ((shared crate).run (fresh crate) labels) := by
  refine (outline crate).run (.of_no_calls ?_) (Object.along_calls fun _ _ => trivial)
  intro pattern regex cached
  cases cached

/-- The call will return this, and what it is about to insert is of its own pattern. -/
structure OnCourse (answer : Answer crate) (st : Status (Pc crate) (Answer crate)) : Prop where
  honest : Honest st
  owes : Owes answer st

/-- A call just made. -/
theorem onCourse_start (m : Method) : OnCourse (m.uncached crate) (.running ((shared crate).start m)) :=
  ⟨trivial, m.eval_task crate⟩

theorem OnCourse.step {answer : Answer crate} {k : Pc crate} {cache : RegexCache crate}
    (h : OnCourse answer (.running k)) (sound : Sound cache) (t : Nat) :
    OnCourse answer ((shared crate).step t cache k).2 ∧
      ∀ k', ((shared crate).step t cache k).2 = .running k' → k'.rank < k.rank := by
  have goes := Pc.goes sound h.honest
  have value : k.value = answer := h.owes
  exact ⟨⟨goes.honest, value ▸ goes.owes⟩, goes.lower⟩

section
variable {c : Calls crate} {i : Nat} {k : Pc crate} {answer : Answer crate}
  (holds : Holds (fun _ cache => Sound cache) (fun _ _ _ st => Honest st) c)
  (now : c.calls[i]? = some (.running k)) (onCourse : OnCourse answer (.running k)) (labels : List (Label Method))

include holds now onCourse

/-- Whatever the others do, a call stays on its course. -/
theorem onCourse_run : ∃ st, ((shared crate).run c labels).calls[i]? = some st ∧ OnCourse answer st :=
  (outline crate).run_call (Q := OnCourse answer) (fun t _ _ _ sound still => (still.step sound t).1) holds
    ⟨_, now, onCourse⟩ (Object.along_calls fun _ _ => trivial)

/-- And it returns, once it has been given its steps. -/
theorem returns_run (enough : k.rank < labels.countP (Label.isStep i)) :
    ((shared crate).run c labels).calls[i]? = some (.done answer) := by
  obtain ⟨returned, done⟩ := (outline crate).ends (OnCourse answer) Pc.rank
    (fun t _ _ _ sound still => still.step sound t) holds now onCourse (Object.along_calls fun _ _ => trivial) enough
  obtain ⟨st, at_i, onCourse'⟩ := onCourse_run holds now onCourse labels
  rw [done] at at_i
  cases at_i
  rw [done, show returned = answer from onCourse'.owes]

end

/-- **The cache is transparent.** Let any threads make any calls and take any steps, before and after one call is made.
In the state in which it is made, the call by itself returns what it returns with no cache. Whatever the others do after
that, what it returns is the same; and it returns once it has been given its steps, three for each regex it asks for and
one to return. -/
theorem regex_cache_transparent (crate : RegexCrate) (before after : List (Label Method)) (m : Method) :
    let c := (shared crate).run (fresh crate) before
    let c' := (shared crate).run (fresh crate) (before ++ .call m :: after)
    ((m.task crate).serve crate.getOrCompileRegex c.shared).1 = m.uncached crate ∧
    (∀ answer, c'.calls[c.calls.length]? = some (.done answer) → answer = m.uncached crate) ∧
    (3 * (m.task crate).questions crate.new < after.countP (Label.isStep c.calls.length) →
      c'.calls[c.calls.length]? = some (.done (m.uncached crate))) := by
  intro c c'
  have reached : Holds _ _ c := holds_run before
  have made : Holds _ _ ((shared crate).exec c (.call m)) := (outline crate).exec reached (l := .call m) trivial
  have called : c' = (shared crate).run ((shared crate).exec c (.call m)) after := by
    rw [← Object.run_cons, ← Object.run_append]
  have now := Object.status_called (shared crate) c m
  refine ⟨?_, ?_, ?_⟩
  · have alone := Query.serve_eq_eval Sound.getOrCompileRegex (m.task crate) reached.1
    exact alone.1.trans (m.eval_task crate)
  · intro answer returned
    obtain ⟨st, at_call, onCourse⟩ := onCourse_run made now (onCourse_start m) after
    rw [← called, returned] at at_call
    cases at_call
    exact onCourse.owes
  · intro enough
    rw [called]
    exact returns_run made now (onCourse_start m) after enough

end ServiceMesh.RegexCache
