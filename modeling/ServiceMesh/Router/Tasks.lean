import ServiceMesh.Router.Basic
import ServiceMesh.Logic.Pool
import ServiceMesh.Logic.Query
import Mathlib.Logic.Function.Basic

/-!
# The router's threads and the regex cache

Routers are shared by all threads, and so is `REGEX_CACHE`. What a thread does is a query: where the source calls
`get_or_compile_regex`, it asks for the regex of a pattern. Such a call takes the read lock to look into the map, and
gives it back before it compiles; a compiled regex goes into the map under the write lock. These are three steps, and
other threads may look, compile and insert between them.

Run without interleaving, the steps are the sequential `get_or_compile_regex` (`solo_run`).
-/

namespace ServiceMesh

open Conc

/-- The regex crate: `Regex::new`, whose error is only for the log, and `is_match`. -/
structure RegexCrate where
  Regex : Type
  new : String → Option Regex
  isMatch : Regex → String → Bool

/-- The crate with no cache in front of it. -/
def RegexCrate.uncached (crate : RegexCrate) : Regexes := ⟨crate.Regex, crate.new, crate.isMatch⟩

/-- `REGEX_CACHE` by the map's `get`. -/
abbrev RegexCache (crate : RegexCrate) := String → Option crate.Regex

/-- `get_or_compile_regex` with nobody else at the cache. -/
def RegexCrate.getOrCompileRegex (crate : RegexCrate) (pattern : String) (cache : RegexCache crate) :
    Option crate.Regex × RegexCache crate :=
  match cache pattern with
  | some regex => (some regex, cache)
  | none =>
    match crate.new pattern with
    | some regex => (some regex, Function.update cache pattern (some regex))
    | none => (none, cache)

/-! ## What a thread does -/

/-- Code that calls `get_or_compile_regex`. -/
abbrev Task (crate : RegexCrate) (α : Type) := Query String (Option crate.Regex) α

section
variable (crate : RegexCrate)

def HeaderMatch.matchesTask (headers : HeaderMap) : HeaderMatch → Task crate Bool
  | Exact name value => return (headers.get name).any fun v => v == value.toUTF8.toList
  | Contains name value => return ((headers.get name).bind HeaderValue.toStr).any fun v => containsStr v value
  | Regex name pattern => do
    match ← Query.get pattern with
    | some regex => return ((headers.get name).bind HeaderValue.toStr).any fun v => crate.isMatch regex v
    | none => return false
  | Present name => return headers.containsKey name
  | Absent name => return !headers.containsKey name

def PathMatch.matchesTask (path : String) : PathMatch → Task crate Bool
  | Exact expected => return path == expected
  | Prefix pre => return startsWith path pre
  | Regex pattern => do
    match ← Query.get pattern with
    | some regex => return crate.isMatch regex path
    | none => return false

def Route.matchesTask (method : HttpMethod) (path : String) (headers : HeaderMap) (r : Route) : Task crate Bool := do
  if !r.enabled then return false
  if !r.method.matches method then return false
  if !(← r.path.matchesTask crate path) then return false
  r.headers.allM fun headerMatch => headerMatch.matchesTask crate headers

def Router.routeTask (method : HttpMethod) (path : String) (headers : HeaderMap) (r : Router) :
    Task crate (Option RouteMatch) := do
  match ← r.routes.findM? fun route => route.matchesTask crate method path headers with
  | some route => return some (.of route path)
  | none => return r.defaultUpstream.map .default

end

section
variable {crate : RegexCrate} (answer : String → Option crate.Regex)

/-! When every pattern gets the answer of a function, the tasks are the functions of the router with that function in
the place of `get_or_compile_regex`. -/

theorem HeaderMatch.eval_matchesTask (headers : HeaderMap) (matcher : HeaderMatch) :
    (matcher.matchesTask crate headers).eval answer = matcher.matches ⟨crate.Regex, answer, crate.isMatch⟩ headers := by
  cases matcher with
  | Regex name pattern =>
    cases told : answer pattern <;>
      simp only [matchesTask, HeaderMatch.matches, Query.eval_bind, Query.eval_get, Query.eval_pure, told]
  | _ => rfl

theorem PathMatch.eval_matchesTask (path : String) (matcher : PathMatch) :
    (matcher.matchesTask crate path).eval answer = matcher.matches ⟨crate.Regex, answer, crate.isMatch⟩ path := by
  cases matcher with
  | Regex pattern =>
    cases told : answer pattern <;>
      simp only [matchesTask, PathMatch.matches, Query.eval_bind, Query.eval_get, Query.eval_pure, told]
  | _ => rfl

theorem Route.eval_matchesTask (method : HttpMethod) (path : String) (headers : HeaderMap) (r : Route) :
    (r.matchesTask crate method path headers).eval answer =
      r.matches ⟨crate.Regex, answer, crate.isMatch⟩ method path headers := by
  simp only [matchesTask, Route.matches, Query.eval_ite, Query.eval_bind, Query.eval_pure, Query.eval_allM,
    PathMatch.eval_matchesTask, HeaderMatch.eval_matchesTask]

theorem Router.eval_routeTask (method : HttpMethod) (path : String) (headers : HeaderMap) (r : Router) :
    (r.routeTask crate method path headers).eval answer =
      r.route ⟨crate.Regex, answer, crate.isMatch⟩ method path headers := by
  simp only [routeTask, Router.route, Query.eval_bind, Query.eval_findM?, Route.eval_matchesTask]
  cases r.routes.find? fun route => route.matches ⟨crate.Regex, answer, crate.isMatch⟩ method path headers <;> rfl

end

namespace RegexCache

/-! ## Threads at the cache -/

/-- What a thread may call. -/
inductive Method where
  | getOrCompileRegex (pattern : String)
  | headerMatches (matcher : HeaderMatch) (headers : HeaderMap)
  | pathMatches (matcher : PathMatch) (path : String)
  | route (router : Router) (method : HttpMethod) (path : String) (headers : HeaderMap)

/-- What a call returns. -/
inductive Answer (crate : RegexCrate) where
  | regex (regex : Option crate.Regex)
  | matched (hit : Bool)
  | routed (routeMatch : Option RouteMatch)

section
variable (crate : RegexCrate)

def Method.task : Method → Task crate (Answer crate)
  | getOrCompileRegex pattern => return .regex (← Query.get pattern)
  | headerMatches matcher headers => return .matched (← matcher.matchesTask crate headers)
  | pathMatches matcher path => return .matched (← matcher.matchesTask crate path)
  | route router method path headers => return .routed (← router.routeTask crate method path headers)

/-- What it returns with no cache: the regex compiled from its own pattern, and what the matchers and the router make of
such regexes. -/
def Method.uncached : Method → Answer crate
  | getOrCompileRegex pattern => .regex (crate.new pattern)
  | headerMatches matcher headers => .matched (matcher.matches crate.uncached headers)
  | pathMatches matcher path => .matched (matcher.matches crate.uncached path)
  | route router method path headers => .routed (router.route crate.uncached method path headers)

theorem Method.eval_task (m : Method) : (m.task crate).eval crate.new = m.uncached crate := by
  cases m with
  | getOrCompileRegex pattern => rfl
  | headerMatches matcher headers =>
    rw [task, Query.eval_bind, HeaderMatch.eval_matchesTask]
    rfl
  | pathMatches matcher path =>
    rw [task, Query.eval_bind, PathMatch.eval_matchesTask]
    rfl
  | route router method path headers =>
    rw [task, Query.eval_bind, Router.eval_routeTask]
    rfl

end

/-- Where a call stands: at code of its own up to the next look into the cache, or past a miss. -/
inductive Pc (crate : RegexCrate) where
  | run (task : Task crate (Answer crate))
  | compile (pattern : String) (go : Option crate.Regex → Task crate (Answer crate))
  | insert (pattern : String) (regex : crate.Regex) (go : Option crate.Regex → Task crate (Answer crate))

variable {crate : RegexCrate}

def Pc.step (cache : RegexCache crate) : Pc crate → RegexCache crate × Status (Pc crate) (Answer crate)
  | run (.ret answer) => (cache, .done answer)
  | run (.ask pattern go) =>
    match cache pattern with
    | some regex => (cache, .running (run (go (some regex))))
    | none => (cache, .running (compile pattern go))
  | compile pattern go =>
    match crate.new pattern with
    | some regex => (cache, .running (insert pattern regex go))
    | none => (cache, .running (run (go none)))
  | insert pattern regex go => (Function.update cache pattern (some regex), .running (run (go (some regex))))

/-- The cache under calls from any number of threads. -/
def shared (crate : RegexCrate) : Object (RegexCache crate) Method (Pc crate) (Answer crate) where
  start m := .run (m.task crate)
  step _ cache k := k.step cache

/-- Cache and calls under way. -/
abbrev Calls (crate : RegexCrate) := Pool (RegexCache crate) (Pc crate) (Answer crate)

/-- The cache when the process starts. -/
def fresh (crate : RegexCrate) : Calls crate := ⟨0, fun _ => none, []⟩

/-- **A call alone** looks, compiles and inserts as the sequential `get_or_compile_regex` does. -/
theorem solo_run (t : Nat) (task : Task crate (Answer crate)) (cache : RegexCache crate) :
    Solo (shared crate) t cache (.run task) (task.serve crate.getOrCompileRegex cache).2
      (task.serve crate.getOrCompileRegex cache).1 := by
  induction task generalizing cache with
  | ret answer => exact .ret rfl
  | ask pattern go ih =>
    rw [Query.serve]
    cases cached : cache pattern with
    | some regex =>
      have hit : (shared crate).step t cache (.run (.ask pattern go)) = (cache, .running (.run (go (some regex)))) := by
        simp only [shared, Pc.step, cached]
      have same : crate.getOrCompileRegex pattern cache = (some regex, cache) := by
        rw [RegexCrate.getOrCompileRegex, cached]
      rw [same]
      exact .next hit (ih _ _)
    | none =>
      have missed : (shared crate).step t cache (.run (.ask pattern go)) = (cache, .running (.compile pattern go)) := by
        simp only [shared, Pc.step, cached]
      refine .next missed ?_
      cases compiled : crate.new pattern with
      | some regex =>
        have valid : (shared crate).step t cache (.compile pattern go) =
            (cache, .running (.insert pattern regex go)) := by
          simp only [shared, Pc.step, compiled]
        have filled : crate.getOrCompileRegex pattern cache =
            (some regex, Function.update cache pattern (some regex)) := by
          simp only [RegexCrate.getOrCompileRegex, cached, compiled]
        rw [filled]
        exact .next valid (.next rfl (ih _ _))
      | none =>
        have invalid : (shared crate).step t cache (.compile pattern go) = (cache, .running (.run (go none))) := by
          simp only [shared, Pc.step, compiled]
        have same : crate.getOrCompileRegex pattern cache = (none, cache) := by
          simp only [RegexCrate.getOrCompileRegex, cached, compiled]
        rw [same]
        exact .next invalid (ih _ _)

end RegexCache

end ServiceMesh
