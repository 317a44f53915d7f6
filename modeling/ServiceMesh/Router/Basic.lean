import ServiceMesh.Logic.StableSort
import ServiceMesh.Logic.Transducer
import ServiceMesh.Text

/-!
# The L7 router (`router.rs`)

Matchers, routes and the router that keeps its routes sorted by priority. A header map is the list
of its headers, with the names in lower case: whoever looks a name up may write it as he likes. A
header value is its bytes, and only visible ASCII reads as text.
Compiled regexes come from outside (`Regexes`).
-/

namespace ServiceMesh

/-- What the matchers see of the regex crate: the regex that `get_or_compile_regex` returns for a
pattern (`None` for an invalid one), and what a regex matches. -/
structure Regexes where
  Regex : Type
  getOrCompileRegex : String → Option Regex
  isMatch : Regex → String → Bool

/-- `RoutePriority`, in the order of the discriminants. -/
inductive RoutePriority where
  | Exact
  | Prefix
  | Regex
  | Default
deriving Repr, DecidableEq

def RoutePriority.discriminant : RoutePriority → Nat
  | Exact => 100
  | Prefix => 50
  | Regex => 25
  | Default => 0

theorem RoutePriority.discriminant_injective : Function.Injective discriminant := by
  intro a b eq
  cases a <;> cases b <;> first | rfl | cases eq

/-- The derived `Ord`: variants compare by discriminant. -/
instance : LinearOrder RoutePriority := LinearOrder.lift' RoutePriority.discriminant RoutePriority.discriminant_injective

/-! ## Requests -/

/-- `http::Method`. -/
inductive HttpMethod where
  | GET
  | POST
  | PUT
  | DELETE
  | PATCH
  | HEAD
  | OPTIONS
  | CONNECT
  | TRACE
  | extension (name : String)
deriving Repr, DecidableEq

/-- The bytes of an `http::HeaderValue`. -/
abbrev HeaderValue := List UInt8

/-- `HeaderValue::to_str`: tabs and the visible ASCII characters only. -/
def HeaderValue.toStr (v : HeaderValue) : Option String :=
  if v.all (fun b => b == 9 || (32 ≤ b && b < 127)) then some (String.ofList (v.map fun b => Char.ofNat b.toNat))
  else none

/-- A header name as it is kept and looked up: ASCII letters in lower case. -/
def foldName (name : String) : String := String.ofList (name.toList.map Char.toLower)

/-- `http::HeaderMap`: names, kept in lower case, with their values in the order in which they came. -/
structure HeaderMap where
  entries : List (String × HeaderValue)
  folded : ∀ e ∈ entries, foldName e.1 = e.1

namespace HeaderMap

def new : HeaderMap := { entries := [], folded := fun _ mem => absurd mem List.not_mem_nil }

/-- `HeaderMap::get_all`: the values of a name, however its letters are written. -/
def getAll (headers : HeaderMap) (name : String) : List HeaderValue :=
  headers.entries.filterMap fun e => if e.1 = foldName name then some e.2 else none

/-- `HeaderMap::get`: the first of them. -/
def get (headers : HeaderMap) (name : String) : Option HeaderValue := (headers.getAll name).head?

def containsKey (headers : HeaderMap) (name : String) : Bool := (headers.get name).isSome

end HeaderMap

/-! ## Matchers -/

inductive HeaderMatch where
  | Exact (name value : String)
  | Contains (name value : String)
  | Regex (name pattern : String)
  | Present (name : String)
  | Absent (name : String)
deriving Repr, DecidableEq

def HeaderMatch.matches (R : Regexes) (headers : HeaderMap) : HeaderMatch → Bool
  | Exact name value => (headers.get name).any fun v => v == value.toUTF8.toList
  | Contains name value => ((headers.get name).bind HeaderValue.toStr).any fun v => containsStr v value
  | Regex name pattern =>
    match R.getOrCompileRegex pattern with
    | some regex => ((headers.get name).bind HeaderValue.toStr).any fun v => R.isMatch regex v
    | none => false
  | Present name => headers.containsKey name
  | Absent name => !headers.containsKey name

inductive PathMatch where
  | Exact (path : String)
  | Prefix ( pre : String)
  | Regex (pattern : String)
deriving Repr, DecidableEq

def PathMatch.matches (R : Regexes) (path : String) : PathMatch → Bool
  | Exact expected => path == expected
  | Prefix pre => startsWith path pre
  | Regex pattern =>
    match R.getOrCompileRegex pattern with
    | some regex => R.isMatch regex path
    | none => false

def PathMatch.priority : PathMatch → RoutePriority
  | Exact _ => .Exact
  | Prefix _ => .Prefix
  | Regex _ => .Regex

inductive MethodMatch where
  | Get
  | Post
  | Put
  | Delete
  | Patch
  | Head
  | Options
  | Any
deriving Repr, DecidableEq

def MethodMatch.matches (method : HttpMethod) : MethodMatch → Bool
  | Any => true
  | Get => method == .GET
  | Post => method == .POST
  | Put => method == .PUT
  | Delete => method == .DELETE
  | Patch => method == .PATCH
  | Head => method == .HEAD
  | Options => method == .OPTIONS

/-! ## Routes -/

structure Route where
  name : String
  path : PathMatch
  method : MethodMatch
  headers : List HeaderMatch
  upstream : String
  weight : UInt32
  enabled : Bool
  timeoutMs : Option UInt64
  rewrite : Option String
deriving Repr, DecidableEq

def Route.new (name : String) (path : PathMatch) (upstream : String) : Route :=
  { name, path, method := .Any, headers := [], upstream, weight := 100, enabled := true, timeoutMs := none,
    rewrite := none }

def Route.matches (R : Regexes) (method : HttpMethod) (path : String) (headers : HeaderMap) (r : Route) : Bool :=
  if !r.enabled then false
  else if !r.method.matches method then false
  else if !r.path.matches R path then false
  else r.headers.all fun headerMatch => headerMatch.matches R headers

def Route.priority (r : Route) : RoutePriority := r.path.priority

structure RouteMatch where
  route : Route
  rewrittenPath : Option String
deriving Repr, DecidableEq

/-- The match of a route at a path. -/
def RouteMatch.of (route : Route) (path : String) : RouteMatch :=
  { route
    rewrittenPath := route.rewrite.map fun rewrite =>
      match route.path with
      | .Prefix pre => replacen path pre rewrite
      | _ => rewrite }

/-- The match of the default upstream. -/
def RouteMatch.default (upstream : String) : RouteMatch :=
  { route := .new "default" (.Prefix "/") upstream, rewrittenPath := none }

/-! ## The router -/

structure Router where
  routes : List Route
  defaultUpstream : Option String
deriving Repr, DecidableEq

namespace Router

def new : Router := { routes := [], defaultUpstream := none }

/-- `sort_by_key(Reverse(priority))`, which is stable. -/
def sortRoutes (r : Router) : Router := { r with routes := StableSort.sortDesc Route.priority r.routes }

def withRoutes (routes : List Route) : Router := sortRoutes { routes, defaultUpstream := none }

def withDefaultUpstream (upstream : String) (r : Router) : Router := { r with defaultUpstream := some upstream }

def addRoute (route : Route) (r : Router) : Router := sortRoutes { r with routes := r.routes ++ [route] }

def removeRoute (name : String) (r : Router) : Option Route × Router :=
  match r.routes.findIdx? (·.name == name) with
  | some pos => (r.routes[pos]?, { r with routes := r.routes.eraseIdx pos })
  | none => (none, r)

def route (R : Regexes) (method : HttpMethod) (path : String) (headers : HeaderMap) (r : Router) : Option RouteMatch :=
  match r.routes.find? (·.matches R method path headers) with
  | some route => some (.of route path)
  | none => r.defaultUpstream.map .default

end Router

end ServiceMesh
