import ServiceMesh.Router.Basic

/-!
# Which route the router selects

The router sorts after every insertion and cuts a route out of the sorted list on removal. What it
is for is said over a `Listing`: the routes in the order they were inserted. In every history the
router's routes are the stable sort of the listing, so the first match it finds is the earliest
inserted of the highest priority, and a removal takes out the best route of its name.
-/

namespace ServiceMesh

open StableSort Transducer

/-- A change to a router. -/
inductive RouterOp where
  | addRoute (route : Route)
  | removeRoute (name : String)
  | withDefaultUpstream (upstream : String)
deriving Repr, DecidableEq

def Router.apply : RouterOp → Router → Option Route × Router
  | .addRoute route, r => (none, r.addRoute route)
  | .removeRoute name, r => r.removeRoute name
  | .withDefaultUpstream upstream, r => (none, r.withDefaultUpstream upstream)

/-- How a router comes into being. -/
inductive RouterBuild where
  | new
  | withRoutes (routes : List Route)
deriving Repr, DecidableEq

def RouterBuild.router : RouterBuild → Router
  | new => .new
  | withRoutes routes => .withRoutes routes

/-- The routes put into a router, in insertion order, and the default upstream. -/
structure Listing where
  routes : List Route
  defaultUpstream : Option String
deriving Repr, DecidableEq

def RouterBuild.listing : RouterBuild → Listing
  | new => { routes := [], defaultUpstream := none }
  | withRoutes routes => { routes, defaultUpstream := none }

/-- A removal deletes, among the routes of the name, the earliest of the highest priority. -/
def Listing.apply (l : Listing) : RouterOp → Listing
  | .addRoute route => { l with routes := l.routes ++ [route] }
  | .removeRoute name => { l with routes := eraseBest Route.priority (·.name == name) l.routes }
  | .withDefaultUpstream upstream => { l with defaultUpstream := some upstream }

/-- The listing after a history. -/
def listed (start : RouterBuild) (ops : List RouterOp) : Listing := ops.foldl Listing.apply start.listing

/-- The router after a history. -/
def routed (start : RouterBuild) (ops : List RouterOp) : Router := run Router.apply start.router ops

/-! ## The router implements the listing -/

/-- The router holds the listing, sorted. -/
structure Sorted (l : Listing) (r : Router) : Prop where
  routes : IsStableSort Route.priority l.routes r.routes
  defaultUpstream : r.defaultUpstream = l.defaultUpstream

theorem sorted_build (start : RouterBuild) : Sorted start.listing start.router := by
  cases start with
  | new => exact ⟨⟨List.Pairwise.nil, fun _ => rfl⟩, rfl⟩
  | withRoutes routes => exact ⟨isStableSort_sortDesc Route.priority routes, rfl⟩

theorem removeRoute_routes (name : String) (r : Router) :
    (r.removeRoute name).2.routes = r.routes.eraseP (·.name == name) ∧
      (r.removeRoute name).2.defaultUpstream = r.defaultUpstream := by
  rw [List.eraseP_eq_eraseIdx]
  unfold Router.removeRoute
  split
  · next pos found => rw [found]; exact ⟨rfl, rfl⟩
  · next missing => rw [missing]; exact ⟨rfl, rfl⟩

/-- **One change** keeps the router sorted. -/
theorem Sorted.apply {l : Listing} {r : Router} (h : Sorted l r) (op : RouterOp) :
    Sorted (l.apply op) (r.apply op).2 := by
  cases op with
  | addRoute route => exact ⟨h.routes.append [route], h.defaultUpstream⟩
  | withDefaultUpstream upstream => exact ⟨h.routes, rfl⟩
  | removeRoute name =>
    obtain ⟨erased, same⟩ := removeRoute_routes name r
    refine ⟨?_, same.trans h.defaultUpstream⟩
    change IsStableSort Route.priority (eraseBest Route.priority _ l.routes) (r.removeRoute name).2.routes
    rw [erased]
    rcases exists_firstBest Route.priority (fun route : Route => route.name == name) l.routes with
      none | ⟨before, x, after, whole, best⟩
    · rw [eraseBest_of_none none, List.eraseP_of_forall_not fun a mem => by
        simp [none a (h.routes.mem_iff.mp mem)]]
      exact h.routes
    · have sorted := h.routes
      rw [whole] at sorted ⊢
      rw [best.eraseBest_eq]
      exact sorted.eraseP best

/-- Every history keeps the router sorted. -/
theorem sorted_history (start : RouterBuild) (ops : List RouterOp) : Sorted (listed start ops) (routed start ops) := by
  have grow : ∀ (ops : List RouterOp) {l : Listing} {r : Router}, Sorted l r →
      Sorted (ops.foldl Listing.apply l) (run Router.apply r ops) := by
    intro ops
    induction ops with
    | nil => exact fun h => h
    | cons op ops ih => exact fun h => ih (h.apply op)
  exact grow ops (sorted_build start)

/-! ## Selection -/

/-- The scan of a sorted router, told by its listing. -/
theorem Sorted.route {l : Listing} {r : Router} (h : Sorted l r) (R : Regexes) (method : HttpMethod) (path : String)
    (headers : HeaderMap) :
    (∃ before x after, l.routes = before ++ x :: after ∧
      FirstBest Route.priority (Route.matches R method path headers) before x after ∧
      r.route R method path headers = some (.of x path)) ∨
    ((∀ x ∈ l.routes, x.matches R method path headers = false) ∧
      r.route R method path headers = l.defaultUpstream.map .default) := by
  rcases exists_firstBest Route.priority (Route.matches R method path headers) l.routes with
    none | ⟨before, x, after, whole, best⟩
  · refine .inr ⟨none, ?_⟩
    have missed : r.routes.find? (Route.matches R method path headers) = Option.none := by
      rw [List.find?_eq_none]
      intro x mem
      simp [none x (h.routes.mem_iff.mp mem)]
    rw [Router.route, missed, h.defaultUpstream]
  · refine .inl ⟨before, x, after, whole, best, ?_⟩
    have sorted := h.routes
    rw [whole] at sorted
    rw [Router.route, sorted.find? best]

/-- Routes added one by one, from an empty listing. -/
theorem listed_addRoute (routes : List Route) :
    listed .new (routes.map .addRoute) = { routes, defaultUpstream := none } := by
  have grow : ∀ (l : Listing), (routes.map RouterOp.addRoute).foldl Listing.apply l =
      { l with routes := l.routes ++ routes } := by
    induction routes with
    | nil =>
      intro l
      simp
    | cons route routes ih =>
      intro l
      rw [List.map_cons, List.foldl_cons, ih]
      simp [Listing.apply]
  exact grow _

/-- One by one or all at once: the same router. -/
theorem routed_addRoute (routes : List Route) : routed .new (routes.map .addRoute) = .withRoutes routes := by
  have history := sorted_history .new (routes.map .addRoute)
  rw [listed_addRoute] at history
  have same := history.routes.eq_sortDesc
  have none := history.defaultUpstream
  cases r : routed .new (routes.map .addRoute) with
  | mk sorted defaultUpstream =>
    rw [r] at same none
    cases same
    cases none
    rfl

/-- **Router selection over any history.** Let `l` be the listing of the history. The router's routes
are the stable sort of the listed ones, none lost or duplicated, and building at once or one by one
makes no difference. For every request, either some listed route matches and the answer is the earliest
inserted of the highest priority among those, or none matches and the answer is the default upstream;
the answer is `None` exactly when none matches and no default is set. -/
theorem selection_over_history (R : Regexes) (start : RouterBuild) (ops : List RouterOp) :
    let l := listed start ops
    let r := routed start ops
    r.routes = sortDesc Route.priority l.routes ∧ r.routes.Perm l.routes ∧
    (∀ routes, routed .new (routes.map .addRoute) = routed (.withRoutes routes) []) ∧
    ∀ method path headers,
      ((∃ before x after, l.routes = before ++ x :: after ∧
          FirstBest Route.priority (Route.matches R method path headers) before x after ∧
          r.route R method path headers = some (.of x path)) ∨
        ((∀ x ∈ l.routes, x.matches R method path headers = false) ∧
          r.route R method path headers = l.defaultUpstream.map .default)) ∧
      (r.route R method path headers = none ↔
        (∀ x ∈ l.routes, x.matches R method path headers = false) ∧ l.defaultUpstream = none) := by
  intro l r
  have history : Sorted l r := sorted_history start ops
  have sorted := history.routes.eq_sortDesc
  refine ⟨sorted, ?_, fun routes => routed_addRoute routes, ?_⟩
  · rw [sorted]
    exact List.mergeSort_perm _ _
  · intro method path headers
    have selected := history.route R method path headers
    refine ⟨selected, ?_⟩
    rcases selected with ⟨before, x, after, whole, best, found⟩ | ⟨none, default⟩
    · rw [found]
      constructor
      · intro impossible
        cases impossible
      · rintro ⟨none, -⟩
        have hit := none x (whole ▸ List.mem_append_right _ List.mem_cons_self)
        rw [best.holds] at hit
        cases hit
    · rw [default]
      constructor
      · intro empty
        exact ⟨none, Option.map_eq_none_iff.mp empty⟩
      · rintro ⟨-, empty⟩
        rw [empty]
        rfl

end ServiceMesh
