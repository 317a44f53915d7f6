import ServiceMesh.Router.Selection

/-!
# Adding and removing routes

A router that is in use is edited route by route. What an edit changes is the answers in which the route edited is
itself the one selected, and no others: that is read off the stable sort (`StableSort.find?_snoc`,
`StableSort.find?_eraseP_of_ne`), which the routes of every reachable router are. Two additions commute unless they
have the same priority, and a removal takes back the addition of a new name.
-/

namespace ServiceMesh

open StableSort Transducer

/-- What edits do to a router and its answers. -/
structure Edited (R : Regexes) (r : Router) : Prop where
  /-- a new route is selected for what it matches, where only routes of lower priority did -/
  added : ∀ (x : Route) (method : HttpMethod) (path : String) (headers : HeaderMap),
    (x.matches R method path headers = true ∧
      ∀ y ∈ r.routes, y.matches R method path headers = true → y.priority < x.priority) →
    (r.addRoute x).route R method path headers = some (.of x path)
  /-- and all other answers stay -/
  addedOther : ∀ (x : Route) (method : HttpMethod) (path : String) (headers : HeaderMap),
    ¬ (x.matches R method path headers = true ∧
      ∀ y ∈ r.routes, y.matches R method path headers = true → y.priority < x.priority) →
    (r.addRoute x).route R method path headers = r.route R method path headers
  /-- a route is removed that has the name, and only the answers change in which it was selected -/
  removed : ∀ (name : String) (z : Route), (r.removeRoute name).1 = some z → z ∈ r.routes ∧ z.name = name ∧
    ∀ (method : HttpMethod) (path : String) (headers : HeaderMap),
      r.route R method path headers ≠ some (.of z path) →
        (r.removeRoute name).2.route R method path headers = r.route R method path headers
  /-- nothing is removed for a name that no route has -/
  absent : ∀ name : String, (r.removeRoute name).1 = none ↔ ∀ y ∈ r.routes, y.name ≠ name
  unchanged : ∀ name : String, (r.removeRoute name).1 = none → (r.removeRoute name).2 = r
  /-- a removal takes back the addition of a new name -/
  restored : ∀ x : Route, (∀ y ∈ r.routes, y.name ≠ x.name) → (r.addRoute x).removeRoute x.name = (some x, r)
  /-- the order of two additions counts only within a priority -/
  commutes : ∀ x y : Route, x.priority ≠ y.priority → (r.addRoute x).addRoute y = (r.addRoute y).addRoute x

namespace Router

theorem removeRoute_route (name : String) (r : Router) : (r.removeRoute name).1 = r.routes.find? (·.name == name) := by
  unfold removeRoute
  split
  · next pos found =>
    obtain ⟨bound, hit, first⟩ := List.findIdx?_eq_some_iff_getElem.mp found
    rw [List.getElem?_eq_getElem bound, eq_comm, List.find?_eq_some_iff_getElem]
    refine ⟨hit, pos, bound, rfl, fun j below => ?_⟩
    simpa using first j below
  · next missing => exact (List.find?_eq_none.mpr fun y mem => by simpa using List.findIdx?_eq_none_iff.mp missing y mem).symm

/-- The router with the first route of a name taken out. -/
theorem removeRoute_eq (name : String) (r : Router) :
    r.removeRoute name = (r.routes.find? (·.name == name), { r with routes := r.routes.eraseP (·.name == name) }) := by
  obtain ⟨routes, defaultUpstream⟩ := removeRoute_routes name r
  ext1
  · exact removeRoute_route name r
  · calc (r.removeRoute name).2 = ⟨(r.removeRoute name).2.routes, (r.removeRoute name).2.defaultUpstream⟩ := rfl
      _ = { r with routes := r.routes.eraseP (·.name == name) } := by rw [routes, defaultUpstream]

/-- An answer is that of the first match. -/
theorem route_congr {R : Regexes} {method : HttpMethod} {path : String} {headers : HeaderMap} {r r' : Router}
    (selected : r'.routes.find? (·.matches R method path headers) = r.routes.find? (·.matches R method path headers))
    (default : r'.defaultUpstream = r.defaultUpstream) :
    r'.route R method path headers = r.route R method path headers := by
  rw [route, route, selected, default]

end Router

section
variable {l : Listing} {r : Router} (h : Sorted l r)

include h

/-- The routes with one more. -/
theorem Sorted.routes_addRoute (x : Route) : IsStableSort Route.priority (l.routes ++ [x]) (r.addRoute x).routes :=
  h.routes.append [x]

theorem Sorted.added (R : Regexes) (x : Route) (method : HttpMethod) (path : String) (headers : HeaderMap)
    (wins : x.matches R method path headers = true ∧
      ∀ y ∈ r.routes, y.matches R method path headers = true → y.priority < x.priority) :
    (r.addRoute x).route R method path headers = some (.of x path) := by
  have first := (h.routes.find?_snoc (h.routes_addRoute x)).1
    ⟨wins.1, fun y mem => wins.2 y (h.routes.mem_iff.mpr mem)⟩
  rw [Router.route, first]

theorem Sorted.addedOther (R : Regexes) (x : Route) (method : HttpMethod) (path : String) (headers : HeaderMap)
    (loses : ¬ (x.matches R method path headers = true ∧
      ∀ y ∈ r.routes, y.matches R method path headers = true → y.priority < x.priority)) :
    (r.addRoute x).route R method path headers = r.route R method path headers := by
  refine Router.route_congr ?_ rfl
  refine (h.routes.find?_snoc (h.routes_addRoute x)).2 fun wins => loses ⟨wins.1, fun y mem => ?_⟩
  exact wins.2 y (h.routes.mem_iff.mp mem)

theorem Sorted.restored (x : Route) (fresh : ∀ y ∈ r.routes, y.name ≠ x.name) :
    (r.addRoute x).removeRoute x.name = (some x, r) := by
  have best : FirstBest Route.priority (·.name == x.name) l.routes x [] := by
    refine ⟨beq_self_eq_true _, fun y mem named => ?_, fun y mem => absurd mem List.not_mem_nil⟩
    exact absurd (beq_iff_eq.mp named) (fresh y (h.routes.mem_iff.mpr mem))
  have more := h.routes_addRoute x
  have back := more.eraseP best
  rw [List.append_nil] at back
  rw [Router.removeRoute_eq, more.find? best, back.unique h.routes]
  rfl

theorem Sorted.commutes (x y : Route) (apart : x.priority ≠ y.priority) :
    (r.addRoute x).addRoute y = (r.addRoute y).addRoute x := by
  have first : IsStableSort Route.priority (l.routes ++ [x] ++ [y]) ((r.addRoute x).addRoute y).routes :=
    (h.routes_addRoute x).append [y]
  have second : IsStableSort Route.priority (l.routes ++ [y] ++ [x]) ((r.addRoute y).addRoute x).routes :=
    (h.routes_addRoute y).append [x]
  have same : ((r.addRoute x).addRoute y).routes = ((r.addRoute y).addRoute x).routes := by
    refine first.unique (second.congr fun k => ?_)
    simp only [List.filter_append]
    by_cases mine : x.priority = k
    · have other : ¬ y.priority = k := fun eq => apart (mine.trans eq.symm)
      simp [mine, other]
    · simp [List.filter_cons, mine]
  calc (r.addRoute x).addRoute y = ⟨((r.addRoute x).addRoute y).routes, r.defaultUpstream⟩ := rfl
    _ = (r.addRoute y).addRoute x := by rw [same]; rfl

end

/-- A removal leaves the answers in which the route was not selected. -/
theorem Router.removed (R : Regexes) (r : Router) {name : String} {z : Route} (found : (r.removeRoute name).1 = some z)
    (method : HttpMethod) (path : String) (headers : HeaderMap)
    (other : r.route R method path headers ≠ some (.of z path)) :
    (r.removeRoute name).2.route R method path headers = r.route R method path headers := by
  rw [removeRoute_route] at found
  rw [removeRoute_eq]
  refine route_congr (find?_eraseP_of_ne ?_) rfl
  intro same
  apply other
  rw [route, same, found]

/-- **Routes are edited one by one**: in every history of a router, adding and removing routes changes the answers in
which these routes are selected, and no others. -/
theorem routes_edited (R : Regexes) (start : RouterBuild) (ops : List RouterOp) : Edited R (routed start ops) where
  added := (sorted_history start ops).added R
  addedOther := (sorted_history start ops).addedOther R
  removed := by
    intro name z found
    have first := found
    rw [Router.removeRoute_route] at first
    have named := List.find?_some first
    refine ⟨List.mem_of_find?_eq_some first, beq_iff_eq.mp named, ?_⟩
    exact fun method path headers => Router.removed R _ found method path headers
  absent := by
    intro name
    rw [Router.removeRoute_route, List.find?_eq_none]
    simp
  unchanged := by
    intro name none
    rw [Router.removeRoute_route] at none
    rw [Router.removeRoute_eq, List.eraseP_of_forall_not fun y mem => List.find?_eq_none.mp none y mem]
  restored := (sorted_history start ops).restored
  commutes := (sorted_history start ops).commutes

end ServiceMesh
