import ServiceMesh.Router.Basic

/-!
# The rewrite of a prefix route

A prefix route matches with `starts_with`, and `route` rewrites with a search for the prefix in the whole path. That the
search stops at the front is the argument: the front is an occurrence, and nothing is left of it
(`replacen_append`). So what the search finds elsewhere in the path, of a prefix that comes again or overlaps itself,
stays as it is (`rewrite_replaces_prefix`).
-/

namespace ServiceMesh

/-- A route that the router selects among its own matches the request, and the answer is its match. -/
theorem Router.route_cases {R : Regexes} {method : HttpMethod} {path : String} {headers : HeaderMap} {r : Router}
    {m : RouteMatch} (selected : r.route R method path headers = some m) :
    (∃ route ∈ r.routes, route.matches R method path headers = true ∧ m = .of route path) ∨
      ∃ upstream, r.defaultUpstream = some upstream ∧ m = .default upstream := by
  unfold Router.route at selected
  split at selected
  · next route found =>
    exact .inl ⟨route, List.mem_of_find?_eq_some found, List.find?_some found, (Option.some.inj selected).symm⟩
  · obtain ⟨upstream, set, eq⟩ := Option.map_eq_some_iff.mp selected
    exact .inr ⟨upstream, set, eq.symm⟩

/-- What matches a request matches its path. -/
theorem Route.path_matches {R : Regexes} {method : HttpMethod} {path : String} {headers : HeaderMap} {route : Route}
    (h : route.matches R method path headers = true) : route.path.matches R path = true := by
  cases hit : route.path.matches R path with
  | true => rfl
  | false =>
    have missed : route.matches R method path headers = false := by simp [Route.matches, hit]
    rw [missed] at h
    cases h

/-- The match of a prefix route at a path that starts with the prefix. -/
theorem RouteMatch.of_prefix {route : Route} { pre rewrite rest : String} (byPrefix : route.path = .Prefix pre)
    (rewrites : route.rewrite = some rewrite) :
    (RouteMatch.of route (pre ++ rest)).rewrittenPath = some (rewrite ++ rest) := by
  rw [RouteMatch.of, rewrites, byPrefix]
  exact congrArg some (replacen_append pre rewrite rest)

/-- **A rewrite replaces the prefix and nothing else.** When any router answers a request with a route that has a prefix
and a rewrite, the path starts with the prefix, and the rewritten path is the rewrite followed by the rest. -/
theorem rewrite_replaces_prefix (R : Regexes) (r : Router) (method : HttpMethod) (path : String) (headers : HeaderMap)
    {m : RouteMatch} { pre rewrite : String} (selected : r.route R method path headers = some m)
    (byPrefix : m.route.path = .Prefix pre) (rewrites : m.route.rewrite = some rewrite) :
    ∃ rest, path = pre ++ rest ∧ m.rewrittenPath = some (rewrite ++ rest) := by
  rcases Router.route_cases selected with ⟨route, -, hit, rfl⟩ | ⟨upstream, -, rfl⟩
  · have starts : startsWith path pre = true := by
      have onPath := Route.path_matches hit
      rw [show route.path = .Prefix pre from byPrefix] at onPath
      exact onPath
    obtain ⟨rest, rfl⟩ := startsWith_iff.mp starts
    exact ⟨rest, rfl, RouteMatch.of_prefix byPrefix rewrites⟩
  -- the default upstream rewrites nothing
  · cases rewrites

/-- A prefix that overlaps itself and comes again. -/
theorem rewrite_replaces_prefix_periodic :
    let route : Route := { Route.new "rewrite" (.Prefix "/a/a") "cluster" with rewrite := some "/b" }
    ∃ rest, "/a/a/a/x/a/a" = "/a/a" ++ rest ∧
      (RouteMatch.of route "/a/a/a/x/a/a").rewrittenPath = some ("/b" ++ rest) := by
  intro route
  let R : Regexes := ⟨Empty, fun _ => none, fun _ _ => false⟩
  have selected : (Router.withRoutes [route]).route R .GET "/a/a/a/x/a/a" .new =
      some (.of route "/a/a/a/x/a/a") := by
    decide +kernel
  exact rewrite_replaces_prefix R (.withRoutes [route]) .GET "/a/a/a/x/a/a" .new selected rfl rfl

end ServiceMesh
