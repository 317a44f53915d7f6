import ServiceMesh.Logic.Pool
import ServiceMesh.Metrics.Basic
import ServiceMesh.Proxy.Config

/-!
# The proxy service (`service.rs`)

`ProxyService::call` with what it calls, first as one call computes it, then one shared operation at a time. The
clones of a service share the upstream list and the counter `next_upstream`, so all connections work on one
`ProxyService`; the metrics are global. `usize` has `w` bits. What comes from outside is given: how a string parses
as a URI, and what becomes of the request that is sent to that URI.
-/

namespace ServiceMesh

open Conc

/-- What `forward_request` reads of a request: its method and the path and query of its URI. -/
structure Request where
  method : String
  pathAndQuery : Option String
deriving Repr, DecidableEq

/-- The body of a response: a text of the proxy, or what the upstream sends. -/
inductive Body (β : Type) where
  | full (message : String)
  | upstream (body : β)
deriving Repr, DecidableEq

structure Response (β : Type) where
  status : UInt16
  body : Body β
deriving Repr, DecidableEq

/-- `timeout(request_timeout, client.request(req)).await`: a response, a client error, or the timeout. -/
inductive Outcome (β : Type) where
  | response (status : UInt16) (body : β)
  | clientError
  | timedOut
deriving Repr, DecidableEq

/-- `ProxyError`, as far as the service makes it. -/
inductive ProxyError where
  | NoUpstream
  | ServiceUnavailable (message : String)
deriving Repr, DecidableEq

structure ProxyService (w : Nat) where
  upstreamAddrs : List String
  nextUpstream : BitVec w
  requestTimeout : Nat
deriving Repr, DecidableEq

/-- A request as it comes in, with what its upstream will make of it. -/
structure Incoming (Uri β : Type) where
  request : Request
  outcome : Uri → Outcome β

namespace ProxyService

variable {w : Nat} {Uri β : Type}

def new (upstreamAddrs : List String) (requestTimeout : Nat) : ProxyService w :=
  { upstreamAddrs, nextUpstream := 0, requestTimeout }

/-- The place in the list that `select_upstream` picks. -/
def index (s : ProxyService w) : Nat := s.nextUpstream.toNat % s.upstreamAddrs.length

theorem index_lt {s : ProxyService w} (some : s.upstreamAddrs ≠ []) : s.index < s.upstreamAddrs.length :=
  Nat.mod_lt _ (List.length_pos_iff.mpr some)

def selectUpstream (s : ProxyService w) : Except ProxyError String × ProxyService w :=
  if empty : s.upstreamAddrs = [] then (.error .NoUpstream, s)
  else (.ok (s.upstreamAddrs.get ⟨s.index, index_lt empty⟩), { s with nextUpstream := s.nextUpstream + 1 })

/-- `parse` is `str::parse::<Uri>`, with the text of its error. -/
def buildUpstreamUri (parse : String → Except String Uri) (upstream : String) (pathAndQuery : Option String) :
    Except ProxyError Uri :=
  match parse (upstream ++ pathAndQuery.getD "/") with
  | .ok uri => .ok uri
  | .error e => .error (.ServiceUnavailable ("failed to parse URI: " ++ e))

/-- `error_response`: building a response from a status code and a body does not fail. -/
def errorResponse (status : UInt16) (message : String) : Response β := { status, body := .full message }

/-- The answer to the client, for each way that the upstream can behave. -/
def answer : Outcome β → Response β
  | .response status body => { status, body := .upstream body }
  | .clientError => errorResponse 502 "Upstream request failed"
  | .timedOut => errorResponse 504 "Upstream request timed out"

/-- `forward_request` from `start` to `now`, with the calls of `Metrics::record_request` that it makes. -/
def forwardRequest (parse : String → Except String Uri) (start now : Nat) (i : Incoming Uri β) (s : ProxyService w) :
    Except ProxyError (Response β) × List RequestRecord × ProxyService w :=
  let method := i.request.method
  match s.selectUpstream with
  | (.error e, s) => (.error e, [], s)
  | (.ok upstream, s) =>
    match buildUpstreamUri parse upstream i.request.pathAndQuery with
    | .error _ => (.ok (errorResponse 502 "Invalid upstream URI"), [⟨method, 502, upstream, now - start⟩], s)
    | .ok uri =>
      let response := answer (i.outcome uri)
      (.ok response, [⟨method, response.status, upstream, now - start⟩], s)

/-- `call`. -/
def call (parse : String → Except String Uri) (start now : Nat) (i : Incoming Uri β) (s : ProxyService w) :
    Response β × List RequestRecord × ProxyService w :=
  match s.forwardRequest parse start now i with
  | (.ok response, records, s) => (response, records, s)
  | (.error _, records, s) => (errorResponse 502 "Proxy error", records, s)

section
variable {parse : String → Except String Uri} {start now : Nat} {i : Incoming Uri β} {s service : ProxyService w}

/-- Without upstreams: an answer, and nothing recorded. -/
theorem call_of_error {e : ProxyError} (chosen : s.selectUpstream = (.error e, service)) :
    s.call parse start now i = (errorResponse 502 "Proxy error", [], service) := by
  simp only [call, forwardRequest, chosen]

/-- The upstream and the path do not make a URI. -/
theorem call_of_bad_uri {upstream : String} {e : ProxyError} (chosen : s.selectUpstream = (.ok upstream, service))
    (bad : buildUpstreamUri parse upstream i.request.pathAndQuery = .error e) :
    s.call parse start now i =
      (errorResponse 502 "Invalid upstream URI", [⟨i.request.method, 502, upstream, now - start⟩], service) := by
  simp only [call, forwardRequest, chosen, bad]

/-- The request is sent. -/
theorem call_of_uri {upstream : String} {uri : Uri} (chosen : s.selectUpstream = (.ok upstream, service))
    (built : buildUpstreamUri parse upstream i.request.pathAndQuery = .ok uri) :
    s.call parse start now i = (answer (i.outcome uri),
      [⟨i.request.method, (answer (i.outcome uri)).status, upstream, now - start⟩], service) := by
  simp only [call, forwardRequest, chosen, built]

end

end ProxyService

/-! ## One shared operation at a time -/

namespace Proxy

/-- What all connections share. -/
structure Shared (w : Nat) where
  service : ProxyService w
  metrics : Metrics
deriving Repr, DecidableEq

/-- Where a call stands: before `Instant::now`, before `next_upstream.fetch_add`, waiting for the upstream, before the
lock of the metrics, or about to return. -/
inductive Pc (Uri β : Type) where
  | start (i : Incoming Uri β)
  | select (start : Nat) (i : Incoming Uri β)
  | forward (start : Nat) (method upstream : String) (outcome : Outcome β)
  | record (record : RequestRecord) (response : Response β)
  | ret (response : Response β)

variable {w : Nat} {Uri β : Type}

def Pc.step (parse : String → Except String Uri) (now : Nat) (s : Shared w) :
    Pc Uri β → Shared w × Status (Pc Uri β) (Response β)
  | start i => (s, .running (select now i))
  | select since i =>
    match s.service.selectUpstream with
    | (.error _, service) => ({ s with service }, .running (ret (ProxyService.errorResponse 502 "Proxy error")))
    | (.ok upstream, service) =>
      ({ s with service },
        .running (match ProxyService.buildUpstreamUri parse upstream i.request.pathAndQuery with
          | .error _ =>
            record ⟨i.request.method, 502, upstream, now - since⟩ (ProxyService.errorResponse 502 "Invalid upstream URI")
          | .ok uri => forward since i.request.method upstream (i.outcome uri)))
  | forward since method upstream outcome =>
    (s, .running (record ⟨method, (ProxyService.answer outcome).status, upstream, now - since⟩ (ProxyService.answer outcome)))
  | record r response => ({ s with metrics := s.metrics.recordRequest r }, .running (ret response))
  | ret response => (s, .done response)

/-- The service as an object that all connections share. -/
def shared (w : Nat) (parse : String → Except String Uri) :
    Object (Shared w) (Incoming Uri β) (Pc Uri β) (Response β) where
  start := .start
  step := Pc.step parse

section
variable {parse : String → Except String Uri} {now since : Nat} {i : Incoming Uri β} {s : Shared w} {service : ProxyService w}

theorem step_of_error {e : ProxyError} (chosen : s.service.selectUpstream = (.error e, service)) :
    (Pc.select since i).step parse now s =
      ({ s with service }, .running (.ret (ProxyService.errorResponse 502 "Proxy error"))) := by
  simp only [Pc.step, chosen]

theorem step_of_bad_uri {upstream : String} {e : ProxyError} (chosen : s.service.selectUpstream = (.ok upstream, service))
    (bad : ProxyService.buildUpstreamUri parse upstream i.request.pathAndQuery = .error e) :
    (Pc.select since i).step parse now s = ({ s with service },
      .running (.record ⟨i.request.method, 502, upstream, now - since⟩ (ProxyService.errorResponse 502 "Invalid upstream URI"))) := by
  simp only [Pc.step, chosen, bad]

theorem step_of_uri {upstream : String} {uri : Uri} (chosen : s.service.selectUpstream = (.ok upstream, service))
    (built : ProxyService.buildUpstreamUri parse upstream i.request.pathAndQuery = .ok uri) :
    (Pc.select since i).step parse now s =
      ({ s with service }, .running (.forward since i.request.method upstream (i.outcome uri))) := by
  simp only [Pc.step, chosen, built]

end

/-- **No interleaving, no difference**: a call alone computes `call`, and makes the calls of `record_request`. -/
theorem solo_call (parse : String → Except String Uri) (now : Nat) (i : Incoming Uri β) (s : Shared w) :
    Solo (shared w parse) now s (.start i)
      { service := (s.service.call parse now now i).2.2,
        metrics := (s.service.call parse now now i).2.1.foldl (fun m r => m.recordRequest r) s.metrics }
      (s.service.call parse now now i).1 := by
  refine .next rfl ?_
  rcases chosen : s.service.selectUpstream with ⟨e | upstream, service⟩
  · rw [ProxyService.call_of_error chosen]
    exact .next (step_of_error chosen) (.ret rfl)
  · cases built : ProxyService.buildUpstreamUri parse upstream i.request.pathAndQuery with
    | error e =>
      rw [ProxyService.call_of_bad_uri chosen built]
      exact .next (step_of_bad_uri chosen built) (.next rfl (.ret rfl))
    | ok uri =>
      rw [ProxyService.call_of_uri chosen built]
      exact .next (step_of_uri chosen built) (.next rfl (.next rfl (.ret rfl)))

end Proxy

end ServiceMesh
