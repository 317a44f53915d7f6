import Mathlib.Algebra.Ring.Nat
import ServiceMesh.Text

/-!
# The proxy's configuration (`config.rs`)

What `from_env` makes of the environment. `Duration`s are nanoseconds; `usize` has 64 bits. What it makes is
`Expressible`, and all that is expressible can be said: `environment` has variables that are read back as the very
configuration (`upstreams_written`, `parseUnsigned_repr`).
-/

namespace ServiceMesh

structure ProxyConfig where
  listenAddr : String
  upstreamAddrs : List String
  metricsAddr : String
  requestTimeout : Nat
  maxConnections : Nat
deriving Repr, DecidableEq

namespace ProxyConfig

def defaultMaxConnections : Nat := 10000

/-- `ProxyConfig::default`. -/
def default : ProxyConfig :=
  { listenAddr := "127.0.0.1:3000", upstreamAddrs := ["http://127.0.0.1:8080"], metricsAddr := "127.0.0.1:9090",
    requestTimeout := 30 * 10 ^ 9, maxConnections := defaultMaxConnections }

/-- The upstreams of `PROXY_UPSTREAM_ADDRS`: the parts between commas, without spaces around them and without the
empty ones. -/
def upstreams (value : String) : List String :=
  (((split ',' value.toList).map trim).filter (· ≠ [])).map String.ofList

/-- `env::var(name).ok()` is given. -/
def fromEnv (env : String → Option String) : ProxyConfig :=
  { listenAddr := (env "PROXY_LISTEN_ADDR").getD "127.0.0.1:3000"
    upstreamAddrs := upstreams ((env "PROXY_UPSTREAM_ADDRS").getD "http://127.0.0.1:8080")
    metricsAddr := (env "PROXY_METRICS_ADDR").getD "127.0.0.1:9090"
    requestTimeout :=
      ((env "PROXY_REQUEST_TIMEOUT_MS").bind (parseUnsigned (2 ^ 64) ·.toList)).getD 30000 * 10 ^ 6
    maxConnections :=
      ((env "PROXY_MAX_CONNECTIONS").bind (parseUnsigned (2 ^ 64) ·.toList)).getD defaultMaxConnections }

/-- With nothing set, the defaults. -/
example : fromEnv (fun _ => none) = default := by decide

/-! ## What the environment can say -/

/-- The value of `PROXY_UPSTREAM_ADDRS` that lists these upstreams. -/
def written (addrs : List String) : String := String.ofList ([','].intercalate (addrs.map String.toList))

/-- The variables that say a configuration, the timeout in whole milliseconds. -/
def environment (c : ProxyConfig) (name : String) : Option String :=
  if name = "PROXY_LISTEN_ADDR" then some c.listenAddr
  else if name = "PROXY_UPSTREAM_ADDRS" then some (written c.upstreamAddrs)
  else if name = "PROXY_METRICS_ADDR" then some c.metricsAddr
  else if name = "PROXY_REQUEST_TIMEOUT_MS" then some (toString (c.requestTimeout / 10 ^ 6))
  else if name = "PROXY_MAX_CONNECTIONS" then some (toString c.maxConnections)
  else none

/-- A text that can stand between two commas. -/
structure Listable (addr : String) : Prop where
  some : addr.toList ≠ []
  plain : ',' ∉ addr.toList
  trimmed : trim addr.toList = addr.toList

/-- A configuration that some environment has. -/
structure Expressible (c : ProxyConfig) : Prop where
  upstreams : ∀ addr ∈ c.upstreamAddrs, Listable addr
  requestTimeout : ∃ ms < 2 ^ 64, c.requestTimeout = ms * 10 ^ 6
  maxConnections : c.maxConnections < 2 ^ 64

theorem listable_of_mem_upstreams {value addr : String} (mem : addr ∈ upstreams value) : Listable addr := by
  obtain ⟨trimmed, kept, rfl⟩ := List.mem_map.mp mem
  obtain ⟨cut, some⟩ := List.mem_filter.mp kept
  obtain ⟨part, between, rfl⟩ := List.mem_map.mp cut
  refine ⟨?_, ?_, ?_⟩
  · rw [String.toList_ofList]
    exact of_decide_eq_true some
  · rw [String.toList_ofList]
    exact fun comma => not_mem_of_mem_split between (subset_of_trim part comma)
  · rw [String.toList_ofList, trim_trim]

/-- **A list of upstreams is read as it is written**. -/
theorem upstreams_written {addrs : List String} (listable : ∀ addr ∈ addrs, Listable addr) :
    upstreams (written addrs) = addrs := by
  rw [upstreams, written, String.toList_ofList]
  by_cases empty : addrs = []
  · subst empty
    rfl
  · have plain : ∀ part ∈ addrs.map String.toList, ',' ∉ part := by
      intro part mem
      obtain ⟨addr, listed, rfl⟩ := List.mem_map.mp mem
      exact (listable addr listed).plain
    have trimmed : (addrs.map String.toList).map trim = addrs.map String.toList := by
      rw [List.map_map]
      exact List.map_congr_left fun addr mem => (listable addr mem).trimmed
    have none_empty : (addrs.map String.toList).filter (· ≠ []) = addrs.map String.toList := by
      refine List.filter_eq_self.mpr fun part mem => ?_
      obtain ⟨addr, listed, rfl⟩ := List.mem_map.mp mem
      exact decide_eq_true (listable addr listed).some
    rw [split_eq_splitOn, List.splitOn_intercalate ',' plain (mt List.map_eq_nil_iff.mp empty), trimmed, none_empty,
      List.map_map]
    exact (List.map_congr_left fun addr _ => String.ofList_toList).trans (List.map_id addrs)

/-- A number of an environment, or the default, is below the limit. -/
theorem parsed_lt {limit default : Nat} (fits : default < limit) (value : Option String) :
    (value.bind (parseUnsigned limit ·.toList)).getD default < limit := by
  cases read : value.bind (parseUnsigned limit ·.toList) with
  | none => exact fits
  | some n =>
    obtain ⟨text, -, parsed⟩ := Option.bind_eq_some_iff.mp read
    exact parseUnsigned_lt parsed

theorem expressible_fromEnv (env : String → Option String) : Expressible (fromEnv env) where
  upstreams := fun _ mem => listable_of_mem_upstreams mem
  requestTimeout := ⟨_, parsed_lt (by decide) _, rfl⟩
  maxConnections := parsed_lt (by decide) _

theorem fromEnv_environment {c : ProxyConfig} (expressible : Expressible c) : fromEnv (environment c) = c := by
  obtain ⟨ms, fits, timeout⟩ := expressible.requestTimeout
  have whole : c.requestTimeout / 10 ^ 6 = ms := by
    rw [timeout]
    exact Nat.mul_div_cancel ms (by decide)
  have read : fromEnv (environment c) =
      { listenAddr := c.listenAddr
        upstreamAddrs := upstreams (written c.upstreamAddrs)
        metricsAddr := c.metricsAddr
        requestTimeout := (parseUnsigned (2 ^ 64) (toString (c.requestTimeout / 10 ^ 6)).toList).getD 30000 * 10 ^ 6
        maxConnections := (parseUnsigned (2 ^ 64) (toString c.maxConnections).toList).getD defaultMaxConnections } := by
    rfl
  rw [read, upstreams_written expressible.upstreams, whole, parseUnsigned_repr fits,
    parseUnsigned_repr expressible.maxConnections, Option.getD_some, Option.getD_some, ← timeout]

/-- **The round trip**: the configurations that an environment has are those that their own variables say, and these are
the expressible ones. -/
theorem environment_round_trip (c : ProxyConfig) :
    ((∃ env, fromEnv env = c) ↔ Expressible c) ∧ (fromEnv (environment c) = c ↔ Expressible c) := by
  have loaded : (∃ env, fromEnv env = c) → Expressible c := by
    rintro ⟨env, rfl⟩
    exact expressible_fromEnv env
  constructor
  · exact ⟨loaded, fun expressible => ⟨environment c, fromEnv_environment expressible⟩⟩
  · exact ⟨fun same => loaded ⟨environment c, same⟩, fromEnv_environment⟩

end ProxyConfig

end ServiceMesh
