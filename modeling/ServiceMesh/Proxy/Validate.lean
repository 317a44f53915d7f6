import ServiceMesh.Proxy.Config
import ServiceMesh.Logic.Checks
import ServiceMesh.IpAddr

/-!
# Validation of the configuration (`config.rs`)

`validate` parses both addresses, and drops what it parsed: the check for duplicates compares the two strings. A socket
address has several spellings, so two listeners on one address get through (`spellings_accepted`); that is the only way
in which what is accepted is not valid (`validate_exact_iff`).
-/

namespace ServiceMesh

open Checks

inductive ConfigError where
  | InvalidListenAddr (addr reason : String)
  | InvalidMetricsAddr (addr reason : String)
  | InvalidUpstreamAddr (addr reason : String)
  | NoUpstreamAddrs
  | InvalidTimeout (reason : String)
  | DuplicateAddrs (addr : String)
deriving Repr, DecidableEq

/-- What `validate` parses with: `str::parse` of a socket address, with the text of its error, and `Url::parse`, of which
only counts whether it takes the string. -/
structure Parsers where
  SocketAddr : Type
  parseSocketAddr : String → Except String SocketAddr
  urlParses : String → Bool

/-- The standard library's socket addresses. -/
def Parsers.std (urlParses : String → Bool) : Parsers :=
  { SocketAddr := ServiceMesh.SocketAddr
    parseSocketAddr := fun text => SocketAddr.fromStr text.toList
    urlParses }

namespace ProxyConfig

/-- The checks of one upstream. -/
def validateUpstream (P : Parsers) (addr : String) : Except ConfigError Unit := do
  reject (!startsWith addr "http://" && !startsWith addr "https://")
    (.InvalidUpstreamAddr addr "must start with http:// or https://")
  reject (!P.urlParses addr) (.InvalidUpstreamAddr addr "invalid URL format")

def validate (P : Parsers) (c : ProxyConfig) : Except ConfigError Unit := do
  let _ ← (P.parseSocketAddr c.listenAddr).mapError fun reason => .InvalidListenAddr c.listenAddr reason
  let _ ← (P.parseSocketAddr c.metricsAddr).mapError fun reason => .InvalidMetricsAddr c.metricsAddr reason
  reject (c.listenAddr = c.metricsAddr) (.DuplicateAddrs c.listenAddr)
  reject (c.upstreamAddrs = []) .NoUpstreamAddrs
  forM c.upstreamAddrs (validateUpstream P)
  reject (c.requestTimeout = 0) (.InvalidTimeout "timeout must be greater than zero")
  reject (3600 * 10 ^ 9 < c.requestTimeout) (.InvalidTimeout "timeout must not exceed 1 hour")

/-- `from_env_validated`. -/
def fromEnvValidated (P : Parsers) (env : String → Option String) : Except ConfigError ProxyConfig := do
  let config := fromEnv env
  config.validate P
  return config

/-! ## What is accepted -/

/-- An upstream starts with one of the two schemes. -/
def HasScheme (addr : String) : Prop := startsWith addr "http://" = true ∨ startsWith addr "https://" = true

/-- The upstreams and the timeout are in order. -/
structure InOrder (P : Parsers) (c : ProxyConfig) : Prop where
  some : c.upstreamAddrs ≠ []
  urls : ∀ addr ∈ c.upstreamAddrs, HasScheme addr ∧ P.urlParses addr = true
  positive : 0 < c.requestTimeout
  atMost : c.requestTimeout ≤ 3600 * 10 ^ 9

/-- What validation is for: besides that, two socket addresses, and not the same. -/
structure Valid (P : Parsers) (c : ProxyConfig) : Prop where
  addrs : ∃ listen metrics,
    P.parseSocketAddr c.listenAddr = .ok listen ∧ P.parseSocketAddr c.metricsAddr = .ok metrics ∧ listen ≠ metrics
  inOrder : InOrder P c

/-- The two addresses are one, written in two ways. -/
def TwoSpellings (P : Parsers) (c : ProxyConfig) : Prop :=
  c.listenAddr ≠ c.metricsAddr ∧
    ∃ addr, P.parseSocketAddr c.listenAddr = .ok addr ∧ P.parseSocketAddr c.metricsAddr = .ok addr

variable {P : Parsers} {c : ProxyConfig}

theorem validateUpstream_eq_ok {addr : String} :
    validateUpstream P addr = .ok () ↔ HasScheme addr ∧ P.urlParses addr = true := by
  rw [validateUpstream, bind_eq_ok, HasScheme]
  simp [or_iff_not_imp_left]

/-- **What `validate` checks.** -/
theorem validate_eq_ok :
    c.validate P = .ok () ↔
      (∃ listen, P.parseSocketAddr c.listenAddr = .ok listen) ∧
      (∃ metrics, P.parseSocketAddr c.metricsAddr = .ok metrics) ∧ c.listenAddr ≠ c.metricsAddr ∧ InOrder P c := by
  simp only [validate, bind_eq_ok, mapError_eq_ok, reject_eq_ok, forM_eq_ok, validateUpstream_eq_ok, not_lt]
  constructor
  · rintro ⟨listen, listens, metrics, serves, -, differ, -, some, -, urls, -, positive, atMost⟩
    exact ⟨⟨listen, listens⟩, ⟨metrics, serves⟩, differ, some, urls, Nat.pos_of_ne_zero positive, atMost⟩
  · rintro ⟨⟨listen, listens⟩, ⟨metrics, serves⟩, differ, inOrder⟩
    exact ⟨listen, listens, metrics, serves, (), differ, (), inOrder.some, (), inOrder.urls, (), inOrder.positive.ne',
      inOrder.atMost⟩

/-- The default configuration is accepted. -/
example : default.validate (.std fun text => text == "http://127.0.0.1:8080") = .ok () := by
  decide +kernel

/-- What an error says of the configuration. -/
def Blames (P : Parsers) (c : ProxyConfig) : ConfigError → Prop
  | .InvalidListenAddr addr reason => addr = c.listenAddr ∧ P.parseSocketAddr addr = .error reason
  | .InvalidMetricsAddr addr reason => addr = c.metricsAddr ∧ P.parseSocketAddr addr = .error reason
  | .InvalidUpstreamAddr addr _ => addr ∈ c.upstreamAddrs ∧ ¬ (HasScheme addr ∧ P.urlParses addr = true)
  | .NoUpstreamAddrs => c.upstreamAddrs = []
  | .InvalidTimeout _ => ¬ (0 < c.requestTimeout ∧ c.requestTimeout ≤ 3600 * 10 ^ 9)
  | .DuplicateAddrs addr => addr = c.listenAddr ∧ addr = c.metricsAddr

theorem validateUpstream_eq_error {addr : String} {e : ConfigError} (failed : validateUpstream P addr = .error e) :
    (∃ reason, e = .InvalidUpstreamAddr addr reason) ∧ ¬ (HasScheme addr ∧ P.urlParses addr = true) := by
  have not : ¬ (HasScheme addr ∧ P.urlParses addr = true) := by
    rw [← validateUpstream_eq_ok, failed]
    nofun
  rw [validateUpstream, bind_eq_error] at failed
  simp only [reject_eq_error] at failed
  rcases failed with ⟨-, rfl⟩ | ⟨-, -, -, rfl⟩
  · exact ⟨⟨_, rfl⟩, not⟩
  · exact ⟨⟨_, rfl⟩, not⟩

/-- **Every error names what is wrong.** -/
theorem validate_eq_error {e : ConfigError} (failed : c.validate P = .error e) : Blames P c e := by
  simp only [validate, bind_eq_error, mapError_eq_error, mapError_eq_ok, reject_eq_error, reject_eq_ok, forM_eq_error]
    at failed
  rcases failed with ⟨reason, fails, rfl⟩ | ⟨-, -, failed⟩
  · exact ⟨rfl, fails⟩
  rcases failed with ⟨reason, fails, rfl⟩ | ⟨-, -, failed⟩
  · exact ⟨rfl, fails⟩
  rcases failed with ⟨same, rfl⟩ | ⟨-, -, failed⟩
  · exact ⟨rfl, same⟩
  rcases failed with ⟨none, rfl⟩ | ⟨-, -, failed⟩
  · exact none
  rcases failed with ⟨before, addr, after, whole, -, fails⟩ | ⟨-, -, failed⟩
  · obtain ⟨⟨reason, rfl⟩, not⟩ := validateUpstream_eq_error fails
    exact ⟨whole ▸ List.mem_append_right _ List.mem_cons_self, not⟩
  rcases failed with ⟨zero, rfl⟩ | ⟨-, -, long, rfl⟩
  · exact fun ok => ok.1.ne' zero
  · exact fun ok => absurd long (Nat.not_lt.mpr ok.2)

theorem fromEnvValidated_eq_ok {env : String → Option String} :
    fromEnvValidated P env = .ok c ↔ fromEnv env = c ∧ c.validate P = .ok () := by
  rw [fromEnvValidated, bind_eq_ok]
  constructor
  · rintro ⟨⟨⟩, accepted, ⟨⟩⟩
    exact ⟨rfl, accepted⟩
  · rintro ⟨rfl, accepted⟩
    exact ⟨(), accepted, rfl⟩

/-- One address, written with and without its zeros: both listeners are accepted. -/
theorem spellings_accepted :
    let P := Parsers.std fun text => text == "http://127.0.0.1:8080"
    let c := { default with listenAddr := "[::1]:80", metricsAddr := "[0:0:0:0:0:0:0:1]:80" }
    ¬ (c.validate P = .ok () ↔ Valid P c) := by
  intro P c exact
  have accepted : c.validate P = .ok () := by decide +kernel
  obtain ⟨listen, metrics, listens, serves, differ⟩ := (exact.mp accepted).addrs
  have same : SocketAddr.fromStr "[::1]:80".toList = SocketAddr.fromStr "[0:0:0:0:0:0:0:1]:80".toList := by decide +kernel
  have parsed : ∀ text, P.parseSocketAddr text = SocketAddr.fromStr text.toList := fun _ => rfl
  rw [parsed] at listens serves
  have one := listens.symm.trans (same.trans serves)
  cases one
  exact differ rfl

/-- **When validation is exact.** `validate` accepts a configuration exactly if it is valid, unless its two addresses are
two spellings of one and all the rest is in order. -/
theorem validate_exact_iff (P : Parsers) (c : ProxyConfig) :
    (c.validate P = .ok () ↔ Valid P c) ↔ ¬ (TwoSpellings P c ∧ InOrder P c) := by
  rw [validate_eq_ok]
  constructor
  · rintro exact ⟨⟨written, addr, listens, serves⟩, inOrder⟩
    have valid := exact.mp ⟨⟨addr, listens⟩, ⟨addr, serves⟩, written, inOrder⟩
    obtain ⟨listen, metrics, listens', serves', differ⟩ := valid.addrs
    cases listens.symm.trans listens'
    cases serves.symm.trans serves'
    exact differ rfl
  · intro single
    constructor
    · rintro ⟨⟨listen, listens⟩, ⟨metrics, serves⟩, written, inOrder⟩
      refine ⟨⟨listen, metrics, listens, serves, ?_⟩, inOrder⟩
      rintro rfl
      exact single ⟨⟨written, listen, listens, serves⟩, inOrder⟩
    · rintro ⟨⟨listen, metrics, listens, serves, differ⟩, inOrder⟩
      refine ⟨⟨listen, listens⟩, ⟨metrics, serves⟩, ?_, inOrder⟩
      intro same
      rw [same, serves] at listens
      cases listens
      exact differ rfl

end ProxyConfig

end ServiceMesh
