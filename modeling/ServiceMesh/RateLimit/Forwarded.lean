import ServiceMesh.IpAddr
import ServiceMesh.Router.Basic
import ServiceMesh.RateLimit.Limiter

/-!
# Whose request it is (`extract_client_ip`)

A limiter that trusts X-Forwarded-For takes the leftmost entry for the client, whatever `max_forwarded_ips` says, and
falls back to X-Real-IP and to the socket when it is not an address. Each proxy appends to the header, so the leftmost
entry is what the client itself has sent: two requests that agree in the entries of the trusted proxies are charged to
one client exactly if their leftmost entries say so, and to every request there is one that is charged to somebody else,
for every limiter that trusts the header (`spoofable`, `same_client_iff`).
-/

namespace ServiceMesh.RateLimit

/-- `ips`: the entries of X-Forwarded-For, if the header is there and is text. -/
def forwardedEntries (headers : HeaderMap) : Option (List (List Char)) :=
  ((headers.get "x-forwarded-for").bind HeaderValue.toStr).map fun value => (split ',' value.toList).map trim

/-- The address of the leftmost entry. -/
def forwardedIp (headers : HeaderMap) : Option IpAddr :=
  match forwardedEntries headers with
  | some ips =>
    match ips.head? with
    | some ipStr => IpAddr.fromStr ipStr
    | none => none
  | none => none

/-- The address in X-Real-IP. -/
def realIp (headers : HeaderMap) : Option IpAddr :=
  match (headers.get "x-real-ip").bind HeaderValue.toStr with
  | some value => IpAddr.fromStr (trim value.toList)
  | none => none

namespace RateLimiter

def extractClientIp (headers : HeaderMap) (socketAddr : Option IpAddr) (l : RateLimiter IpAddr) : Option IpAddr :=
  if l.config.trustForwardedFor then
    match forwardedIp headers with
    | some ip => some ip
    | none =>
      match realIp headers with
      | some ip => some ip
      | none => socketAddr
  else socketAddr

def checkWithHeaders (now : Nat) (headers : HeaderMap) (socketAddr : Option IpAddr) (l : RateLimiter IpAddr) :
    CheckResult × RateLimiter IpAddr :=
  let clientIp := l.extractClientIp headers socketAddr
  l.check now clientIp

/-- The two requests come from one client: one address, and so one bucket to charge. -/
def SameClient (socketAddr : Option IpAddr) (a b : HeaderMap) (l : RateLimiter IpAddr) : Prop :=
  l.extractClientIp a socketAddr = l.extractClientIp b socketAddr ∧
    ∀ now, l.checkWithHeaders now a socketAddr = l.checkWithHeaders now b socketAddr

end RateLimiter

/-- Two requests with the same rightmost `n` entries of X-Forwarded-For, all addresses, and the same other headers: what
stands in front of these entries is up to the client. -/
structure AgreeOnLast (n : Nat) (a b : HeaderMap) : Prop where
  others : ∀ name, foldName name ≠ "x-forwarded-for" → a.getAll name = b.getAll name
  entries : ∃ front front' last, forwardedEntries a = some (front ++ last) ∧ forwardedEntries b = some (front' ++ last) ∧
    last.length = n ∧ ∀ ipStr ∈ last, (IpAddr.fromStr ipStr).isSome

/-- The address that a request has for a trusting limiter if X-Forwarded-For names none. -/
def fallbackIp (headers : HeaderMap) (socketAddr : Option IpAddr) : Option IpAddr := (realIp headers).or socketAddr

/-- What stands in front of the entries of the trusted proxies has no influence on whom the limiter charges. -/
def NoInfluence (l : RateLimiter IpAddr) : Prop :=
  ∀ socketAddr a b, AgreeOnLast l.config.maxForwardedIps a b → l.SameClient socketAddr a b

variable {l : RateLimiter IpAddr} {a b : HeaderMap} {socketAddr : Option IpAddr} {n : Nat}

theorem extractClientIp_trusting (trust : l.config.trustForwardedFor = true) (headers : HeaderMap)
    (socketAddr : Option IpAddr) :
    l.extractClientIp headers socketAddr = (forwardedIp headers).or (fallbackIp headers socketAddr) := by
  rw [RateLimiter.extractClientIp, if_pos trust]
  cases forwardedIp headers with
  | some ip => rfl
  | none => cases real : realIp headers <;> simp [fallbackIp, real]

/-- The fallback does not look at X-Forwarded-For. -/
theorem AgreeOnLast.fallback (h : AgreeOnLast n a b) (socketAddr : Option IpAddr) :
    fallbackIp a socketAddr = fallbackIp b socketAddr := by
  have same : a.getAll "x-real-ip" = b.getAll "x-real-ip" := h.others "x-real-ip" (by decide +kernel)
  rw [fallbackIp, fallbackIp, realIp, realIp, HeaderMap.get, HeaderMap.get, same]

/-- With an entry of a trusted proxy there is a leftmost entry. -/
theorem AgreeOnLast.leftmost (h : AgreeOnLast n a b) (some : 1 ≤ n) :
    (∃ ipStr, (forwardedEntries a).bind List.head? = .some ipStr ∧ forwardedIp a = IpAddr.fromStr ipStr) ∧
      ∃ ipStr, (forwardedEntries b).bind List.head? = .some ipStr ∧ forwardedIp b = IpAddr.fromStr ipStr := by
  obtain ⟨front, front', last, shown, shown', rfl, -⟩ := h.entries
  have first : ∀ (headers : HeaderMap) (before : List (List Char)), forwardedEntries headers = .some (before ++ last) →
      ∃ ipStr, (forwardedEntries headers).bind List.head? = .some ipStr ∧ forwardedIp headers = IpAddr.fromStr ipStr := by
    intro headers before shown
    cases entries : before ++ last with
    | nil =>
      rw [(List.append_eq_nil_iff.mp entries).2] at some
      cases some
    | cons ipStr rest =>
      rw [entries] at shown
      exact ⟨ipStr, by rw [shown]; rfl, by rw [forwardedIp, shown]; rfl⟩
  exact ⟨first a front shown, first b front' shown'⟩

/-- The header map of a request with these two headers. -/
def withHeaders (forwarded : String) (real : Option String) : HeaderMap where
  entries := ("x-forwarded-for", forwarded.toUTF8.toList) ::
    (real.map fun value => ("x-real-ip", value.toUTF8.toList)).toList
  folded := by
    have names : foldName "x-forwarded-for" = "x-forwarded-for" ∧ foldName "x-real-ip" = "x-real-ip" := by decide +kernel
    cases real <;> simp [names]

example : (withHeaders "1.1.1.1" none).get "X-Forwarded-For" = some "1.1.1.1".toUTF8.toList := by decide +kernel

theorem getAll_withHeaders {name : String} (other : foldName name ≠ "x-forwarded-for") (forwarded forwarded' : String)
    (real : Option String) : (withHeaders forwarded real).getAll name = (withHeaders forwarded' real).getAll name := by
  simp only [HeaderMap.getAll, withHeaders, List.filterMap_cons, if_neg (Ne.symm other)]

/-- A limiter with one trusted proxy. -/
def trusting : RateLimiter IpAddr := .new { RateLimitConfig.default with trustForwardedFor := true } 0

/-- The proxy saw 9.9.9.9 both times. -/
theorem spoofed_entry :
    AgreeOnLast trusting.config.maxForwardedIps (withHeaders "1.1.1.1, 9.9.9.9" none) (withHeaders "2.2.2.2, 9.9.9.9" none) ∧
      ¬ trusting.SameClient none (withHeaders "1.1.1.1, 9.9.9.9" none) (withHeaders "2.2.2.2, 9.9.9.9" none) := by
  refine ⟨⟨fun name other => getAll_withHeaders other _ _ none, ["1.1.1.1".toList], ["2.2.2.2".toList],
    ["9.9.9.9".toList], ?_⟩, ?_⟩
  · decide +kernel
  · rintro ⟨same, -⟩
    exact absurd same (by decide +kernel)

/-! ## Every request can be spoofed -/

/-- Texts put together are text. -/
theorem toStr_append {u v : HeaderValue} {s t : String} (first : u.toStr = some s) (second : v.toStr = some t) :
    HeaderValue.toStr (u ++ v) = some (s ++ t) := by
  unfold HeaderValue.toStr at *
  split at first
  · next plain =>
    split at second
    · next plain' =>
      cases first
      cases second
      rw [if_pos (by rw [List.all_append, plain, plain']; rfl), List.map_append, String.ofList_append]
    · cases second
  · cases first

/-- The request with an entry put in front of its X-Forwarded-For. -/
def prepend (entry : String) (headers : HeaderMap) : HeaderMap where
  entries := headers.entries.map fun e =>
    (e.1, if e.1 = "x-forwarded-for" then (entry ++ ",").toUTF8.toList ++ e.2 else e.2)
  folded := by
    intro e mem
    obtain ⟨old, present, rfl⟩ := List.mem_map.mp mem
    exact headers.folded old present

theorem getAll_prepend (entry : String) (headers : HeaderMap) (name : String) :
    (prepend entry headers).getAll name = (headers.getAll name).map fun value =>
      if foldName name = "x-forwarded-for" then (entry ++ ",").toUTF8.toList ++ value else value := by
  rw [HeaderMap.getAll, HeaderMap.getAll, prepend, List.filterMap_map, List.map_filterMap]
  refine List.filterMap_congr fun e _ => ?_
  by_cases named : e.1 = foldName name
  · simp [named]
  · simp [named]

/-- What a request with one more entry shows. -/
theorem forwardedEntries_prepend {entry : String} (spelled : HeaderValue.toStr (entry ++ ",").toUTF8.toList = some (entry ++ ","))
    (plain : ',' ∉ entry.toList) {ips : List (List Char)} (shown : forwardedEntries a = some ips) :
    forwardedEntries (prepend entry a) = some (trim entry.toList :: ips) := by
  have name : foldName "x-forwarded-for" = "x-forwarded-for" := by decide +kernel
  unfold forwardedEntries at shown ⊢
  rw [HeaderMap.get, getAll_prepend, List.head?_map, ← HeaderMap.get]
  simp only [if_pos name]
  cases here : a.get "x-forwarded-for" with
  | none =>
    rw [here] at shown
    cases shown
  | some value =>
    rw [here, Option.bind_some] at shown
    cases read : HeaderValue.toStr value with
    | none =>
      rw [read] at shown
      cases shown
    | some text =>
      rw [read] at shown
      cases shown
      have comma : (entry ++ "," ++ text).toList = entry.toList ++ ',' :: text.toList := by
        rw [String.toList_append, String.toList_append, List.append_assoc]
        rfl
      rw [Option.map_some, Option.bind_some, toStr_append spelled read, Option.map_some, comma, split_append plain,
        List.map_cons]

/-- One more entry in front changes nothing that the trusted proxies have said. -/
theorem AgreeOnLast.prepend (h : AgreeOnLast n a a) {entry : String}
    (spelled : HeaderValue.toStr (entry ++ ",").toUTF8.toList = some (entry ++ ",")) (plain : ',' ∉ entry.toList) :
    AgreeOnLast n a (prepend entry a) := by
  obtain ⟨front, -, last, shown, -, count, valid⟩ := h.entries
  refine ⟨?_, front, trim entry.toList :: front, last, shown, forwardedEntries_prepend spelled plain shown, count, valid⟩
  intro name other
  simp [getAll_prepend, other]

/-- **Every request can be spoofed**: with one more entry in front it is charged to somebody else. -/
theorem spoofable (l : RateLimiter IpAddr) (trust : l.config.trustForwardedFor = true) (h : AgreeOnLast n a a)
    (socketAddr : Option IpAddr) : ∃ b, AgreeOnLast n a b ∧ ¬ l.SameClient socketAddr a b := by
  obtain ⟨front, -, last, shown, -⟩ := h.entries
  have spoof : ∀ entry, HeaderValue.toStr (entry ++ ",").toUTF8.toList = some (entry ++ ",") → ',' ∉ entry.toList →
      ∀ ip, IpAddr.fromStr (trim entry.toList) = some ip → l.extractClientIp (prepend entry a) socketAddr = some ip := by
    intro entry spelled plain ip named
    have first : forwardedIp (prepend entry a) = some ip := by
      rw [forwardedIp, forwardedEntries_prepend spelled plain shown]
      exact named
    rw [extractClientIp_trusting trust, first]
    rfl
  -- one of two addresses is not the one that the request has
  have one := spoof "1.1.1.1" (by decide +kernel) (by decide) (.V4 ⟨1, 1, 1, 1⟩) (by decide +kernel)
  have two := spoof "2.2.2.2" (by decide +kernel) (by decide) (.V4 ⟨2, 2, 2, 2⟩) (by decide +kernel)
  by_cases mine : l.extractClientIp a socketAddr = some (.V4 ⟨1, 1, 1, 1⟩)
  · refine ⟨prepend "2.2.2.2" a, h.prepend (by decide +kernel) (by decide), ?_⟩
    rintro ⟨same, -⟩
    rw [mine, two] at same
    exact absurd same (by decide)
  · refine ⟨prepend "1.1.1.1" a, h.prepend (by decide +kernel) (by decide), ?_⟩
    rintro ⟨same, -⟩
    rw [one] at same
    exact mine same

/-- There are requests with any number of entries from trusted proxies. -/
theorem exists_forwarded (n : Nat) : ∃ a, AgreeOnLast n a a := by
  have shown : ∃ a, forwardedEntries a = some (List.replicate (n + 1) "9.9.9.9".toList) := by
    induction n with
    | zero => exact ⟨withHeaders "9.9.9.9" none, by decide +kernel⟩
    | succ n ih =>
      obtain ⟨a, shown⟩ := ih
      exact ⟨prepend "9.9.9.9" a, forwardedEntries_prepend (by decide +kernel) (by decide) shown⟩
  obtain ⟨a, shown⟩ := shown
  refine ⟨a, fun _ _ => rfl, ["9.9.9.9".toList], ["9.9.9.9".toList], List.replicate n "9.9.9.9".toList, shown, shown,
    List.length_replicate, ?_⟩
  intro ipStr mem
  rw [List.eq_of_mem_replicate mem]
  decide +kernel

/-! ## Two requests -/

/-- Two choices with one fallback are the same if both choose alike, or one chooses what the other falls back to. -/
theorem or_eq_or_iff {α : Type} {x y z : Option α} :
    x.or z = y.or z ↔ x = y ∨ (x = none ∧ y = z) ∨ (y = none ∧ x = z) := by
  cases x <;> cases y <;> simp [eq_comm]

/-- **Whom a spoofed header charges.** Whatever limiter trusts X-Forwarded-For, what stands in front of the entries of its
proxies has influence. Two requests that differ only in that are charged to one client exactly if their leftmost entries
name one address, or none of them does, or one names none and the other the address that the request has without the
header. -/
theorem same_client_iff (l : RateLimiter IpAddr) (trust : l.config.trustForwardedFor = true)
    (some : 1 ≤ l.config.maxForwardedIps) :
    ¬ NoInfluence l ∧
    ∀ {a b : HeaderMap}, AgreeOnLast l.config.maxForwardedIps a b → ∀ socketAddr : Option IpAddr,
      ∃ ipStr ipStr', (forwardedEntries a).bind List.head? = .some ipStr ∧
        (forwardedEntries b).bind List.head? = .some ipStr' ∧
        (l.SameClient socketAddr a b ↔ IpAddr.fromStr ipStr = IpAddr.fromStr ipStr' ∨
          (IpAddr.fromStr ipStr = none ∧ IpAddr.fromStr ipStr' = fallbackIp a socketAddr) ∨
          (IpAddr.fromStr ipStr' = none ∧ IpAddr.fromStr ipStr = fallbackIp a socketAddr)) := by
  constructor
  · intro law
    obtain ⟨a, request⟩ := exists_forwarded l.config.maxForwardedIps
    obtain ⟨b, agree, other⟩ := spoofable l trust request none
    exact other (law none a b agree)
  · intro a b agree socketAddr
    obtain ⟨⟨ipStr, first, names⟩, ipStr', first', names'⟩ := agree.leftmost some
    refine ⟨ipStr, ipStr', first, first', ?_⟩
    have charged : l.SameClient socketAddr a b ↔ l.extractClientIp a socketAddr = l.extractClientIp b socketAddr := by
      refine ⟨And.left, fun same => ⟨same, fun now => ?_⟩⟩
      rw [RateLimiter.checkWithHeaders, RateLimiter.checkWithHeaders, same]
    rw [charged, extractClientIp_trusting trust, extractClientIp_trusting trust, ← agree.fallback socketAddr, names, names',
      or_eq_or_iff]

/-- What precedes the entry of the proxy is not an address, or is the address that the proxy reports in X-Real-IP. -/
theorem same_client_iff_fallback :
    let a := withHeaders "unknown, 9.9.9.9" (some "7.7.7.7")
    let b := withHeaders "7.7.7.7, 9.9.9.9" (some "7.7.7.7")
    ¬ NoInfluence trusting ∧ AgreeOnLast trusting.config.maxForwardedIps a b ∧ trusting.SameClient none a b ∧
      trusting.extractClientIp a none = some (.V4 ⟨7, 7, 7, 7⟩) := by
  intro a b
  have agree : AgreeOnLast trusting.config.maxForwardedIps a b :=
    ⟨fun name other => getAll_withHeaders other _ _ _, ["unknown".toList], ["7.7.7.7".toList], ["9.9.9.9".toList],
      by decide +kernel⟩
  obtain ⟨influence, exactly⟩ := same_client_iff trusting rfl (by decide)
  obtain ⟨ipStr, ipStr', first, first', charged⟩ := exactly agree none
  have here : (forwardedEntries a).bind List.head? = some "unknown".toList := by decide +kernel
  have here' : (forwardedEntries b).bind List.head? = some "7.7.7.7".toList := by decide +kernel
  cases first.symm.trans here
  cases first'.symm.trans here'
  exact ⟨influence, agree, charged.mpr (.inr (.inl (by decide +kernel))), by decide +kernel⟩

end ServiceMesh.RateLimit
