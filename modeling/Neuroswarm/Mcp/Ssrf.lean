import Neuroswarm.Lib.Stateful
import Neuroswarm.Mcp.Literals

/-!
# The fetcher

`runtime/router/mcp_ssrf.py`: the host policy, the pinning of a URL to an address that was
checked, and the loop over redirects. The parser of URLs, `httpx.URL.join`, the answers of the
resolver and those of the servers are parameters; every lookup and every request can be
answered differently. Of the clients' options nothing is kept: the client sends one request
and follows no redirect.
-/

namespace Neuroswarm.Mcp

open Armcascade (Text isSpace)

/-- What `urlparse` finds: the parts before the path, and the rest of the URL. Reading the port
can raise. -/
structure ParsedUrl where
  scheme : Text := []
  username : Option Text := none
  password : Option Text := none
  hostname : Option Text := none
  port : Except String (Option Nat) := .ok none
  rest : Text := []

/-- A response. The header `location` and the body are read, and the content type. -/
structure Response where
  statusCode : Nat := 200
  location : Option Text := none
  contentType : Option String := none
  content : List UInt8 := []

/-- `socket.gaierror`, and what else `getaddrinfo` raises. -/
inductive LookupError where
  | gai (message : String)
  | other (message : String)

/-- `SsrfError`, any other `ValueError`, and what the client raises. -/
inductive FetchError where
  | ssrf (message : String)
  | value (message : String)
  | client (message : String)
  deriving Repr, DecidableEq

/-- The URL the client is given: the one that was validated, or one with an address in place of
the host. -/
inductive ConnectUrl where
  | asGiven (url : Text)
  | pinned (parsed : ParsedUrl) (ip : Text) (port : Option Nat)

/-- A request of the client, with its header `Host`. -/
structure Request where
  url : ConnectUrl
  host : Text

/-- What is around a call: the process environment, the functions the module imports, the
answers to its lookups and its requests in their order. -/
structure World where
  casing : Casing := .ascii
  environ : List (Text × Text) := []
  urlparse : Text → Except String ParsedUrl
  join : Text → Text → Except String Text
  getaddrinfo : Nat → Text → Nat → Except LookupError (List Text)
  respond : Nat → Except String Response

/-- What a call has done so far. -/
structure Session where
  lookups : Nat := 0
  requests : List Request := []

abbrev Fetcher := EStateM FetchError Session

/-- `if c: raise e`. -/
def raiseIf (c : Prop) [Decidable c] (e : FetchError) : Fetcher Unit :=
  if c then throw e else pure ()

/-- A call that may raise a `ValueError`. -/
def orValueError {α : Type} : Except String α → Fetcher α
  | .ok a => pure a
  | .error e => throw (.value e)

-- ------ The host policy

def metadataHosts : List Text :=
  [text "metadata.google.internal", text "metadata.google.com", text "metadata",
    text "instance-data"]

/-- `a or b` of two optional texts. -/
def orText (a b : Option Text) : Option Text := if a.any (· ≠ []) then a else b

namespace World

variable (w : World)

def parseAllowlist (raw : Option Text) : Option (List Text) :=
  match raw with
  | none => none
  | some raw =>
    if strip raw = [] then none
    else some (((raw.splitOn ',').filter (strip · ≠ [])).map fun h => w.casing.lower (strip h))

def envGetCi (key : Text) : Option Text :=
  (w.environ.lookup key).or
    ((w.environ.find? fun e => w.casing.upper e.1 == w.casing.upper key).map (·.2))

def hostAllowlist (tenantId : Option Text) : Option (List Text) :=
  let tid := strip ((orText tenantId (w.envGetCi (text "NSA_MCP_TENANT_ID"))).getD [])
  let own := if tid = [] then none else
    (w.parseAllowlist (w.envGetCi
      (text "NSA_MCP_TENANT_" ++ tid ++ text "_BROWSER_HOST_ALLOWLIST"))).or
    (w.parseAllowlist (w.envGetCi
      (text "NSA_MCP_TENANT_" ++ tid ++ text "_NSA_MCP_BROWSER_HOST_ALLOWLIST")))
  own.or (w.parseAllowlist (w.envGetCi (text "NSA_MCP_BROWSER_HOST_ALLOWLIST")))

/-- `socket.getaddrinfo`, with the addresses of its answer. -/
def lookup (host : Text) (port : Nat) : Fetcher (List Text) := do
  let answer ← modifyGet fun s =>
    (w.getaddrinfo s.lookups host port, { s with lookups := s.lookups + 1 })
  match answer with
  | .ok addresses => pure addresses
  | .error (.gai e) =>
    throw (.ssrf ("DNS resolution failed for " ++ String.ofList host ++ ": " ++ e))
  | .error (.other e) => throw (.value e)

/-- The addresses of an answer that can be read; none of them may be blocked. -/
def usableAddresses (host : Text) : List Text → Fetcher (List Text)
  | [] => pure []
  | addr :: infos =>
    match ipAddress addr with
    | none => usableAddresses host infos
    | some ip => do
      raiseIf ip.isBlocked (.ssrf ("blocked resolved address " ++ String.ofList addr ++
        " for host " ++ String.ofList host))
      let resolved ← usableAddresses host infos
      pure (addr :: resolved)

def resolveAndValidateHost (hostname : Text) (port : Option Nat) (tenantId : Option Text) :
    Fetcher (List Text) := do
  let host := w.casing.normalise hostname
  raiseIf (host = []) (.ssrf "empty hostname")
  raiseIf (host ∈ metadataHosts) (.ssrf ("blocked metadata host: " ++ String.ofList host))
  raiseIf ((w.hostAllowlist tenantId).any (host ∉ ·))
    (.ssrf ("host not in NSA_MCP_BROWSER_HOST_ALLOWLIST: " ++ String.ofList host))
  match ipAddress host with
  | some ip =>
    raiseIf ip.isBlocked (.ssrf ("blocked address: " ++ String.ofList host))
    pure [host]
  | none =>
    let infos ← w.lookup host (port.getD 0)
    let resolved ← usableAddresses host infos
    raiseIf (resolved = []) (.ssrf ("no usable addresses for " ++ String.ofList host))
    pure resolved

-- ------ URLs

def validateUrlSsrf (url : Text) (tenantId : Option Text) : Fetcher Text := do
  raiseIf (url = []) (.ssrf "url is required")
  let raw := strip url
  let parsed ← orValueError (w.urlparse raw)
  let scheme := w.casing.lower parsed.scheme
  raiseIf (scheme ∈ [text "file", text "ftp", text "data", text "javascript"])
    (.ssrf ("blocked scheme: " ++ String.ofList scheme))
  raiseIf (scheme ∉ [text "http", text "https"])
    (.ssrf "url must be an absolute http(s) URL, e.g. \"https://example.com\"")
  raiseIf (parsed.username.any (· ≠ []) ∨ parsed.password.any (· ≠ []))
    (.ssrf "URL userinfo is not allowed")
  let host := parsed.hostname.getD []
  raiseIf (host = []) (.ssrf "URL missing hostname")
  let port ← orValueError parsed.port
  let _ ← w.resolveAndValidateHost host port tenantId
  pure raw

def pinUrlToResolvedIp (url : Text) (tenantId : Option Text) :
    Fetcher (ConnectUrl × Text × List Text) := do
  let validated ← w.validateUrlSsrf url tenantId
  let parsed ← orValueError (w.urlparse validated)
  let host := parsed.hostname.getD []
  let port ← orValueError parsed.port
  let ips ← w.resolveAndValidateHost host port tenantId
  if (ipAddress host).isSome then pure (.asGiven validated, host, ips)
  else pure (.pinned parsed (ips.headD []) (port.filter (0 < ·)), host, ips)

def hostLiteral : ConnectUrl → Option Text
  | .asGiven url => (w.urlparse url).toOption.bind (·.hostname)
  | .pinned _ ip _ => some ip

def dialled (url : ConnectUrl) : Option IpAddress := (w.hostLiteral url).bind ipAddress

-- ------ The fetch

/-- `body` and `encoding` of a result. -/
inductive Body where
  | utf8 (text : String)
  | base64 (raw : List UInt8)

structure FetchResult where
  url : Text
  statusCode : Nat
  contentType : String
  truncated : Bool
  body : Body
  pinnedHost : Text

/-- The end of a call whose response is no redirect. -/
def finish (maxBytes : Nat) (current host : Text) (resp : Response) : Fetcher FetchResult := do
  raiseIf (¬ (200 ≤ resp.statusCode ∧ resp.statusCode ≤ 299))
    (.value ("HTTP " ++ toString resp.statusCode ++ " fetching " ++ String.ofList current))
  let raw := resp.content.take maxBytes
  pure
    { url := current
      statusCode := resp.statusCode
      contentType := resp.contentType.getD "application/octet-stream"
      truncated := maxBytes < (resp.content.take (maxBytes + 1)).length
      body := match String.fromUTF8? ⟨raw.toArray⟩ with
        | some text => .utf8 text
        | none => .base64 raw
      pinnedHost := host }

/-- `client.get`. -/
def send (q : Request) : Fetcher Response := do
  let answer ← modifyGet fun s =>
    (w.respond s.requests.length, { s with requests := s.requests ++ [q] })
  match answer with
  | .ok resp => pure resp
  | .error e => throw (.client e)

def pass (tenantId : Option Text) (maxBytes : Nat) (maxRedirects : Int) (current : Text)
    (redirects : Nat) : Fetcher (FetchResult ⊕ Text) := do
  let (connectUrl, host, _) ← w.pinUrlToResolvedIp current tenantId
  let resp ← w.send { url := connectUrl, host }
  if 300 ≤ resp.statusCode ∧ resp.statusCode ≤ 399 then
    raiseIf (maxRedirects < redirects + 1)
      (.ssrf ("too many redirects (>" ++ toString maxRedirects ++ ")"))
    let loc := resp.location.getD []
    raiseIf (loc = []) (.ssrf "redirect without Location")
    let next ← orValueError (w.join current loc)
    pure (.inr next)
  else
    let result ← finish maxBytes current host resp
    pure (.inl result)

/-- How the call has ended after `n` passes, if it has. -/
def fetchPasses (tenantId : Option Text) (maxBytes : Nat) (maxRedirects : Int) :
    Nat → Text → Nat → Session → Option (EStateM.Result FetchError Session FetchResult)
  | 0, _, _, _ => none
  | n + 1, current, redirects, s =>
    match (w.pass tenantId maxBytes maxRedirects current redirects).run s with
    | .ok (.inl result) s' => some (.ok result s')
    | .ok (.inr next) s' => fetchPasses tenantId maxBytes maxRedirects n next (redirects + 1) s'
    | .error e s' => some (.error e s')

/-- `fetch_url_ssrf_safe`, if it ends within `n` passes of its loop. -/
def fetchUrlSsrfSafe (n : Nat) (url : Text) (maxBytes : Nat) (maxRedirects : Int)
    (tenantId : Option Text) : Option (EStateM.Result FetchError Session FetchResult) :=
  w.fetchPasses tenantId maxBytes maxRedirects n (strip url) 0 {}

end World

end Neuroswarm.Mcp

/-!
## What the fetcher dials

The invariant of the loop over redirects: every request that was sent is for a host the policy
allows and dials an address that is not blocked, with one exception, a literal whose scope id is
lost when the host is normalised (`HasUncheckedLiteral`). `ssrfSafe_iff` is the statement over
whole calls.
-/

namespace Neuroswarm.Mcp

open Armcascade (Text isSpace)
open EStateM

variable {s : Session}

-- ------ Parts that send nothing

/-- The program sends no request and returns only with `Q`. -/
def Sends (m : Fetcher α) (Q : α → Prop) : Prop :=
  ∀ s, Ends m s (fun a s' => s'.requests = s.requests ∧ Q a) fun _ s' => s'.requests = s.requests

theorem sends_pure {α : Type} {a : α} {Q : α → Prop} (h : Q a) : Sends (pure a) Q :=
  fun _ => ends_pure ⟨rfl, h⟩

theorem sends_throw {α : Type} {Q : α → Prop} (e : FetchError) : Sends (throw e : Fetcher α) Q :=
  fun _ => ends_throw rfl

theorem sends_bind {α β : Type} {m : Fetcher α} {f : α → Fetcher β} {Q : α → Prop} {Q' : β → Prop}
    (hm : Sends m Q) (hf : ∀ a, Q a → Sends (f a) Q') : Sends (m >>= f) Q' := by
  intro s
  refine ends_bind (hm s) fun a s' hFirst => ?_
  refine (hf a hFirst.2 s').mono (fun b s'' h => ?_) fun e s'' h => ?_
  · exact ⟨h.1.trans hFirst.1, h.2⟩
  · exact h.trans hFirst.1

theorem sends_raiseIf {c : Prop} [Decidable c] (e : FetchError) :
    Sends (raiseIf c e) fun _ => ¬ c := by
  unfold raiseIf
  split
  · exact sends_throw e
  · next h => exact sends_pure h

theorem sends_orValueError {α : Type} (x : Except String α) :
    Sends (orValueError x) fun a => x = .ok a := by
  cases x with
  | ok a => exact sends_pure rfl
  | error e => exact sends_throw _

/-- An address that can be read and is not blocked. -/
def IsSafeAddress (addr : Text) : Prop := ∃ ip, ipAddress addr = some ip ∧ ip.isBlocked = false

theorem sends_usableAddresses (host : Text) (infos : List Text) :
    Sends (World.usableAddresses host infos) fun ips => ∀ ip ∈ ips, IsSafeAddress ip := by
  induction infos with
  | nil => exact sends_pure fun ip hip => absurd hip List.not_mem_nil
  | cons addr infos ih =>
    unfold World.usableAddresses
    split
    · exact ih
    · next ip hip =>
      refine sends_bind (sends_raiseIf _) fun _ hSafe => sends_bind ih fun ips hips => ?_
      refine sends_pure fun a ha => ?_
      rcases List.mem_cons.mp ha with rfl | ha
      · exact ⟨ip, hip, Bool.eq_false_iff.mpr hSafe⟩
      · exact hips a ha

namespace World

variable (w : World)

theorem sends_lookup (host : Text) (port : Nat) : Sends (w.lookup host port) fun _ => True := by
  have hCount : Sends (modifyGet fun s : Session =>
      (w.getaddrinfo s.lookups host port, { s with lookups := s.lookups + 1 }))
      fun _ => True := fun _ => ⟨rfl, trivial⟩
  refine sends_bind hCount fun answer _ => ?_
  match answer with
  | .ok addresses => exact sends_pure trivial
  | .error (.gai e) => exact sends_throw _
  | .error (.other e) => exact sends_throw _

/-- The policy lets the host through. -/
def Allows (tenantId : Option Text) (hostname : Text) : Prop :=
  ∀ allow, w.hostAllowlist tenantId = some allow → w.casing.normalise hostname ∈ allow

structure Validated (tenantId : Option Text) (hostname : Text) (ips : List Text) : Prop where
  allowed : w.Allows tenantId hostname
  nonempty : ips ≠ []
  safe : ∀ ip ∈ ips, IsSafeAddress ip
  literal : ∀ ip, ipAddress (w.casing.normalise hostname) = some ip → ip.isBlocked = false

theorem sends_resolveAndValidateHost (hostname : Text) (port : Option Nat)
    (tenantId : Option Text) :
    Sends (w.resolveAndValidateHost hostname port tenantId)
      (w.Validated tenantId hostname) := by
  unfold resolveAndValidateHost
  dsimp only
  refine sends_bind (sends_raiseIf _) fun _ _ => sends_bind (sends_raiseIf _) fun _ _ =>
    sends_bind (sends_raiseIf _) fun _ hAllowed => ?_
  have hAllows : w.Allows tenantId hostname := by
    intro allow hAllow
    rw [hAllow] at hAllowed
    simpa using hAllowed
  split
  · next ip hip =>
    refine sends_bind (sends_raiseIf _) fun _ hSafe => sends_pure ⟨hAllows, by simp, ?_, ?_⟩
    · intro addr hAddr
      rw [List.mem_singleton.mp hAddr]
      exact ⟨ip, hip, Bool.eq_false_iff.mpr hSafe⟩
    · intro ip' hip'
      cases hip.symm.trans hip'
      exact Bool.eq_false_iff.mpr hSafe
  · next hName =>
    refine sends_bind (w.sends_lookup _ _) fun infos _ =>
      sends_bind (sends_usableAddresses _ infos) fun ips hips =>
        sends_bind (sends_raiseIf _) fun _ hNonempty => sends_pure ⟨hAllows, hNonempty, hips, ?_⟩
    intro ip hip
    cases hName.symm.trans hip

theorem sends_validateUrlSsrf (url : Text) (tenantId : Option Text) :
    Sends (w.validateUrlSsrf url tenantId) fun _ => True := by
  unfold validateUrlSsrf
  dsimp only
  refine sends_bind (sends_raiseIf _) fun _ _ => sends_bind (sends_orValueError _) fun parsed _ =>
    sends_bind (sends_raiseIf _) fun _ _ => sends_bind (sends_raiseIf _) fun _ _ =>
      sends_bind (sends_raiseIf _) fun _ _ => sends_bind (sends_raiseIf _) fun _ _ =>
        sends_bind (sends_orValueError _) fun port _ => ?_
  exact sends_bind (w.sends_resolveAndValidateHost _ _ _) fun _ _ => sends_pure trivial

-- ------ What a request dials

def HasUncheckedLiteral (host : Text) : Prop :=
  ∃ ip scopeId, ipAddress host = some (.v6 ip (some scopeId)) ∧ IsHollow scopeId ∧
    (IpAddress.v6 ip (some scopeId)).isBlocked = true

/-- What holds of every request that is sent. -/
structure Pinned (tenantId : Option Text) (q : Request) : Prop where
  allowed : w.Allows tenantId q.host
  dials : ∃ ip, w.dialled q.url = some ip ∧ (ip.isBlocked = true → HasUncheckedLiteral q.host)
  literal : ∀ ip, ipAddress q.host = some ip → w.dialled q.url = some ip

theorem sends_pinUrlToResolvedIp (url : Text) (tenantId : Option Text) :
    Sends (w.pinUrlToResolvedIp url tenantId) fun r => w.Pinned tenantId ⟨r.1, r.2.1⟩ := by
  unfold pinUrlToResolvedIp
  refine sends_bind (w.sends_validateUrlSsrf url tenantId) fun validated _ =>
    sends_bind (sends_orValueError _) fun parsed hParsed =>
      sends_bind (sends_orValueError _) fun port _ =>
        sends_bind (w.sends_resolveAndValidateHost _ _ _) fun ips hValidated => ?_
  split
  · next hLiteral =>
    obtain ⟨ip, hip⟩ := Option.isSome_iff_exists.mp hLiteral
    have hHostname : parsed.hostname = some (parsed.hostname.getD []) := by
      cases hName : parsed.hostname with
      | some name => rfl
      | none =>
        rw [hName] at hip
        cases hip
    have hDialled : w.dialled (.asGiven validated) = some ip := by
      show ((w.urlparse validated).toOption.bind (·.hostname)).bind ipAddress = some ip
      rw [hParsed]
      show parsed.hostname.bind ipAddress = some ip
      rw [hHostname]
      exact hip
    refine sends_pure ⟨hValidated.allowed, ⟨ip, hDialled, fun hBlocked => ?_⟩, ?_⟩
    · rcases ipAddress_normalise w.casing hip with ⟨b, hb, hSame⟩ | ⟨n, scopeId, rfl, hHollow⟩
      · rw [hValidated.literal b hb] at hSame
        rw [← hSame] at hBlocked
        cases hBlocked
      · exact ⟨n, scopeId, hip, hHollow, hBlocked⟩
    · intro ip' hip'
      cases hip.symm.trans hip'
      exact hDialled
  · next hName =>
    obtain ⟨first, rest, hips⟩ := List.exists_cons_of_ne_nil hValidated.nonempty
    obtain ⟨ip, hip, hSafe⟩ := hValidated.safe first (by simp [hips])
    refine sends_pure ⟨hValidated.allowed, ⟨ip, ?_, fun hBlocked => ?_⟩, ?_⟩
    · rw [hips]
      exact hip
    · rw [hSafe] at hBlocked
      cases hBlocked
    · intro ip' hip'
      exact absurd (hip' ▸ rfl) hName

-- ------ The loop

/-- The requests that were sent are those of `before` and at most one more, which is pinned. -/
def SendsOne (tenantId : Option Text) (before after : List Request) : Prop :=
  ∃ q, after = before ++ [q] ∧ w.Pinned tenantId q

variable {tenantId : Option Text} {maxBytes : Nat} {maxRedirects : Int}

theorem finish_ends (current host : Text) (resp : Response) :
    Sends (finish maxBytes current host resp) fun _ => True := by
  unfold finish
  exact sends_bind (sends_raiseIf _) fun _ _ => sends_pure trivial

theorem send_ends (q : Request) (s : Session) :
    Ends (w.send q) s (fun _ s' => s'.requests = s.requests ++ [q])
      fun _ s' => s'.requests = s.requests ++ [q] := by
  have hSent : Ends (modifyGet fun s : Session =>
      (w.respond s.requests.length, { s with requests := s.requests ++ [q] }) : Fetcher _) s
      (fun _ s' => s'.requests = s.requests ++ [q])
      fun _ s' => s'.requests = s.requests ++ [q] := rfl
  refine ends_bind hSent fun answer s' h => ?_
  match answer with
  | .ok resp => exact ends_pure h
  | .error e => exact ends_throw h

theorem pass_ends (current : Text) (redirects : Nat) (s : Session) :
    Ends (w.pass tenantId maxBytes maxRedirects current redirects) s
      (fun o s' => w.SendsOne tenantId s.requests s'.requests ∧
        ∀ next, o = .inr next → (redirects + 1 : Int) ≤ maxRedirects)
      fun _ s' => s'.requests = s.requests ∨ w.SendsOne tenantId s.requests s'.requests := by
  unfold pass
  refine ends_bind ((w.sends_pinUrlToResolvedIp current tenantId s).raising fun _ _ => .inl) ?_
  rintro ⟨connectUrl, host, ips⟩ s₁ ⟨hBefore, hPinned⟩
  have hOne : ∀ s₂ : Session, s₂.requests = s₁.requests ++ [⟨connectUrl, host⟩] →
      w.SendsOne tenantId s.requests s₂.requests := by
    intro s₂ h
    exact ⟨⟨connectUrl, host⟩, by rw [h, hBefore], hPinned⟩
  refine ends_bind ((w.send_ends ⟨connectUrl, host⟩ s₁).raising fun _ s₂ h => .inr (hOne s₂ h)) ?_
  intro resp s₂ hSent
  dsimp only
  -- the rest of the pass sends nothing
  have hRest : Sends (if 300 ≤ resp.statusCode ∧ resp.statusCode ≤ 399 then do
        raiseIf (maxRedirects < redirects + 1)
          (.ssrf ("too many redirects (>" ++ toString maxRedirects ++ ")"))
        raiseIf (resp.location.getD [] = []) (.ssrf "redirect without Location")
        let next ← orValueError (w.join current (resp.location.getD []))
        pure (.inr next)
      else do
        let result ← finish maxBytes current host resp
        pure (.inl result) : Fetcher (FetchResult ⊕ Text))
      fun o => ∀ next, o = .inr next → (redirects + 1 : Int) ≤ maxRedirects := by
    split
    · refine sends_bind (sends_raiseIf _) fun _ hLeft => sends_bind (sends_raiseIf _) fun _ _ =>
        sends_bind (sends_orValueError _) fun next _ => sends_pure fun _ _ => ?_
      omega
    · refine sends_bind (finish_ends current host resp) fun result _ => sends_pure ?_
      intro next hNext
      cases hNext
  refine (hRest s₂).mono (fun o s₃ h => ⟨?_, h.2⟩) fun _ s₃ h => .inr ?_
  · exact hOne s₃ (h.1.trans hSent)
  · exact hOne s₃ (h.trans hSent)

/-- What holds of the requests that have been sent before a pass. -/
def AllPinned (tenantId : Option Text) (requests : List Request) : Prop :=
  ∀ q ∈ requests, w.Pinned tenantId q

variable {w}

theorem SendsOne.allPinned {before after : List Request}
    (h : w.SendsOne tenantId before after) (hBefore : w.AllPinned tenantId before) :
    w.AllPinned tenantId after := by
  obtain ⟨q, rfl, hq⟩ := h
  intro q' hq'
  rcases List.mem_append.mp hq' with hq' | hq'
  · exact hBefore q' hq'
  · exact List.mem_singleton.mp hq' ▸ hq

theorem SendsOne.length {before after : List Request} (h : w.SendsOne tenantId before after) :
    after.length = before.length + 1 := by
  obtain ⟨q, rfl, -⟩ := h
  rw [List.length_append, List.length_singleton]

variable (w)

theorem fetchPasses_ends (n : Nat) {current : Text} {redirects : Nat} {s : Session}
    (hRedirects : redirects ≤ maxRedirects.toNat) (hLeft : maxRedirects.toNat < redirects + n)
    (hPinned : w.AllPinned tenantId s.requests) (hLength : s.requests.length ≤ redirects) :
    ∃ r, w.fetchPasses tenantId maxBytes maxRedirects n current redirects s = some r ∧
      w.AllPinned tenantId r.state.requests ∧
      r.state.requests.length ≤ maxRedirects.toNat + 1 := by
  induction n generalizing current redirects s with
  | zero => omega
  | succ n ih =>
    have hPass := @w.pass_ends tenantId maxBytes maxRedirects current redirects s
    unfold fetchPasses
    split
    · next result s' hRun =>
      have hOne := (hPass.ok hRun).1
      refine ⟨_, rfl, hOne.allPinned hPinned, ?_⟩
      have hOneLength := hOne.length
      show s'.requests.length ≤ _
      omega
    · next next s' hRun =>
      obtain ⟨hOne, hNext⟩ := hPass.ok hRun
      have hMore := hNext next rfl
      have hOneLength := hOne.length
      exact ih (by omega) (by omega) (hOne.allPinned hPinned) (by omega)
    · next e s' hRun =>
      refine ⟨_, rfl, ?_⟩
      show w.AllPinned tenantId s'.requests ∧ s'.requests.length ≤ _
      rcases hPass.error hRun with hNone | hOne
      · rw [hNone]
        exact ⟨hPinned, by omega⟩
      · have hOneLength := hOne.length
        exact ⟨hOne.allPinned hPinned, by omega⟩

theorem fetchPasses_succ {n : Nat} {current : Text} {redirects : Nat} {s : Session}
    {r : EStateM.Result FetchError Session FetchResult}
    (h : w.fetchPasses tenantId maxBytes maxRedirects n current redirects s = some r) :
    w.fetchPasses tenantId maxBytes maxRedirects (n + 1) current redirects s = some r := by
  induction n generalizing current redirects s with
  | zero => cases h
  | succ n ih =>
    unfold fetchPasses at h ⊢
    split at h
    · exact h
    · exact ih h
    · exact h

/-- How the call ends. -/
def FetchEnds (url : Text) (maxBytes : Nat) (maxRedirects : Int) (tenantId : Option Text)
    (r : EStateM.Result FetchError Session FetchResult) : Prop :=
  ∃ n, w.fetchUrlSsrfSafe n url maxBytes maxRedirects tenantId = some r

theorem fetchEnds_unique {url : Text} {r r' : EStateM.Result FetchError Session FetchResult}
    (h : w.FetchEnds url maxBytes maxRedirects tenantId r)
    (h' : w.FetchEnds url maxBytes maxRedirects tenantId r') : r = r' := by
  obtain ⟨n, hn⟩ := h
  obtain ⟨n', hn'⟩ := h'
  have hMore : ∀ {m k : Nat} {r : EStateM.Result FetchError Session FetchResult}, m ≤ k →
      w.fetchUrlSsrfSafe m url maxBytes maxRedirects tenantId = some r →
      w.fetchUrlSsrfSafe k url maxBytes maxRedirects tenantId = some r := by
    intro m k r hmk hm
    induction k, hmk using Nat.le_induction with
    | base => exact hm
    | succ k _ ih => exact w.fetchPasses_succ ih
  have hLeft := hMore (Nat.le_max_left n n') hn
  have hRight := hMore (Nat.le_max_right n n') hn'
  exact Option.some.inj (hLeft.symm.trans hRight)

/-- The call ends, has sent one request and one for each redirect at most, all of them for hosts
the policy allows and to addresses that are not blocked. -/
def SsrfSafe (url : Text) (maxBytes : Nat) (maxRedirects : Int) (tenantId : Option Text) : Prop :=
  ∃ r, w.FetchEnds url maxBytes maxRedirects tenantId r ∧
    r.state.requests.length ≤ maxRedirects.toNat + 1 ∧
    ∀ q ∈ r.state.requests, w.Allows tenantId q.host ∧
      ∃ ip, w.dialled q.url = some ip ∧ ip.isBlocked = false

/-- A resolver that answers every name with one public address. -/
def hollowWorld : World where
  urlparse := fun _ =>
    .ok { scheme := text "http", hostname := some (text "::1%."), rest := text "/" }
  join := fun _ _ => .error "no redirect"
  getaddrinfo := fun _ _ _ => .ok [text "93.184.216.34"]
  respond := fun _ => .ok {}

end World

end Neuroswarm.Mcp
