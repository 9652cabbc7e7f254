import PlexusTransport.Http.Bridge

/-! # The admission key and the session validator

Over REST the static key and a session token share the Authorization header;
on the upgrade the key has a header of its own. What each hands the validator.
-/

namespace PlexusTransport.Http.Admission

open Http Text Websocket CombinedAuthMiddleware

/-- `auth_middleware`: what a REST request without the key is answered. -/
def authMiddleware (apiKey : Option Text) (h : HeaderMap) : Option Response :=
  match apiKey with
  | none => none
  | some key =>
      let expected := "Bearer ".toList ++ key
      let ok := (firstText h "authorization").any (· == expected)
      if ok then none
      else
        some ⟨401, [("content-type", "text/plain; charset=utf-8"),
          ("www-authenticate", "Bearer realm=\"plexus\"")], "Unauthorized"⟩

/-- A credential handed to the validator. -/
inductive Asked where
  | cookie (line : Text)
  | bearer (token : Text)
  deriving DecidableEq, Repr

def Asked.credential : Asked → Text
  | .cookie line => line
  | .bearer token => token

/-- The cookie, and the bearer token when the cookie proves no one. -/
def tried (validator : SessionValidator) (cookie bearer : Option Text) : List Asked :=
  (cookie.map Asked.cookie).toList ++
    if (cookie.bind validator).isSome then [] else (bearer.map Asked.bearer).toList

/-- The checks up to the static key's are passed, the key's the last of them. -/
def admits (m : CombinedAuthMiddleware) (request : Request) : Bool :=
  (Host.refused m.allowedHosts request).isNone && (m.policy.metadataResponse request).isNone &&
    (originRefused m.allowedOrigins request.headers).isNone && (m.keyRefused request.headers).isNone

/-- What an upgrade asks its validator. -/
def askedUpgrade (m : CombinedAuthMiddleware) (request : Request) : List Asked :=
  match admits m request, m.sessionValidator with
  | true, some validator =>
      tried validator (cookieValue request.headers) (bearerToken request.headers)
  | _, _ => []

/-- What a REST call asks its validator, `apiKey` being the key it is served behind. -/
def askedRest (validator : Option SessionValidator) (apiKey : Option Text) (h : HeaderMap) :
    List Asked :=
  match authMiddleware apiKey h, validator with
  | none, some validator => tried validator (firstText h "cookie") (Bridge.bearer apiKey h)
  | _, _ => []

section Tried

variable {validator other : SessionValidator} {cookie bearer : Option Text}

/-- Two validators that agree on what is tried prove the same caller. -/
theorem tried_congr (same : ∀ a ∈ tried validator cookie bearer,
    other a.credential = validator a.credential) :
    cookie.bind other = cookie.bind validator ∧
      (cookie.bind validator = none → bearer.bind other = bearer.bind validator) := by
  constructor
  · cases cookie with
    | none => rfl
    | some line => exact same (.cookie line) (by simp [tried])
  · intro nobody
    cases bearer with
    | none => rfl
    | some token => exact same (.bearer token) (by simp [tried, nobody])

theorem bearer_mem_tried {token : Text} :
    .bearer token ∈ tried validator cookie bearer ↔
      cookie.bind validator = none ∧ bearer = some token := by
  cases cookie <;> cases bearer <;> cases proved : Option.bind _ validator <;>
    simp_all [tried, eq_comm]

end Tried

section Upgrade

variable {m : CombinedAuthMiddleware} {validator other : SessionValidator} {r : Request}

theorem authCtx_congr {h : HeaderMap} (same : ∀ a ∈ tried validator (cookieValue h) (bearerToken h),
    other a.credential = validator a.credential) : authCtx other h = authCtx validator h := by
  obtain ⟨cookie, bearer⟩ := tried_congr same
  rw [authCtx, authCtx, cookie]
  cases proved : (cookieValue h).bind validator with
  | some ctx => rfl
  | none => rw [bearer proved]

/-- An upgrade's answer depends on its validator by what it asks alone. -/
theorem call_congr (configured : m.sessionValidator = some validator)
    (same : ∀ a ∈ askedUpgrade m r, other a.credential = validator a.credential) (counts : Open) :
    ({ m with sessionValidator := some other }).call counts r = m.call counts r := by
  have key : ({ m with sessionValidator := some other } : CombinedAuthMiddleware).keyRefused
      r.headers = m.keyRefused r.headers := by
    simp only [keyRefused, configured, Option.isNone_some]
  unfold call
  simp only [configured, key]
  cases host : Host.refused m.allowedHosts r with
  | some _ => rfl
  | none =>
      cases asked : m.policy.metadataResponse r with
      | some _ => rfl
      | none =>
          cases origin : originRefused m.allowedOrigins r.headers with
          | some _ => rfl
          | none =>
              cases refused : m.keyRefused r.headers with
              | some _ => rfl
              | none =>
                  have passed : admits m r = true := by simp [admits, host, asked, origin, refused]
                  simp only [askedUpgrade, passed, configured] at same
                  simp only [session, authCtx_congr same]
                  rfl

end Upgrade

/-- A REST call's caller depends on its validator by what it asks alone. -/
theorem identify_congr {validator other : SessionValidator} {apiKey : Option Text} {h : HeaderMap}
    (passed : authMiddleware apiKey h = none)
    (same : ∀ a ∈ askedRest (some validator) apiKey h, other a.credential = validator a.credential) :
    Bridge.identify (some other) apiKey h = Bridge.identify (some validator) apiKey h := by
  simp only [askedRest, passed] at same
  obtain ⟨cookie, bearer⟩ := tried_congr same
  simp only [Bridge.identify, cookie]
  cases proved : (firstText h "cookie").bind validator with
  | some ctx => rfl
  | none =>
      have again := bearer proved
      cases token : Bridge.bearer apiKey h with
      | none => rfl
      | some t =>
          rw [token] at again
          simp only [Option.bind_some] at again
          simp only [again]

/-- REST reads no bearer token that is the key. -/
theorem bearer_ne_key (key : Text) (h : HeaderMap) : Bridge.bearer (some key) h ≠ some key := by
  intro read
  obtain ⟨-, different⟩ := Option.filter_eq_some_iff.mp read
  simp at different

/-- Behind the key, the validator is never asked about the key as a bearer token over REST; on
    the upgrade it is, when the request carries the key as one too and its cookie proves no one. -/
theorem asked_keyless (key : Text) (validator : SessionValidator) :
    (∀ (m : CombinedAuthMiddleware) (r : Request), m.apiKey = some key →
      m.sessionValidator = some validator → admits m r = true →
        ((∀ token, .bearer token ∈ askedUpgrade m r → token ≠ key) ↔
          Bridge.CookieAccepted validator r.headers ∨
            firstText r.headers "authorization" ≠ some ("Bearer ".toList ++ key))) ∧
      ∀ h : HeaderMap, authMiddleware (some key) h = none →
        ∀ token, .bearer token ∈ askedRest (some validator) (some key) h → token ≠ key := by
  constructor
  · intro m r _ configured passed
    have cookie : (cookieValue r.headers).bind validator = none ↔
        ¬ Bridge.CookieAccepted validator r.headers := by
      rw [cookieValue]
      cases line : firstText r.headers "cookie" <;> simp [Bridge.CookieAccepted, line]
    have bearer : bearerToken r.headers = some key ↔
        firstText r.headers "authorization" = some ("Bearer ".toList ++ key) := by
      rw [bearerToken]
      cases line : firstText r.headers "authorization" <;> simp [stripBearer, stripPrefix_eq_some]
    simp only [askedUpgrade, passed, configured, bearer_mem_tried, cookie]
    constructor
    · intro never
      rw [or_iff_not_imp_left]
      intro nobody spelled
      exact never key ⟨nobody, bearer.mpr spelled⟩ rfl
    · rintro proved token ⟨nobody, read⟩ rfl
      rcases proved with accepted | other
      · exact nobody accepted
      · exact other (bearer.mp read)
  · intro h passed token asked
    simp only [askedRest, passed, bearer_mem_tried] at asked
    rintro rfl
    exact bearer_ne_key token h asked.2

/-- A server with a static key and a session validator. -/
def keyedSessions (key : Text) (validator : SessionValidator) : CombinedAuthMiddleware :=
  { Bridge.sessionsOnly validator with apiKey := some key, apiKeyHeader := "x-plexus-api-key" }

/-- The key in its own header, and a session token. -/
def apart : Request :=
  { Bridge.lowerScheme with
    headers := ⟨[("x-plexus-api-key", ⟨ascii "k3y", by decide +kernel⟩),
      ("authorization", ⟨ascii "Bearer s3cret", Bridge.valid_s3cret⟩)]⟩ }

/-- The key in its own header, and as a bearer token too. -/
def twice : Request :=
  { Bridge.lowerScheme with
    headers := ⟨[("x-plexus-api-key", ⟨ascii "k3y", by decide +kernel⟩),
      ("authorization", ⟨ascii "Bearer k3y", by decide +kernel⟩)]⟩ }

theorem asked_keyless_apart :
    .bearer "k3y".toList ∉ askedUpgrade (keyedSessions "k3y".toList Bridge.oneToken) apart ∧
      .bearer "k3y".toList ∉
        askedRest (some Bridge.oneToken) (some "k3y".toList) twice.headers := by
  obtain ⟨upgrade, rest⟩ := asked_keyless "k3y".toList Bridge.oneToken
  have passed : admits (keyedSessions "k3y".toList Bridge.oneToken) apart = true := by
    decide +kernel
  have other : firstText apart.headers "authorization" ≠
      some ("Bearer ".toList ++ "k3y".toList) := by decide +kernel
  have never := (upgrade _ apart rfl rfl passed).mpr (.inr other)
  exact ⟨fun asked => never _ asked rfl,
    fun asked => rest twice.headers (by decide +kernel) _ asked rfl⟩

theorem asked_keyless_twice :
    ¬ ∀ (key : Text) (validator : SessionValidator),
      (∀ (m : CombinedAuthMiddleware) (r : Request), m.apiKey = some key →
        m.sessionValidator = some validator → admits m r = true →
          ∀ token, .bearer token ∈ askedUpgrade m r → token ≠ key) ∧
        ∀ h : HeaderMap, authMiddleware (some key) h = none →
          ∀ token, .bearer token ∈ askedRest (some validator) (some key) h → token ≠ key := by
  intro never
  have passed : admits (keyedSessions "k3y".toList Bridge.oneToken) twice = true := by
    decide +kernel
  have asked : askedUpgrade (keyedSessions "k3y".toList Bridge.oneToken) twice =
      [.bearer "k3y".toList] := by decide +kernel
  have handed : .bearer "k3y".toList ∈ askedUpgrade (keyedSessions "k3y".toList Bridge.oneToken)
      twice := by
    rw [asked]
    exact .head _
  exact (never "k3y".toList Bridge.oneToken).1 _ twice rfl rfl passed "k3y".toList handed rfl

end PlexusTransport.Http.Admission
