import PlexusTransport.Host
import PlexusTransport.Proxy
import PlexusTransport.Websocket.Quotas

/-! # The checks before an upgrade

`CombinedAuthMiddleware`: the host, the protected-resource metadata, the
origin, the static api key, the session and the quotas, in that order.
-/

namespace PlexusTransport.Websocket

open Http Net Proxy Text

/-- Who a session validator says a credential is. -/
structure AuthContext where
  userId : String
  sessionId : String
  principal : Option String
  deriving DecidableEq, Repr

abbrev SessionValidator : Type := Text → Option AuthContext

/-- RFC 9728 metadata as served: its path, its URL, the document. -/
structure Prepared where
  path : Text
  url : String
  body : String

structure Policy where
  anonymousView : Bool
  credentialCookies : List Text
  metadata : Option Prepared

structure CombinedAuthMiddleware where
  apiKey : Option Text
  apiKeyHeader : String
  sessionValidator : Option SessionValidator
  rejectOnSessionFailure : Bool
  allowedOrigins : List Text
  allowedHosts : List Text
  policy : Policy
  quotas : Option Quotas
  proxies : TrustedProxies

/-- What a request that is passed on carries: the forwarded client, its place in the
    quotas, who it is, and whether its sign-in is watched. -/
structure Passed where
  client : Option ForwardedClient
  permit : Option QuotaPermit
  ctx : Option AuthContext
  watched : Bool
  deriving DecidableEq, Repr

inductive Answer where
  | respond (r : Response)
  | pass (p : Passed)
  deriving DecidableEq, Repr

/-- Who a request on `conn` comes from: TLS ended here is secure from the peer. -/
def clientOf (proxies : TrustedProxies) (conn : Connection) (h : HeaderMap) : ForwardedClient :=
  let client := proxies.resolve conn.peer h
  if conn.tls && !client.viaProxy then { client with secure := true } else client

def tooMany (l : ConnectionQuotas) (ip : IpAddr) (full : Full) : Response :=
  ⟨429, [("retry-after", "5"), ("content-type", "text/plain")],
    s!"Too many connections: {full.text l ip.display}"⟩

/-- An upgrade takes its place in the quotas, as `principal` or anonymous. -/
def takeQuota (quotas : Option Quotas) (counts : Open) (request : Request)
    (client : Option ForwardedClient) (principal : Option String) :
    Open × Except Response (Option QuotaPermit) :=
  match quotas with
  | none => (counts, .ok none)
  | some q =>
      if !isUpgradeRequest request then (counts, .ok none)
      else
        match (client.map (·.ip)).or (request.conn.map (·.peer)) with
        | none => (counts, .ok none)
        | some ip =>
            match q.admitSocket counts ip principal with
            | (counts, .ok permit) => (counts, .ok (some permit))
            | (counts, .error full) => (counts, .error (tooMany q.limits ip full))

/-- A cookie of these names, its value not empty, among a line's. -/
def declares (names : List Text) (line : Text) : Bool :=
  (line.splitOn ';').any fun pair =>
    match splitOnce '=' pair with
    | some (name, value) => !(trim value).isEmpty && names.contains (trim name)
    | none => false

namespace Policy

/-- An `Authorization` header of any scheme, or a declared credential cookie. -/
def presentsCredential (p : Policy) (h : HeaderMap) : Bool :=
  h.containsKey "authorization" ||
    ((h.getAll "cookie").filterMap (·.toStr)).any (declares p.credentialCookies)

def metadataResponse (p : Policy) (request : Request) : Option Response :=
  match p.metadata with
  | none => none
  | some m =>
      if request.method = "GET" ∧ trimEndMatches '/' request.path = m.path then
        some ⟨200, [("content-type", "application/json"), ("access-control-allow-origin", "*"),
          ("cache-control", "max-age=3600")], m.body⟩
      else none

end Policy

/-- A challenge that is no header value is replaced by the plain one. -/
def unauthorizedWith (body challenge : String) : Response :=
  let valid (c : Char) : Bool := (32 ≤ c.toNat && c.toNat != 127) || c == '\t'
  let challenge := if challenge.toList.all valid then challenge else "Bearer realm=\"plexus\""
  ⟨401, [("www-authenticate", challenge), ("content-type", "text/plain")], body⟩

def unauthorized (body : String) : Response := unauthorizedWith body "Bearer realm=\"plexus\""

def misdirected : Response := ⟨421, [("content-type", "text/plain")], Host.refusal⟩

def forbidden (body : String) : Response := ⟨403, [("content-type", "text/plain")], body⟩

/-- `invalid_token` when a credential was presented, and the metadata's URL. -/
def Policy.sessionUnauthorized (p : Policy) (body : String) (presented : Bool) : Response :=
  let challenge := "Bearer realm=\"plexus\""
  let challenge := if presented then challenge ++ ", error=\"invalid_token\"" else challenge
  let challenge :=
    match p.metadata with
    | some m => challenge ++ s!", resource_metadata=\"{m.url}\""
    | none => challenge
  unauthorizedWith body challenge

/-- An origin as compared: lowercase, no trailing slash. -/
def normalizeOrigin (origin : Text) : Text :=
  toAsciiLowercase (trimEndMatches '/' (trim origin))

/-- The origin, when an allow-list is set and it is named and not on it. -/
def originRefused (allowed : List Text) (h : HeaderMap) : Option Text :=
  if allowed.isEmpty then none
  else
    match h.get "origin" with
    | none => none
    | some v =>
        match v.toStr with
        | some origin => if allowed.any (· == normalizeOrigin origin) then none else some origin
        | none => some "<not text>".toList

/-- The first line of that name, if it is text. -/
def firstText (h : HeaderMap) (name : String) : Option Text := (h.get name).bind (·.toStr)

def stripBearer (value : Text) : Option Text := stripPrefix "Bearer ".toList value

namespace CombinedAuthMiddleware

/-- The static key, or, with no validator, the key as a bearer token. -/
def keyRefused (m : CombinedAuthMiddleware) (h : HeaderMap) : Option Response :=
  match m.apiKey with
  | none => none
  | some expected =>
      match firstText h m.apiKeyHeader with
      | some v => if v = expected then none else some (unauthorized "Unauthorized: api key invalid")
      | none =>
          let compatAttempted :=
            m.sessionValidator.isNone &&
              ((firstText h "authorization").bind stripBearer).any (· == expected)
          if compatAttempted then none else some (unauthorized "Unauthorized: api key required")

def cookieValue (h : HeaderMap) : Option Text := firstText h "cookie"

def bearerToken (h : HeaderMap) : Option Text := (firstText h "authorization").bind stripBearer

/-- The cookie wins; a bearer token is tried when it proves no one. -/
def authCtx (validator : SessionValidator) (h : HeaderMap) : Option AuthContext :=
  ((cookieValue h).bind validator).or ((bearerToken h).bind validator)

/-- Passed on within the quotas, as `principal`. -/
def passOn (m : CombinedAuthMiddleware) (counts : Open) (request : Request)
    (client : Option ForwardedClient) (ctx : Option AuthContext) : Open × Answer :=
  let principal := ctx.map fun c => c.principal.getD c.userId
  match takeQuota m.quotas counts request client principal with
  | (counts, .error refused) => (counts, .respond refused)
  | (counts, .ok permit) =>
      let watched := ctx.isSome && isUpgradeRequest request && request.conn.isSome
      (counts, .pass ⟨client, permit, ctx, watched⟩)

def session (m : CombinedAuthMiddleware) (validator : SessionValidator) (counts : Open)
    (request : Request) (client : Option ForwardedClient) : Open × Answer :=
  let attemptedInput := (cookieValue request.headers).isSome || (bearerToken request.headers).isSome
  let presented := m.policy.presentsCredential request.headers
  match authCtx validator request.headers with
  | some ctx => m.passOn counts request client (some ctx)
  | none =>
      if m.policy.anonymousView && presented then
        (counts, .respond
          (m.policy.sessionUnauthorized "Unauthorized: session invalid or expired" true))
      else if m.policy.anonymousView then m.passOn counts request client none
      else if m.rejectOnSessionFailure then
        let body :=
          if attemptedInput then "Unauthorized: session invalid or expired"
          else "Unauthorized: session cookie or bearer required"
        (counts, .respond (m.policy.sessionUnauthorized body attemptedInput))
      else m.passOn counts request client none

/-- `call`: the counts after it, and what becomes of the request. -/
def call (m : CombinedAuthMiddleware) (counts : Open) (request : Request) : Open × Answer :=
  let client := request.conn.map fun conn => clientOf m.proxies conn request.headers
  match Host.refused m.allowedHosts request with
  | some _ => (counts, .respond misdirected)
  | none =>
      match m.policy.metadataResponse request with
      | some r => (counts, .respond r)
      | none =>
          match originRefused m.allowedOrigins request.headers with
          | some _ => (counts, .respond (forbidden "Forbidden: origin not allowed"))
          | none =>
              match m.keyRefused request.headers with
              | some r => (counts, .respond r)
              | none =>
                  match m.sessionValidator with
                  | some validator => m.session validator counts request client
                  | none => m.passOn counts request client none

end CombinedAuthMiddleware

end PlexusTransport.Websocket
