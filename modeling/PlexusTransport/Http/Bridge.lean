import PlexusTransport.Websocket.Middleware

/-! # The REST bridge's caller

`identify` names the caller of a REST call from its headers, as `call` names
that of an upgrade: the cookie, then the bearer token, each to the validator.
-/

namespace PlexusTransport.Http.Bridge

open Http Text Websocket CombinedAuthMiddleware

/-- A typed refusal; this one is answered 401. -/
inductive RemoteError where
  | unauthenticated
  deriving DecidableEq, Repr

/-- The bearer token as REST reads it; the static api key is none. -/
def bearer (apiKey : Option Text) (h : HeaderMap) : Option Text :=
  (((firstText h "authorization").bind fun v =>
    (stripPrefix "Bearer ".toList v).or (stripPrefix "bearer ".toList v)).map trim).filter
      fun token => apiKey != some token

def identify (validator : Option SessionValidator) (apiKey : Option Text) (h : HeaderMap) :
    Except RemoteError (Option AuthContext) :=
  match validator with
  | none => .ok none
  | some validator =>
      match (firstText h "cookie").bind validator with
      | some ctx => .ok (some ctx)
      | none =>
          match bearer apiKey h with
          | some token =>
              match validator token with
              | some ctx => .ok (some ctx)
              | none => .error .unauthenticated
          | none => .ok none

/-- Who an answer's upgrade is attached to. -/
def attached : Answer → Option AuthContext
  | .respond _ => none
  | .pass p => p.ctx

def CookieAccepted (validator : SessionValidator) (h : HeaderMap) : Prop :=
  ∃ line, firstText h "cookie" = some line ∧ (validator line).isSome = true

/-- The header lines over which the two ways of reading a bearer token do not differ:
    the blanks around it do not matter to the validator, and no token it accepts has
    its scheme in lower case. -/
def Alike (validator : SessionValidator) (h : HeaderMap) : Prop :=
  ∀ line token, firstText h "authorization" = some line →
    (line = "Bearer ".toList ++ token → validator token = validator (trim token)) ∧
      (line = "bearer ".toList ++ token → validator (trim token) = none)

/-- Neither the cookie nor a bearer token of either spelling is accepted. -/
def Nameless (validator : SessionValidator) (h : HeaderMap) : Prop :=
  ¬ CookieAccepted validator h ∧
    ∀ line token, firstText h "authorization" = some line →
      line = "Bearer ".toList ++ token ∨ line = "bearer ".toList ++ token →
        validator (trim token) = none

/-- Who `identify` names. -/
def named (validator : SessionValidator) (h : HeaderMap) : Option AuthContext :=
  ((firstText h "cookie").bind validator).or ((bearer none h).bind validator)

theorem identify_eq_ok {validator : SessionValidator} {h : HeaderMap} {a : AuthContext} :
    identify (some validator) none h = .ok (some a) ↔ named validator h = some a := by
  cases cookie : (firstText h "cookie").bind validator with
  | some ctx => simp [identify, named, cookie]
  | none =>
      cases token : bearer none h with
      | none => simp [identify, named, cookie, token]
      | some t => cases accepted : validator t <;> simp [identify, named, cookie, token, accepted]

/-- The two spellings of the scheme are two. -/
theorem scheme_case (t t' : Text) : "Bearer ".toList ++ t ≠ "bearer ".toList ++ t' := by
  intro same
  cases (List.cons.inj same).1

/-- What the two bridges read of the first Authorization line. -/
theorem bearer_cases (h : HeaderMap) :
    (∃ t, firstText h "authorization" = some ("Bearer ".toList ++ t) ∧
      bearerToken h = some t ∧ bearer none h = some (trim t)) ∨
    (∃ t, firstText h "authorization" = some ("bearer ".toList ++ t) ∧
      bearerToken h = none ∧ bearer none h = some (trim t)) ∨
    ((∀ line t, firstText h "authorization" = some line →
      line ≠ "Bearer ".toList ++ t ∧ line ≠ "bearer ".toList ++ t) ∧
        bearerToken h = none ∧ bearer none h = none) := by
  have kept : ∀ o : Option Text, (o.filter fun t => (none : Option Text) != some t) = o := by
    intro o
    cases o <;> rfl
  simp only [bearer, bearerToken, kept]
  cases first : firstText h "authorization" with
  | none => exact .inr (.inr ⟨by simp, rfl, rfl⟩)
  | some line =>
      simp only [Option.bind_some, stripBearer]
      cases upper : stripPrefix "Bearer ".toList line with
      | some t => exact .inl ⟨t, by rw [stripPrefix_eq_some.mp upper], rfl, rfl⟩
      | none =>
          cases lower : stripPrefix "bearer ".toList line with
          | some t => exact .inr (.inl ⟨t, by rw [stripPrefix_eq_some.mp lower], rfl, rfl⟩)
          | none =>
              refine .inr (.inr ⟨?_, rfl, rfl⟩)
              intro _ t same
              cases same
              constructor
              · intro spelled
                cases upper.symm.trans (stripPrefix_eq_some.mpr spelled)
              · intro spelled
                cases lower.symm.trans (stripPrefix_eq_some.mpr spelled)

theorem call_attached {m : CombinedAuthMiddleware} {validator : SessionValidator} {r : Request}
    (configured : m.sessionValidator = some validator) (key : m.apiKey = none)
    (hosts : m.allowedHosts = []) (origins : m.allowedOrigins = []) (quotas : m.quotas = none)
    (counts : Open) :
    attached (m.call counts r).2 =
      if (m.policy.metadataResponse r).isSome then none else authCtx validator r.headers := by
  have host : Host.refused m.allowedHosts r = none := by rw [hosts]; rfl
  have origin : originRefused m.allowedOrigins r.headers = none := by rw [origins]; rfl
  have keyless : m.keyRefused r.headers = none := by rw [keyRefused, key]
  have passed : ∀ client ctx, attached (m.passOn counts r client ctx).2 = ctx := by
    intro client ctx
    rw [passOn, quotas]
    rfl
  cases asked : m.policy.metadataResponse r with
  | some resp => simp [call, host, asked, attached]
  | none =>
      cases accepted : authCtx validator r.headers with
      | some ctx => simp [call, host, asked, origin, keyless, configured, session, accepted, passed]
      | none =>
          simp only [call, host, asked, origin, keyless, configured, session, accepted]
          split
          · rfl
          · split
            · exact passed _ _
            · split
              · rfl
              · exact passed _ _

/-- The two readings of the bearer token prove the same caller. -/
theorem alike_iff {validator : SessionValidator} {h : HeaderMap} :
    Alike validator h ↔
      (bearerToken h).bind validator = (bearer none h).bind validator := by
  rcases bearer_cases h with ⟨t, first, ws, rest⟩ | ⟨t, first, ws, rest⟩ | ⟨absent, ws, rest⟩
  · rw [ws, rest]
    constructor
    · exact fun alike => (alike _ t first).1 rfl
    · intro same line token again
      cases first.symm.trans again
      constructor
      · intro spelled
        cases List.append_cancel_left spelled
        exact same
      · exact fun spelled => absurd spelled (scheme_case _ _)
  · rw [ws, rest]
    constructor
    · exact fun alike => ((alike _ t first).2 rfl).symm
    · intro same line token again
      cases first.symm.trans again
      constructor
      · exact fun spelled => absurd spelled.symm (scheme_case _ _)
      · intro spelled
        cases List.append_cancel_left spelled
        exact same.symm
  · rw [ws, rest]
    refine ⟨fun _ => rfl, fun _ line token first => ?_⟩
    exact ⟨fun spelled => absurd spelled (absent line token first).1,
      fun spelled => absurd spelled (absent line token first).2⟩

theorem nameless_iff {validator : SessionValidator} {h : HeaderMap} :
    Nameless validator h ↔ named validator h = none := by
  have cookie : ¬ CookieAccepted validator h ↔ (firstText h "cookie").bind validator = none := by
    cases line : firstText h "cookie" <;> simp [CookieAccepted, line]
  rw [Nameless, named, Option.or_eq_none_iff, cookie, and_congr_right_iff]
  intro _
  rcases bearer_cases h with ⟨t, first, -, rest⟩ | ⟨t, first, -, rest⟩ | ⟨absent, -, rest⟩
  · rw [rest]
    refine ⟨fun nobody => nobody _ t first (.inl rfl), fun nobody line token again => ?_⟩
    cases first.symm.trans again
    rintro (spelled | spelled)
    · cases List.append_cancel_left spelled
      exact nobody
    · exact absurd spelled (scheme_case _ _)
  · rw [rest]
    refine ⟨fun nobody => nobody _ t first (.inr rfl), fun nobody line token again => ?_⟩
    cases first.symm.trans again
    rintro (spelled | spelled)
    · exact absurd spelled.symm (scheme_case _ _)
    · cases List.append_cancel_left spelled
      exact nobody
  · rw [rest]
    refine ⟨fun _ => rfl, fun _ line token first => ?_⟩
    rintro (spelled | spelled)
    · exact absurd spelled (absent line token first).1
    · exact absurd spelled (absent line token first).2

/-- An upgrade is attached to whom REST names exactly when the first cookie line is accepted
    or the bearer token reads alike; one that asks for the metadata, when REST names nobody. -/
theorem call_identify (m : CombinedAuthMiddleware) (validator : SessionValidator)
    (configured : m.sessionValidator = some validator) (key : m.apiKey = none)
    (hosts : m.allowedHosts = []) (origins : m.allowedOrigins = []) (quotas : m.quotas = none)
    (counts : Open) (r : Request) :
    (∀ a, attached (m.call counts r).2 = some a ↔
      identify (some validator) none r.headers = .ok (some a)) ↔
        if (m.policy.metadataResponse r).isSome then Nameless validator r.headers
        else CookieAccepted validator r.headers ∨ Alike validator r.headers := by
  simp only [identify_eq_ok, ← Option.ext_iff,
    call_attached configured key hosts origins quotas counts]
  split
  · rw [nameless_iff, eq_comm]
  · rw [alike_iff, authCtx, named, cookieValue]
    cases line : firstText r.headers "cookie" with
    | none => simp [CookieAccepted, line]
    | some t => cases accepted : validator t <;> simp [CookieAccepted, line, accepted]

/-- A server with a session validator and nothing else. -/
def sessionsOnly (validator : SessionValidator) : CombinedAuthMiddleware where
  apiKey := none
  apiKeyHeader := "x-api-key"
  sessionValidator := some validator
  rejectOnSessionFailure := false
  allowedOrigins := []
  allowedHosts := []
  policy := ⟨false, [], none⟩
  quotas := none
  proxies := ⟨[], true⟩

def oneToken : SessionValidator := fun credential =>
  if credential = "s3cret".toList then some ⟨"alice", "s1", none⟩ else none

def lowerScheme : Request where
  method := "GET"
  path := "/".toList
  authority := none
  headers := ⟨[("authorization", ⟨ascii "bearer s3cret", by decide +kernel⟩)]⟩
  conn := none

theorem valid_s3cret : ∀ b ∈ ascii "Bearer s3cret", isValid b = true := by decide +kernel

def upperScheme : Request :=
  { lowerScheme with
    headers := ⟨[("authorization", ⟨ascii "Bearer s3cret", valid_s3cret⟩)]⟩ }

theorem call_identify_upper :
    attached ((sessionsOnly oneToken).call Open.empty upperScheme).2 = some ⟨"alice", "s1", none⟩ := by
  have alike : Alike oneToken upperScheme.headers := by
    intro line token first
    have spelled : firstText upperScheme.headers "authorization" =
        some ("Bearer ".toList ++ "s3cret".toList) := by decide +kernel
    cases spelled.symm.trans first
    constructor
    · intro same
      cases List.append_cancel_left same
      decide +kernel
    · exact fun same => absurd same (scheme_case _ _)
  have same := (call_identify (sessionsOnly oneToken) oneToken rfl rfl rfl rfl rfl Open.empty
    upperScheme).mpr (.inr alike)
  exact (same ⟨"alice", "s1", none⟩).mpr (by decide +kernel)

/-- The scheme in lower case names the caller over REST alone. -/
theorem call_identify_lower :
    ¬ ∀ (m : CombinedAuthMiddleware) (validator : SessionValidator),
      m.sessionValidator = some validator → m.apiKey = none → m.allowedHosts = [] →
        m.allowedOrigins = [] → m.quotas = none → ∀ (counts : Open) (r : Request) (a : AuthContext),
          attached (m.call counts r).2 = some a ↔
            identify (some validator) none r.headers = .ok (some a) := by
  intro same
  have upgraded : attached ((sessionsOnly oneToken).call Open.empty lowerScheme).2 = none := by
    decide +kernel
  have rest : identify (some oneToken) none lowerScheme.headers = .ok (some ⟨"alice", "s1", none⟩) := by
    decide +kernel
  have alice := (same (sessionsOnly oneToken) oneToken rfl rfl rfl rfl rfl Open.empty lowerScheme
    ⟨"alice", "s1", none⟩).mpr rest
  cases upgraded.symm.trans alice

end PlexusTransport.Http.Bridge
