import PlexusTransport.Websocket.Middleware

/-! # What an upgrade is decided on

Under the anonymous view a credential that is accepted names the caller, one
that is refused is a 401, and none at all is the anonymous caller. That is
what `call` decides when the header lines it reads are all there are.
-/

namespace PlexusTransport.Websocket

open Http Net Proxy Text CombinedAuthMiddleware

/-- `declares` of a line's bytes, be they text or not. -/
def declaresBytes (names : List Text) (line : List UInt8) : Bool :=
  (line.splitOn 59).any fun pair =>
    match splitOnce 61 pair with
    | some (name, value) =>
        !(trimAscii value).isEmpty && names.any fun c => utf8 c == trimAscii name
    | none => false

/-- The credentials of a request: every Cookie line, every bearer token. -/
def credentials (h : HeaderMap) : List Text :=
  (h.getAll "cookie").filterMap (·.toStr) ++
    ((h.getAll "authorization").filterMap (·.toStr)).filterMap stripBearer

/-- An Authorization header, or a declared credential cookie on any Cookie line. -/
def Presents (p : Policy) (h : HeaderMap) : Prop :=
  h.containsKey "authorization" = true ∨
    ∃ line ∈ h.getAll "cookie", declaresBytes p.credentialCookies line.bytes = true

/-- No credential of the request is accepted. -/
def NoneAccepted (validator : SessionValidator) (h : HeaderMap) : Prop :=
  ∀ credential ∈ credentials h, validator credential = none

/-- No check before the session answers. -/
structure Past (m : CombinedAuthMiddleware) (r : Request) : Prop where
  host : Host.refused m.allowedHosts r = none
  metadata : m.policy.metadataResponse r = none
  origin : originRefused m.allowedOrigins r.headers = none
  key : m.keyRefused r.headers = none

/-- The checks before the session, in their order. -/
structure InOrder (m : CombinedAuthMiddleware) (counts : Open) (r : Request) : Prop where
  host : Host.refused m.allowedHosts r ≠ none →
    ∃ resp, (m.call counts r).2 = .respond resp ∧ resp.status = 421
  metadata : Host.refused m.allowedHosts r = none →
    ∀ resp, m.policy.metadataResponse r = some resp → (m.call counts r).2 = .respond resp
  origin : Host.refused m.allowedHosts r = none → m.policy.metadataResponse r = none →
    originRefused m.allowedOrigins r.headers ≠ none →
      ∃ resp, (m.call counts r).2 = .respond resp ∧ resp.status = 403
  key : Host.refused m.allowedHosts r = none → m.policy.metadataResponse r = none →
    originRefused m.allowedOrigins r.headers = none → m.keyRefused r.headers ≠ none →
      ∃ resp, (m.call counts r).2 = .respond resp ∧ resp.status = 401

/-- What is to become of a request past those checks. -/
structure Decided (m : CombinedAuthMiddleware) (validator : SessionValidator) (r : Request)
    (a : Answer) : Prop where
  carried : ∀ p ctx, a = .pass p → p.ctx = some ctx →
    ∃ credential ∈ credentials r.headers, validator credential = some ctx
  accepted : (∃ credential ∈ credentials r.headers, (validator credential).isSome = true) →
    ∃ p, a = .pass p ∧ p.ctx.isSome = true
  anonymous : ∀ p, a = .pass p → p.ctx = none → ¬ Presents m.policy r.headers
  refused : Presents m.policy r.headers → NoneAccepted validator r.headers →
    ∃ resp, a = .respond resp ∧ resp.status = 401

/-- The first Cookie line, or the bearer token of the first Authorization line. -/
def StandsFirst (h : HeaderMap) (credential : Text) : Prop :=
  firstText h "cookie" = some credential ∨
    ∃ line, firstText h "authorization" = some line ∧ stripBearer line = some credential

/-- The lines that stand first decide: one is accepted; or no credential of the request is,
    and a declared cookie does not stand on Cookie lines that are no text alone. -/
def Decisive (p : Policy) (validator : SessionValidator) (h : HeaderMap) : Prop :=
  (∃ credential, StandsFirst h credential ∧ (validator credential).isSome = true) ∨
    (NoneAccepted validator h ∧ (Presents p h → p.presentsCredential h = true))

theorem firstText_mem {h : HeaderMap} {name : String} {t : Text} (first : firstText h name = some t) :
    t ∈ (h.getAll name).filterMap (·.toStr) := by
  obtain ⟨v, got, read⟩ := Option.bind_eq_some_iff.mp first
  exact List.mem_filterMap.mpr ⟨v, List.mem_of_head? got, read⟩

/-- Who `call` names was proved by a credential of the request. -/
theorem authCtx_carried {validator : SessionValidator} {h : HeaderMap} {ctx : AuthContext}
    (named : authCtx validator h = some ctx) :
    ∃ credential ∈ credentials h, validator credential = some ctx := by
  rcases Option.or_eq_some_iff.mp named with cookie | ⟨-, bearer⟩
  · obtain ⟨credential, first, accepted⟩ := Option.bind_eq_some_iff.mp cookie
    exact ⟨credential, List.mem_append_left _ (firstText_mem first), accepted⟩
  · obtain ⟨credential, token, accepted⟩ := Option.bind_eq_some_iff.mp bearer
    obtain ⟨line, first, stripped⟩ := Option.bind_eq_some_iff.mp token
    refine ⟨credential, List.mem_append_right _ ?_, accepted⟩
    exact List.mem_filterMap.mpr ⟨line, firstText_mem first, stripped⟩

theorem authCtx_isSome {validator : SessionValidator} {h : HeaderMap} :
    (authCtx validator h).isSome = true ↔
      ∃ credential, StandsFirst h credential ∧ (validator credential).isSome = true := by
  simp only [authCtx, cookieValue, bearerToken, Option.isSome_or, Bool.or_eq_true,
    Option.isSome_iff_exists, Option.bind_eq_some_iff, StandsFirst]
  constructor
  · rintro (⟨ctx, credential, first, accepted⟩ | ⟨ctx, credential, token, accepted⟩)
    · exact ⟨credential, .inl first, ctx, accepted⟩
    · exact ⟨credential, .inr token, ctx, accepted⟩
  · rintro ⟨credential, first | token, ctx, accepted⟩
    · exact .inl ⟨ctx, credential, first, accepted⟩
    · exact .inr ⟨ctx, credential, token, accepted⟩

section Visible

/-- A byte of a text line as its character. -/
abbrev shown (b : UInt8) : Char := Char.ofNat b.toNat

theorem forall_uint8 {p : UInt8 → Prop} (all : ∀ n < 256, p (UInt8.ofNat n)) (b : UInt8) : p b :=
  UInt8.ofNat_toNat (x := b) ▸ all b.toNat b.toNat_lt

theorem shown_toNat : ∀ b : UInt8, (shown b).toNat = b.toNat :=
  forall_uint8 (by decide +kernel)

theorem shown_eq (b c : UInt8) : shown b = shown c ↔ b = c := by
  refine ⟨fun same => ?_, fun same => same ▸ rfl⟩
  rw [← UInt8.toNat_inj, ← shown_toNat, ← shown_toNat, same]

theorem visible_space : ∀ b : UInt8, isVisibleAscii b = true →
    isWhitespace (shown b) = (b == 32 || b == 9 || b == 10 || b == 12 || b == 13) :=
  forall_uint8 (by decide +kernel)

theorem visible_utf8 : ∀ b : UInt8, isVisibleAscii b = true →
    String.utf8EncodeChar (shown b) = [b] :=
  forall_uint8 (by decide +kernel)

variable {l : List UInt8}

theorem dropWhile_shown (visible : ∀ b ∈ l, isVisibleAscii b = true) :
    (l.map shown).dropWhile isWhitespace =
      (l.dropWhile fun b => b == 32 || b == 9 || b == 10 || b == 12 || b == 13).map shown := by
  induction l with
  | nil => rfl
  | cons b l ih =>
      have blank := visible_space b (visible b (.head _))
      have rest := ih fun c mem => visible c (.tail _ mem)
      simp only [List.map_cons, List.dropWhile_cons, blank, rest]
      split <;> rfl

theorem trimAscii_subset (l : List UInt8) : trimAscii l ⊆ l :=
  fun _ mem => (List.dropWhile_suffix _).subset ((List.rdropWhile_prefix _ _).subset mem)

theorem trim_shown (visible : ∀ b ∈ l, isVisibleAscii b = true) :
    trim (l.map shown) = (trimAscii l).map shown := by
  rw [trim, dropWhile_shown visible, List.rdropWhile, ← List.map_reverse, dropWhile_shown,
    ← List.map_reverse]
  · rfl
  · intro b mem
    exact visible b ((List.dropWhile_suffix _).subset (List.mem_reverse.mp mem))

theorem utf8_shown (visible : ∀ b ∈ l, isVisibleAscii b = true) : utf8 (l.map shown) = l := by
  induction l with
  | nil => rfl
  | cons b l ih =>
      have one := visible_utf8 b (visible b (.head _))
      have rest := ih fun c mem => visible c (.tail _ mem)
      simp only [utf8, List.map_cons, List.flatMap_cons] at rest ⊢
      rw [one, rest]
      rfl

/-- A cookie declared in a line's text is declared in its bytes. -/
theorem declaresBytes_shown {names : List Text} (visible : ∀ b ∈ l, isVisibleAscii b = true)
    (declared : declares names (l.map shown) = true) : declaresBytes names l = true := by
  simp only [declares, splitOn_map (a := 59) (b := ';') fun x => shown_eq x 59, List.any_map]
    at declared
  obtain ⟨pair, mem, stands⟩ := List.any_eq_true.mp declared
  refine List.any_eq_true.mpr ⟨pair, mem, ?_⟩
  simp only [Function.comp, splitOnce_map (a := 61) (b := '=') fun x => shown_eq x 61] at stands
  cases parts : splitOnce 61 pair with
  | none => simp [parts] at stands
  | some named =>
      obtain ⟨name, value⟩ := named
      have visiblePair : ∀ b ∈ name ++ 61 :: value, isVisibleAscii b = true := by
        intro b inside
        exact visible b (mem_of_splitOn mem (splitOnce_eq parts ▸ inside))
      have visibleName : ∀ b ∈ name, isVisibleAscii b = true :=
        fun b inside => visiblePair b (List.mem_append_left _ inside)
      have visibleValue : ∀ b ∈ value, isVisibleAscii b = true :=
        fun b inside => visiblePair b (List.mem_append_right _ (.tail _ inside))
      simp only [parts, Option.map_some, trim_shown visibleName, trim_shown visibleValue,
        List.isEmpty_map, Bool.and_eq_true, List.contains_iff_mem] at stands
      have spelled := utf8_shown fun b inside => visibleName b (trimAscii_subset name inside)
      simp only [Bool.and_eq_true, stands.1, true_and]
      exact List.any_eq_true.mpr ⟨_, stands.2, beq_iff_eq.mpr spelled⟩

end Visible

theorem noneAccepted_or (validator : SessionValidator) (h : HeaderMap) :
    NoneAccepted validator h ∨
      ∃ credential ∈ credentials h, (validator credential).isSome = true := by
  by_cases none : NoneAccepted validator h
  · exact .inl none
  · simp only [NoneAccepted, not_forall] at none
    obtain ⟨credential, mem, accepted⟩ := none
    exact .inr ⟨credential, mem, Option.isSome_iff_ne_none.mpr accepted⟩

/-- What the policy sees presented is presented. -/
theorem presents_seen {p : Policy} {h : HeaderMap} (seen : p.presentsCredential h = true) :
    Presents p h := by
  rcases Bool.or_eq_true_iff.mp seen with authorization | cookie
  · exact .inl authorization
  · obtain ⟨t, mem, declared⟩ := List.any_eq_true.mp cookie
    obtain ⟨line, stands, read⟩ := List.mem_filterMap.mp mem
    obtain ⟨visible, same⟩ := Option.ite_none_right_eq_some.mp read
    cases same
    exact .inr ⟨line, stands, declaresBytes_shown (List.all_eq_true.mp visible) declared⟩

theorem keyRefused_status {m : CombinedAuthMiddleware} {h : HeaderMap} {resp : Response}
    (refused : m.keyRefused h = some resp) : resp.status = 401 := by
  unfold keyRefused at refused
  cases key : m.apiKey with
  | none => simp [key] at refused
  | some expected =>
      simp only [key] at refused
      cases line : firstText h m.apiKeyHeader with
      | none =>
          simp only [line, Option.ite_none_left_eq_some, Option.some.injEq] at refused
          rw [← refused.2]
          rfl
      | some v =>
          simp only [line, Option.ite_none_left_eq_some, Option.some.injEq] at refused
          rw [← refused.2]
          rfl

theorem call_inOrder (m : CombinedAuthMiddleware) (counts : Open) (r : Request) :
    InOrder m counts r where
  host refused := by
    cases named : Host.refused m.allowedHosts r with
    | none => exact absurd named refused
    | some host => exact ⟨misdirected, by simp [call, named], rfl⟩
  metadata host resp asked := by simp [call, host, asked]
  origin host metadata refused := by
    cases named : originRefused m.allowedOrigins r.headers with
    | none => exact absurd named refused
    | some origin => exact ⟨_, by simp [call, host, metadata, named]; rfl, rfl⟩
  key host metadata origin refused := by
    cases answer : m.keyRefused r.headers with
    | none => exact absurd answer refused
    | some resp =>
        exact ⟨resp, by simp [call, host, metadata, origin, answer], keyRefused_status answer⟩

/-- With the quotas not full, a request is passed on as who it is. -/
theorem passOn_room {m : CombinedAuthMiddleware} {counts : Open} {request : Request}
    {client : Option ForwardedClient} (ctx : Option AuthContext)
    (room : ∀ q ∈ m.quotas, ∀ ip who, (q.admitSocket counts ip who).2.isOk = true) :
    ∃ p, (m.passOn counts request client ctx).2 = .pass p ∧ p.ctx = ctx := by
  have taken : ∀ principal, ∃ o permit,
      takeQuota m.quotas counts request client principal = (o, .ok permit) := by
    intro principal
    cases quotas : m.quotas with
    | none => exact ⟨counts, none, rfl⟩
    | some q =>
        simp only [takeQuota]
        split
        · exact ⟨counts, none, rfl⟩
        · split
          · exact ⟨counts, none, rfl⟩
          · rename_i ip _
            have ok := room q quotas ip principal
            cases admitted : q.admitSocket counts ip principal with
            | mk o answer =>
                cases answer with
                | error full =>
                    rw [admitted] at ok
                    cases ok
                | ok permit => exact ⟨o, some permit, rfl⟩
  obtain ⟨o, permit, took⟩ := taken (ctx.map fun c => c.principal.getD c.userId)
  exact ⟨_, by rw [passOn, took], rfl⟩

theorem call_past {m : CombinedAuthMiddleware} {validator : SessionValidator} {counts : Open}
    {r : Request} (configured : m.sessionValidator = some validator) (past : Past m r) :
    m.call counts r = m.session validator counts r
      (r.conn.map fun conn => clientOf m.proxies conn r.headers) := by
  simp [call, past.host, past.metadata, past.origin, past.key, configured]

/-- The session's three ways under the anonymous view. -/
theorem session_cases {m : CombinedAuthMiddleware} (validator : SessionValidator) {counts : Open}
    (r : Request) (client : Option ForwardedClient) (view : m.policy.anonymousView = true)
    (room : ∀ q ∈ m.quotas, ∀ ip who, (q.admitSocket counts ip who).2.isOk = true) :
    (∃ ctx p, authCtx validator r.headers = some ctx ∧
      (m.session validator counts r client).2 = .pass p ∧ p.ctx = some ctx) ∨
    (∃ resp, authCtx validator r.headers = none ∧
      m.policy.presentsCredential r.headers = true ∧
      (m.session validator counts r client).2 = .respond resp ∧ resp.status = 401) ∨
    ∃ p, authCtx validator r.headers = none ∧
      m.policy.presentsCredential r.headers = false ∧
      (m.session validator counts r client).2 = .pass p ∧ p.ctx = none := by
  cases named : authCtx validator r.headers with
  | some ctx =>
      obtain ⟨p, passed, who⟩ := passOn_room (some ctx) room
      exact .inl ⟨ctx, p, rfl, by simpa [session, named] using passed, who⟩
  | none =>
      cases presented : m.policy.presentsCredential r.headers with
      | true =>
          refine .inr (.inl ⟨_, rfl, rfl, by simp [session, named, view, presented]; rfl, ?_⟩)
          rfl
      | false =>
          obtain ⟨p, passed, who⟩ := passOn_room none room
          refine .inr (.inr ⟨p, rfl, rfl, ?_, who⟩)
          simpa [session, named, view, presented] using passed

section Decided

variable {m : CombinedAuthMiddleware} {validator : SessionValidator} {r : Request} {p : Passed}

theorem decided_signed {ctx : AuthContext} (named : authCtx validator r.headers = some ctx)
    (who : p.ctx = some ctx) : Decided m validator r (.pass p) := by
  obtain ⟨credential, mem, accepted⟩ := authCtx_carried named
  constructor
  · intro p' ctx' same who'
    cases same
    cases who.symm.trans who'
    exact ⟨credential, mem, accepted⟩
  · exact fun _ => ⟨p, rfl, by simp [who]⟩
  · intro p' same none
    cases same
    cases who.symm.trans none
  · intro _ none
    cases accepted.symm.trans (none credential mem)

theorem decided_refused {resp : Response} (status : resp.status = 401) :
    Decided m validator r (.respond resp) ↔ NoneAccepted validator r.headers := by
  constructor
  · intro decided
    rcases noneAccepted_or validator r.headers with none | accepted
    · exact none
    · obtain ⟨p, same, -⟩ := decided.accepted accepted
      cases same
  · intro none
    constructor
    · intro p ctx same
      cases same
    · rintro ⟨credential, mem, accepted⟩
      simp [none credential mem] at accepted
    · intro p same
      cases same
    · exact fun _ _ => ⟨resp, rfl, status⟩

theorem decided_anonymous (who : p.ctx = none) :
    Decided m validator r (.pass p) ↔
      NoneAccepted validator r.headers ∧ ¬ Presents m.policy r.headers := by
  constructor
  · intro decided
    rcases noneAccepted_or validator r.headers with none | accepted
    · exact ⟨none, decided.anonymous p rfl who⟩
    · obtain ⟨p', same, signed⟩ := decided.accepted accepted
      cases same
      simp [who] at signed
  · rintro ⟨none, absent⟩
    constructor
    · intro p' ctx same who'
      cases same
      cases who.symm.trans who'
    · rintro ⟨credential, mem, accepted⟩
      simp [none credential mem] at accepted
    · exact fun _ _ _ => absent
    · exact fun presents => absurd presents absent

theorem decisive_unnamed {p : Policy} {h : HeaderMap} (unnamed : authCtx validator h = none) :
    Decisive p validator h ↔
      NoneAccepted validator h ∧ (Presents p h → p.presentsCredential h = true) := by
  rw [Decisive, ← authCtx_isSome, unnamed]
  simp

end Decided

/-- The checks answer in their order; past them, the decision is as it is to be exactly
    when the credentials `call` reads are decisive. -/
theorem call_decides (m : CombinedAuthMiddleware) (validator : SessionValidator)
    (configured : m.sessionValidator = some validator) (view : m.policy.anonymousView = true)
    (counts : Open)
    (room : ∀ q ∈ m.quotas, ∀ ip who, (q.admitSocket counts ip who).2.isOk = true)
    (r : Request) :
    InOrder m counts r ∧
      (Past m r →
        (Decided m validator r (m.call counts r).2 ↔ Decisive m.policy validator r.headers)) := by
  refine ⟨call_inOrder m counts r, ?_⟩
  intro past
  rw [call_past configured past]
  rcases session_cases validator r _ view room with
    ⟨ctx, p, named, passed, who⟩ | ⟨resp, unnamed, seen, answered, status⟩ |
      ⟨p, unnamed, unseen, passed, who⟩
  · have accepted := authCtx_isSome.mp (Option.isSome_iff_exists.mpr ⟨ctx, named⟩)
    rw [passed]
    exact ⟨fun _ => .inl accepted, fun _ => decided_signed named who⟩
  · rw [answered, decided_refused status, decisive_unnamed unnamed]
    exact ⟨fun none => ⟨none, fun _ => seen⟩, fun both => both.1⟩
  · rw [passed, decided_anonymous who, decisive_unnamed unnamed, unseen]
    simp

/-- A request that presents nothing, nothing of it accepted, is the anonymous caller's. -/
theorem call_absent {m : CombinedAuthMiddleware} {validator : SessionValidator}
    (configured : m.sessionValidator = some validator) (view : m.policy.anonymousView = true)
    {counts : Open}
    (room : ∀ q ∈ m.quotas, ∀ ip who, (q.admitSocket counts ip who).2.isOk = true)
    {r : Request} (past : Past m r) (absent : ¬ Presents m.policy r.headers)
    (none : NoneAccepted validator r.headers) :
    ∃ p, (m.call counts r).2 = .pass p ∧ p.ctx = Option.none := by
  rw [call_past configured past]
  rcases session_cases validator r _ view room with
    ⟨ctx, p, named, -, -⟩ | ⟨resp, -, seen, -, -⟩ | ⟨p, -, -, passed, who⟩
  · obtain ⟨credential, mem, accepted⟩ := authCtx_carried named
    cases accepted.symm.trans (none credential mem)
  · exact absurd (presents_seen seen) absent
  · exact ⟨p, passed, who⟩

/-- A server whose one good credential is the cookie `access_token=good`. -/
def signIn : SessionValidator := fun credential =>
  if credential = "access_token=good".toList then some ⟨"alice", "s1", none⟩ else none

def anonymousView : CombinedAuthMiddleware where
  apiKey := none
  apiKeyHeader := "x-api-key"
  sessionValidator := some signIn
  rejectOnSessionFailure := false
  allowedOrigins := []
  allowedHosts := []
  policy := ⟨true, ["access_token".toList], none⟩
  quotas := none
  proxies := ⟨[], true⟩

theorem valid_good : ∀ b ∈ ascii "access_token=good", isValid b = true := by decide +kernel

def signedInLast : Request where
  method := "GET"
  path := "/".toList
  authority := none
  headers := ⟨[("cookie", ⟨ascii "theme=dark", by decide +kernel⟩),
    ("cookie", ⟨ascii "access_token=good", valid_good⟩)]⟩
  conn := none

/-- The same lines, the good cookie first. -/
def signedInFirst : Request :=
  { signedInLast with
    headers := ⟨[("cookie", ⟨ascii "access_token=good", valid_good⟩),
      ("cookie", ⟨ascii "theme=dark", by decide +kernel⟩)]⟩ }

/-- Few sockets an address, fewer of them anonymous. -/
def limitedView : CombinedAuthMiddleware :=
  { anonymousView with quotas := some ⟨⟨4, 2, 2, 2, 1⟩, true⟩ }

theorem call_decides_signed :
    Decided limitedView signIn signedInFirst (limitedView.call Open.empty signedInFirst).2 := by
  have room : ∀ q ∈ limitedView.quotas, ∀ ip who,
      (q.admitSocket Open.empty ip who).2.isOk = true := by
    intro q limits ip who
    cases limits
    cases who <;> rfl
  have decides := call_decides limitedView signIn rfl rfl Open.empty room signedInFirst
  have first : StandsFirst signedInFirst.headers "access_token=good".toList :=
    .inl (by decide +kernel)
  exact (decides.2 ⟨rfl, rfl, rfl, rfl⟩).mpr (.inl ⟨_, first, rfl⟩)

/-- The good cookie stands on the second line: its bearer is nobody. -/
theorem call_second_cookie :
    ¬ ∀ (m : CombinedAuthMiddleware) (validator : SessionValidator),
      m.sessionValidator = some validator → m.policy.anonymousView = true → ∀ counts : Open,
        (∀ q ∈ m.quotas, ∀ ip who, (q.admitSocket counts ip who).2.isOk = true) →
          ∀ r, Past m r → Decided m validator r (m.call counts r).2 := by
  intro all
  have decided := all anonymousView signIn rfl rfl Open.empty (by simp [anonymousView])
    signedInLast ⟨rfl, rfl, rfl, rfl⟩
  have answer : (anonymousView.call Open.empty signedInLast).2 = .respond
      ⟨401, [("www-authenticate", "Bearer realm=\"plexus\", error=\"invalid_token\""),
        ("content-type", "text/plain")], "Unauthorized: session invalid or expired"⟩ := by
    decide +kernel
  obtain ⟨p, passed, -⟩ := decided.accepted ⟨"access_token=good".toList, by decide +kernel, rfl⟩
  cases answer.symm.trans passed

end PlexusTransport.Websocket
