import PlexusTransport.Lib.Once
import PlexusTransport.Proxy.Chain
import PlexusTransport.Server.Listeners
import PlexusTransport.Tls.Peers

/-! # What a method reads of its request

The client's address, whether it came securely and its origin, as fields of a method's request.
They are read under what the process was first told, the socket's upgrade under what its
server was.
-/

namespace PlexusTransport.Fields

open Http Net Proxy Text Tls Websocket

def configured (p : TrustedProxies) : Bool := p.direct || !p.nets.isEmpty

/-- The process-wide cells: `TRUSTED`, `TRUST_PROXY`, `REQUIRE_SECURE` and `ALLOWED_ORIGINS`. -/
structure Cells where
  trusted : Option TrustedProxies
  trustProxy : Option Bool
  requireSecure : Option Bool
  allowedOrigins : Option (List Text)

/-- What sets them. `serves`: `TransportServer::serve`. -/
inductive Init where
  | initTrustedProxies (proxies : TrustedProxies)
  | initTrustProxyHeaders (trust : Bool)
  | initRequireSecureTransport (required : Bool)
  | initAllowedOrigins (origins : List Text)
  | serves (s : Server.TransportServer)

def Init.trusted? : Init → Option TrustedProxies
  | .initTrustedProxies proxies => some proxies
  | .serves s => s.trustedProxies
  | _ => none

def Init.trustProxy? : Init → Option Bool
  | .initTrustProxyHeaders trust => some trust
  | _ => none

def Init.requireSecure? : Init → Option Bool
  | .initRequireSecureTransport required => some required
  | _ => none

def Init.allowedOrigins? : Init → Option (List Text)
  | .initAllowedOrigins origins => some origins
  | _ => none

namespace Cells

def start : Cells := ⟨none, none, none, none⟩

def step (cells : Cells) : Init → Cells
  | .initTrustedProxies proxies => { cells with trusted := Once.set cells.trusted proxies }
  | .initTrustProxyHeaders trust => { cells with trustProxy := Once.set cells.trustProxy trust }
  | .initRequireSecureTransport required =>
      { cells with requireSecure := Once.set cells.requireSecure required }
  | .initAllowedOrigins origins =>
      { cells with allowedOrigins := Once.set cells.allowedOrigins origins }
  | .serves s =>
      match s.trustedProxies with
      | some proxies => { cells with trusted := Once.set cells.trusted proxies }
      | none => cells

/-- A process's cells, once these are done. -/
def after (inits : List Init) : Cells := inits.foldl step start

/-- `trusted_proxies`. -/
def trustedProxies (cells : Cells) : TrustedProxies := cells.trusted.getD ⟨[], false⟩

end Cells

/-- `ClientIp::resolve`. -/
def resolve (ctx : RawRequestContext) (proxies : TrustedProxies) : IpAddr :=
  match ctx.peer with
  | some addr => (proxies.resolve addr.ip ctx.headers).ip
  | none => .v4 0

/-- What forwarded headers say, from anyone: the first entry, or the real IP. -/
def forwarded (h : HeaderMap) : Option IpAddr :=
  ((firstText h "x-forwarded-for").bind fun xff =>
      (xff.splitOn ',').head?.bind fun first => parseIpAddr (trim first)).or
    ((firstText h "x-real-ip").bind fun xri => parseIpAddr (trim xri))

/-- `ClientIp::extract_from_raw`. -/
def clientIp (cells : Cells) (ctx : RawRequestContext) : IpAddr :=
  let proxies := cells.trustedProxies
  if configured proxies then resolve ctx proxies
  else if cells.trustProxy.getD false then (forwarded ctx.headers).getD (resolve ctx proxies)
  else resolve ctx proxies

/-- `SecureTransport::extract_from_raw`. -/
def secureTransport (cells : Cells) (securePeers : Tally Tls.SocketAddr) (ctx : RawRequestContext) :
    Except String Unit :=
  if cells.requireSecure.getD false then check securePeers ctx cells.trustedProxies else .ok ()

/-- `ValidOrigin::extract_from_raw`. -/
def validOrigin (cells : Cells) (h : HeaderMap) : Except String Text :=
  match firstText h "origin" with
  | none => .ok []
  | some origin =>
      match cells.allowedOrigins with
      | none => .ok origin
      | some list =>
          if list.isEmpty then .ok origin
          else if list.any (· == origin) then .ok origin
          else .error s!"Origin '{String.ofList origin}' is not allowed"

/-! ## What is believed -/

/-- Whatever a process was told, whatever its servers, and whoever asks. `first`: of what a cell
    is set to the first holds. `agrees`: with proxies said first, the client is whom an upgrade
    under those names. `own` and `claimed`: else the peer, whatever its headers, or anyone it
    says itself. `secure`: what is refused an upgrade does not call secure. `lenient` and
    `strict`: where the origins allowed are the upgrade's, they part over an origin that is not
    text, and over its spelling. -/
structure Believed (inits : List Init) : Prop where
  first : Cells.after inits =
    ⟨inits.findSome? Init.trusted?, inits.findSome? Init.trustProxy?,
      inits.findSome? Init.requireSecure?, inits.findSome? Init.allowedOrigins?⟩
  agrees : ∀ p, inits.findSome? Init.trusted? = some p → configured p = true →
    ∀ (s : Server.TransportServer) (ws : Server.WebSocketConfig), s.trustedProxies = some p →
      ∀ (c : Conn) (h : HeaderMap), clientIp (.after inits) ⟨h, some c.peer⟩ =
        (clientOf (s.websocketConfig ws).trustedProxies c.stamp h).ip
  own : ((inits.findSome? Init.trusted?).any configured) = false →
    inits.findSome? Init.trustProxy? ≠ some true →
      ∀ (peer : Tls.SocketAddr) (h : HeaderMap),
        clientIp (.after inits) ⟨h, some peer⟩ = canonical peer.ip
  claimed : ((inits.findSome? Init.trusted?).any configured) = false →
    inits.findSome? Init.trustProxy? = some true →
      ∀ (ctx : RawRequestContext) (claim later : Text) (ip : IpAddr), ',' ∉ claim →
        parseIpAddr (trim claim) = some ip →
          firstText ctx.headers "x-forwarded-for" = some (claim ++ ',' :: later) →
            clientIp (.after inits) ctx = ip
  secure : ∀ p, inits.findSome? Init.trusted? = some p →
    ∀ (events : List ConnEvent) (t : Process), Process.machine.run events = some t →
      ∀ c ∈ t.opened, ∀ h : HeaderMap,
        secureTransport (.after inits) t.securePeers ⟨h, some c.peer⟩ = .ok () ↔
          inits.findSome? Init.requireSecure? ≠ some true ∨
            (clientOf p c.stamp h).secure = true ∨
              (p.resolve c.peer.ip h).viaProxy = false ∧ c.peer ∈ t.held
  lenient : ∀ l, inits.findSome? Init.allowedOrigins? = some l → ∀ h : HeaderMap,
    (∃ o, validOrigin (.after inits) h = .ok o) ∧
        originRefused (Server.normalizedOrigins l) h ≠ none ↔
      l ≠ [] ∧ ∃ v, h.get "origin" = some v ∧ v.toStr = none
  strict : ∀ l, inits.findSome? Init.allowedOrigins? = some l → ∀ h : HeaderMap,
    (∃ why, validOrigin (.after inits) h = .error why) ∧
        originRefused (Server.normalizedOrigins l) h = none ↔
      ∃ o, firstText h "origin" = some o ∧ l ≠ [] ∧ o ∉ l ∧
        normalizeOrigin o ∈ Server.normalizedOrigins l

section Cells

variable {inits : List Init} {p : TrustedProxies}

theorem step_eq (cells : Cells) (i : Init) : cells.step i =
    ⟨cells.trusted.or i.trusted?, cells.trustProxy.or i.trustProxy?,
      cells.requireSecure.or i.requireSecure?, cells.allowedOrigins.or i.allowedOrigins?⟩ := by
  cases i with
  | serves s =>
      cases told : s.trustedProxies <;>
        simp [Cells.step, told, Once.set, Init.trusted?, Init.trustProxy?, Init.requireSecure?,
          Init.allowedOrigins?]
  | initTrustedProxies | initTrustProxyHeaders | initRequireSecureTransport
  | initAllowedOrigins =>
      simp [Cells.step, Once.set, Init.trusted?, Init.trustProxy?, Init.requireSecure?,
        Init.allowedOrigins?]

theorem after_eq (inits : List Init) : Cells.after inits =
    ⟨inits.findSome? Init.trusted?, inits.findSome? Init.trustProxy?,
      inits.findSome? Init.requireSecure?, inits.findSome? Init.allowedOrigins?⟩ := by
  have trusted := Once.foldl_first (f := Cells.step) Cells.trusted Init.trusted?
    (fun cells i => congrArg Cells.trusted (step_eq cells i)) inits .start
  have trustProxy := Once.foldl_first (f := Cells.step) Cells.trustProxy Init.trustProxy?
    (fun cells i => congrArg Cells.trustProxy (step_eq cells i)) inits .start
  have requireSecure := Once.foldl_first (f := Cells.step) Cells.requireSecure
    Init.requireSecure? (fun cells i => congrArg Cells.requireSecure (step_eq cells i)) inits .start
  have allowedOrigins := Once.foldl_first (f := Cells.step) Cells.allowedOrigins
    Init.allowedOrigins? (fun cells i => congrArg Cells.allowedOrigins (step_eq cells i)) inits
    .start
  simp only [Cells.start, Option.none_or] at trusted trustProxy requireSecure allowedOrigins
  rw [← trusted, ← trustProxy, ← requireSecure, ← allowedOrigins]
  rfl

theorem trustedProxies_after (inits : List Init) :
    (Cells.after inits).trustedProxies = (inits.findSome? Init.trusted?).getD ⟨[], false⟩ := by
  rw [after_eq]
  rfl

theorem trustedProxies_told (told : inits.findSome? Init.trusted? = some p) :
    (Cells.after inits).trustedProxies = p := by
  rw [trustedProxies_after, told]
  rfl

theorem unconfigured (unsaid : ((inits.findSome? Init.trusted?).any configured) = false) :
    configured (Cells.after inits).trustedProxies = false := by
  rw [trustedProxies_after]
  cases told : inits.findSome? Init.trusted? with
  | none => rfl
  | some p => simpa [told] using unsaid

end Cells

section Client

variable {inits : List Init} {p : TrustedProxies}

/-- No proxy is in front: no header is looked at. -/
theorem resolve_unconfigured (unsaid : configured p = false) (peer : IpAddr) (h : HeaderMap) :
    (p.resolve peer h).ip = canonical peer := by
  have nets : p.nets = [] := by
    simp only [configured, Bool.or_eq_false_iff] at unsaid
    simpa using unsaid.2
  have stranger : p.contains peer = false := by simp [TrustedProxies.contains, nets]
  rw [resolve_untrusted stranger]

theorem clientOf_ip (p : TrustedProxies) (c : Conn) (h : HeaderMap) :
    (clientOf p c.stamp h).ip = (p.resolve c.peer.ip h).ip := by
  unfold clientOf
  dsimp only
  split <;> rfl

theorem clientIp_agrees (told : inits.findSome? Init.trusted? = some p)
    (said : configured p = true) (c : Conn) (h : HeaderMap) :
    clientIp (.after inits) ⟨h, some c.peer⟩ = (clientOf p c.stamp h).ip := by
  rw [clientIp, trustedProxies_told told, clientOf_ip]
  exact if_pos said

theorem clientIp_own (unsaid : ((inits.findSome? Init.trusted?).any configured) = false)
    (untold : inits.findSome? Init.trustProxy? ≠ some true) (peer : Tls.SocketAddr)
    (h : HeaderMap) : clientIp (.after inits) ⟨h, some peer⟩ = canonical peer.ip := by
  have not : configured (Cells.after inits).trustedProxies = false := unconfigured unsaid
  have trust : (Cells.after inits).trustProxy.getD false = false := by
    rw [after_eq]
    cases told : inits.findSome? Init.trustProxy? with
    | none => rfl
    | some trust =>
        cases trust with
        | true => exact absurd told untold
        | false => rfl
  simp only [clientIp, not, trust, Bool.false_eq_true, if_false]
  exact resolve_unconfigured not peer.ip h

/-- What a proxy adds to a line comes behind what it was sent. -/
theorem forwarded_claimed {h : HeaderMap} {claim later : Text} {ip : IpAddr}
    (apart : ',' ∉ claim) (reads : parseIpAddr (trim claim) = some ip)
    (sent : firstText h "x-forwarded-for" = some (claim ++ ',' :: later)) :
    forwarded h = some ip := by
  have first : (claim ++ ',' :: later).splitOn ',' = claim :: later.splitOn ',' := by
    rw [List.splitOn_append_cons_self, List.splitOn_eq_singleton apart]
    rfl
  rw [forwarded, sent]
  simp [first, reads]

theorem clientIp_claimed (unsaid : ((inits.findSome? Init.trusted?).any configured) = false)
    (told : inits.findSome? Init.trustProxy? = some true) {ctx : RawRequestContext} {ip : IpAddr}
    (named : forwarded ctx.headers = some ip) : clientIp (.after inits) ctx = ip := by
  have not : configured (Cells.after inits).trustedProxies = false := unconfigured unsaid
  have trust : (Cells.after inits).trustProxy = some true := by rw [after_eq, told]
  simp [clientIp, not, trust, named]

end Client

theorem secureTransport_iff {inits : List Init} {p : TrustedProxies}
    (told : inits.findSome? Init.trusted? = some p) {events : List ConnEvent} {t : Process}
    (ran : Process.machine.run events = some t) {c : Conn} (live : c ∈ t.opened) (h : HeaderMap) :
    secureTransport (.after inits) t.securePeers ⟨h, some c.peer⟩ = .ok () ↔
      inits.findSome? Init.requireSecure? ≠ some true ∨ (clientOf p c.stamp h).secure = true ∨
        (p.resolve c.peer.ip h).viaProxy = false ∧ c.peer ∈ t.held := by
  have held : c.tls = true → c.peer ∈ t.held := fun tls =>
    (Process.mem_held t c.peer).mpr (.inr ⟨c, live, tls, rfl⟩)
  have passes : check t.securePeers ⟨h, some c.peer⟩ p = .ok () ↔
      (clientOf p c.stamp h).secure = true ∨
        (p.resolve c.peer.ip h).viaProxy = false ∧ c.peer ∈ t.held := by
    rw [check_ok, clientOf_secure, Process.isTlsPeer_iff (Process.run_tallies ran)]
    constructor
    · rintro (secure | peer)
      · exact .inl (.inl secure)
      · exact .inr peer
    · rintro ((secure | ⟨via, tls⟩) | peer)
      · exact .inl secure
      · exact .inr ⟨via, held tls⟩
      · exact .inr peer
  rw [secureTransport, trustedProxies_told told, ← passes, after_eq]
  cases inits.findSome? Init.requireSecure? with
  | none => simp
  | some required => cases required <;> simp

section Origin

variable {cells : Cells} {l : List Text}

theorem validOrigin_ok (told : cells.allowedOrigins = some l) (h : HeaderMap) :
    (∃ o, validOrigin cells h = .ok o) ↔ ∀ o, firstText h "origin" = some o → l ≠ [] → o ∈ l := by
  unfold validOrigin
  rw [told]
  cases firstText h "origin" with
  | none => exact ⟨fun _ => nofun, fun _ => ⟨_, rfl⟩⟩
  | some o =>
      dsimp only
      split
      · rename_i empty
        exact ⟨fun _ _ _ some_ => absurd (List.isEmpty_iff.mp empty) some_, fun _ => ⟨o, rfl⟩⟩
      · rename_i some_
        split
        · rename_i mem
          refine ⟨fun _ o' same _ => ?_, fun _ => ⟨o, rfl⟩⟩
          cases same
          simpa using mem
        · rename_i absent
          refine ⟨nofun, fun mem => absurd ?_ absent⟩
          simpa using mem o rfl fun none => some_ (List.isEmpty_iff.mpr none)

theorem originRefused_none (l : List Text) (h : HeaderMap) :
    originRefused l h = none ↔ ∀ v, h.get "origin" = some v → l ≠ [] →
      ∃ o, v.toStr = some o ∧ normalizeOrigin o ∈ l := by
  unfold originRefused
  split
  · rename_i empty
    exact ⟨fun _ _ _ some_ => absurd (List.isEmpty_iff.mp empty) some_, fun _ => rfl⟩
  · rename_i some_
    have some_ : l ≠ [] := fun none => some_ (List.isEmpty_iff.mpr none)
    cases h.get "origin" with
    | none => exact ⟨fun _ => nofun, fun _ => rfl⟩
    | some v =>
        dsimp only
        cases text : v.toStr with
        | none =>
            refine ⟨nofun, fun each => ?_⟩
            obtain ⟨o, reads, -⟩ := each v rfl some_
            cases text.symm.trans reads
        | some o =>
            dsimp only
            split
            · rename_i mem
              refine ⟨fun _ v' same _ => ?_, fun _ => rfl⟩
              cases same
              exact ⟨o, text, by simpa using mem⟩
            · rename_i absent
              refine ⟨nofun, fun each => absurd ?_ absent⟩
              obtain ⟨o', reads, mem⟩ := each v rfl some_
              cases text.symm.trans reads
              simpa using mem

theorem normalizedOrigins_ne {l : List Text} : Server.normalizedOrigins l ≠ [] ↔ l ≠ [] := by
  simp [Server.normalizedOrigins]

theorem origin_lenient (told : cells.allowedOrigins = some l) (h : HeaderMap) :
    (∃ o, validOrigin cells h = .ok o) ∧ originRefused (Server.normalizedOrigins l) h ≠ none ↔
      l ≠ [] ∧ ∃ v, h.get "origin" = some v ∧ v.toStr = none := by
  rw [validOrigin_ok told, ne_eq (originRefused _ _), originRefused_none, normalizedOrigins_ne]
  constructor
  · rintro ⟨passes, refused⟩
    push Not at refused
    obtain ⟨v, named, some_, other⟩ := refused
    refine ⟨some_, v, named, Option.eq_none_iff_forall_ne_some.mpr fun o text => ?_⟩
    have first : firstText h "origin" = some o := by rw [firstText, named, Option.bind_some, text]
    exact other o text (List.mem_map_of_mem (passes o first some_))
  · rintro ⟨some_, v, named, untext⟩
    refine ⟨fun o first => ?_, fun each => ?_⟩
    · rw [firstText, named, Option.bind_some, untext] at first
      cases first
    · obtain ⟨o, text, -⟩ := each v named some_
      cases untext.symm.trans text

theorem origin_strict (told : cells.allowedOrigins = some l) (h : HeaderMap) :
    (∃ why, validOrigin cells h = .error why) ∧
        originRefused (Server.normalizedOrigins l) h = none ↔
      ∃ o, firstText h "origin" = some o ∧ l ≠ [] ∧ o ∉ l ∧
        normalizeOrigin o ∈ Server.normalizedOrigins l := by
  have error : (∃ why, validOrigin cells h = .error why) ↔
      ¬ ∃ o, validOrigin cells h = .ok o := by
    cases validOrigin cells h with
    | error why => simp
    | ok o => simp
  rw [error, validOrigin_ok told, originRefused_none, normalizedOrigins_ne]
  constructor
  · rintro ⟨refused, passes⟩
    push Not at refused
    obtain ⟨o, first, some_, absent⟩ := refused
    obtain ⟨v, named, text⟩ := Option.bind_eq_some_iff.mp first
    obtain ⟨o', text', mem⟩ := passes v named some_
    cases text.symm.trans text'
    exact ⟨o, first, some_, absent, mem⟩
  · rintro ⟨o, first, some_, absent, mem⟩
    refine ⟨fun passes => absent (passes o first some_), fun v named _ => ⟨o, ?_, mem⟩⟩
    rwa [firstText, named] at first

end Origin

/-- Of every process. -/
theorem fields_believed (inits : List Init) : Believed inits where
  first := after_eq inits
  agrees p told said s ws own c h := by
    have same : (s.websocketConfig ws).trustedProxies = p := by
      simp [Server.TransportServer.websocketConfig, own]
    rw [same]
    exact clientIp_agrees told said c h
  own := clientIp_own
  claimed unsaid told _ _ _ _ apart reads sent :=
    clientIp_claimed unsaid told (forwarded_claimed apart reads sent)
  secure _ told _ _ ran _ live h := secureTransport_iff told ran live h
  lenient _ told h := origin_lenient (by rw [after_eq, told]) h
  strict _ told h := origin_strict (by rw [after_eq, told]) h

end PlexusTransport.Fields
