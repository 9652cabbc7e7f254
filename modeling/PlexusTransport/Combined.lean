import PlexusTransport.Http.Server
import PlexusTransport.Websocket.Routed

/-! # The socket and the bridges on one port

Paths that begin with `/mcp` or `/rest` are the bridges', behind the key. The host's
routes, when there are any, have every other path but the socket's, and the rest is the
socket's, behind the key again.
-/

namespace PlexusTransport.Combined

open Http Http.Rest Net Plexus Proxy Text Websocket Admission CombinedAuthMiddleware

structure CombinedRequest extends Incoming, RestRequest

/-- Where the bridges' router takes a path. -/
inductive Route where
  | mcp
  | method (space method : Text)
  | unmatched
  deriving DecidableEq, Repr

structure HostRoutes where
  router : CombinedRequest → Option ForwardedClient → Response
  socketPath : Text

/-- `route`: the router's, of a path. -/
structure Port where
  apiKey : Option Text
  route : Text → Route
  enableRest : Bool
  activation : Text → Json → Option AuthContext → Called
  schemas : List Registry.PluginSchema
  routeFn : Option (Text → Json → Called)
  routes : Option HostRoutes
  upgrade : Upgrade

/-- What becomes of a request; at `mcp` it is rmcp's. -/
inductive Outcome where
  | refused (r : Response)
  | mcp
  | rest (deeds : List Deed) (answer : Answered)
  | unmatched
  | host (r : Response)
  | socket (reply : Reply)

/-- The key's check on the socket's paths. -/
def wsAuth (apiKey : Option Text) (h : HeaderMap) : Option Response :=
  match apiKey.map ("Bearer ".toList ++ ·) with
  | none => none
  | some expected =>
      let ok := (firstText h "authorization").any (· == expected)
      if ok then none
      else
        some ⟨401, [("www-authenticate", "Bearer realm=\"plexus\""), ("content-type", "text/plain")],
          "Unauthorized"⟩

def Bridged (path : Text) : Prop := "/mcp".toList <+: path ∨ "/rest".toList <+: path

instance (path : Text) : Decidable (Bridged path) := inferInstanceAs (Decidable (_ ∨ _))

namespace Port

/-- The REST bridge, with no validator and no route that takes a caller. -/
def restBridge (p : Port) : ActivationRestBridge :=
  ⟨p.activation, p.schemas, p.routeFn, none, none, none⟩

/-- The router of the bridges, behind the key. -/
def bridges (errors : RemoteErrors) (p : Port) (req : CombinedRequest) : Outcome :=
  match authMiddleware p.apiKey req.headers with
  | some r => .refused r
  | none =>
      match p.route req.path, p.enableRest with
      | .mcp, _ => .mcp
      | .method space method, true =>
          let (deeds, answer) :=
            p.restBridge.intoRouter.restMethodHandler errors space method req.toRestRequest
          .rest deeds answer
      | _, _ => .unmatched

def socket (p : Port) (free : Nat) (req : CombinedRequest) : Outcome :=
  match wsAuth p.apiKey req.headers with
  | some r => .refused r
  | none => .socket (p.upgrade.upgrade free req.toIncoming)

def call (errors : RemoteErrors) (p : Port) (free : Nat) (req : CombinedRequest) : Outcome :=
  if Bridged req.path then p.bridges errors req
  else
    match p.routes with
    | some host =>
        if req.path ≠ host.socketPath then
          .host (host.router req (req.conn.map fun conn => clientOf ⟨[], false⟩ conn req.headers))
        else p.socket free req
    | none => p.socket free req

end Port

/-- The path is the host's. -/
def Port.Hosts (p : Port) (path : Text) : Prop :=
  ¬ Bridged path ∧ ∃ host, p.routes = some host ∧ path ≠ host.socketPath

/-- The key is none, or the first `Authorization` line is it. -/
def Bears (apiKey : Option Text) (h : HeaderMap) : Prop :=
  ∀ key, apiKey = some key → firstText h "authorization" = some ("Bearer ".toList ++ key)

def Outcome.runs : Outcome → List Call
  | .rest deeds _ => deeds.filterMap Deed.call?
  | _ => []

def Outcome.opened : Outcome → Option Negotiated
  | .socket reply => reply.opened
  | _ => none

/-- A refusal for want of the key, of either check. -/
def Unauthorized (r : Response) : Prop :=
  r.status = 401 ∧ ("www-authenticate", "Bearer realm=\"plexus\"") ∈ r.headers

/-- Who is served what. A request for the host has its answer, with the key or without; any
    other is refused 401 without the key, and with it is answered as if there were none. -/
structure Served (errors : RemoteErrors) (p : Port) (free : Nat) (req : CombinedRequest) : Prop where
  host : p.Hosts req.path ↔ ∃ r, p.call errors free req = .host r
  hostAlike : p.Hosts req.path → ∀ key, ({ p with apiKey := key } : Port).call errors free req =
    p.call errors free req
  keyless : ¬ p.Hosts req.path → ¬ Bears p.apiKey req.headers →
    ∃ r, p.call errors free req = .refused r ∧ Unauthorized r
  keyed : Bears p.apiKey req.headers →
    p.call errors free req = ({ p with apiKey := none } : Port).call errors free req
  opens : ∀ n, (p.call errors free req).opened = some n →
    ¬ Bridged req.path ∧ (∀ host, p.routes = some host → req.path = host.socketPath) ∧
      Bears p.apiKey req.headers ∧ isUpgradeRequest req.toRequest = true
  runs : (p.call errors free req).runs = [] ∨
    ∃ c, (p.call errors free req).runs = [c] ∧ c.caller = none ∧ Bridged req.path ∧
      Bears p.apiKey req.headers ∧ ∃ space method, p.route req.path = .method space method

section Checks

variable {apiKey : Option Text} {h : HeaderMap} {r : Response}

theorem authMiddleware_none : authMiddleware apiKey h = none ↔ Bears apiKey h := by
  cases apiKey with
  | none => exact ⟨fun _ _ is => (nomatch is), fun _ => rfl⟩
  | some key =>
      simp only [authMiddleware, Bears, Option.some.injEq, forall_eq']
      generalize "Bearer ".toList ++ key = expected
      cases firstText h "authorization" with
      | none => simp
      | some v => simp

/-- Both checks of the key let the same requests past. -/
theorem wsAuth_none : wsAuth apiKey h = none ↔ Bears apiKey h := by
  rw [← authMiddleware_none]
  cases apiKey with
  | none => exact Iff.rfl
  | some key =>
      simp only [wsAuth, authMiddleware, Option.map_some]
      split <;> simp

theorem authMiddleware_some (refused : authMiddleware apiKey h = some r) : Unauthorized r := by
  unfold authMiddleware at refused
  split at refused
  · cases refused
  · obtain ⟨-, same⟩ := Option.ite_none_left_eq_some.mp refused
    cases same
    exact ⟨rfl, by simp⟩

theorem wsAuth_some (refused : wsAuth apiKey h = some r) : Unauthorized r := by
  unfold wsAuth at refused
  split at refused
  · cases refused
  · obtain ⟨-, same⟩ := Option.ite_none_left_eq_some.mp refused
    cases same
    exact ⟨rfl, by simp⟩

end Checks

namespace Port

variable {errors : RemoteErrors} {p : Port} {free : Nat} {req : CombinedRequest}

/-- What is no request of the host's is the bridges' or the socket's. -/
theorem call_behind (errors : RemoteErrors) (free : Nat) (not : ¬ p.Hosts req.path) :
    (Bridged req.path ∧ p.call errors free req = p.bridges errors req) ∨
      (¬ Bridged req.path ∧ (∀ host, p.routes = some host → req.path = host.socketPath) ∧
        p.call errors free req = p.socket free req) := by
  unfold call
  by_cases bridged : Bridged req.path
  · exact .inl ⟨bridged, if_pos bridged⟩
  · rw [if_neg bridged]
    refine .inr ⟨bridged, fun host is => ?_, ?_⟩
    · by_contra other
      exact not ⟨bridged, host, is, other⟩
    · split
      · rename_i host is
        rw [if_neg]
        exact fun other => not ⟨bridged, host, is, other⟩
      · rfl

theorem call_host (errors : RemoteErrors) (free : Nat) (hosts : p.Hosts req.path) : ∃ host, p.routes = some host ∧
    p.call errors free req =
      .host (host.router req (req.conn.map fun conn => clientOf ⟨[], false⟩ conn req.headers)) := by
  obtain ⟨apart, host, is, other⟩ := hosts
  refine ⟨host, is, ?_⟩
  simp only [call, if_neg apart, is, ne_eq, other, not_false_eq_true, if_true]

theorem bridges_refused (keyless : ¬ Bears p.apiKey req.headers) :
    ∃ r, p.bridges errors req = .refused r ∧ Unauthorized r := by
  cases check : authMiddleware p.apiKey req.headers with
  | none => exact absurd (authMiddleware_none.mp check) keyless
  | some r => exact ⟨r, by simp only [bridges, check], authMiddleware_some check⟩

theorem socket_refused (keyless : ¬ Bears p.apiKey req.headers) :
    ∃ r, p.socket free req = .refused r ∧ Unauthorized r := by
  cases check : wsAuth p.apiKey req.headers with
  | none => exact absurd (wsAuth_none.mp check) keyless
  | some r => exact ⟨r, by simp only [socket, check], wsAuth_some check⟩

/-- The key, once it is borne, changes nothing. -/
theorem call_keyed (keyed : Bears p.apiKey req.headers) :
    p.call errors free req = ({ p with apiKey := none } : Port).call errors free req := by
  have past : authMiddleware p.apiKey req.headers = none := authMiddleware_none.mpr keyed
  have past' : wsAuth p.apiKey req.headers = none := wsAuth_none.mpr keyed
  simp only [call, bridges, socket, past, past']
  rfl

theorem upgrade_opens {u : Upgrade} {req : Incoming} {n : Negotiated}
    (opened : (u.upgrade free req).opened = some n) : isUpgradeRequest req.toRequest = true := by
  by_contra other
  simp [Upgrade.upgrade, Websocket.upgrade, Bool.not_eq_true _ ▸ other] at opened

/-- The one call of a REST request names no caller. -/
theorem restBridge_runs (errors : RemoteErrors) (p : Port) (space method : Text) (request : RestRequest) :
    ((p.restBridge.intoRouter.restMethodHandler errors space method request).1.filterMap Deed.call?) =
        [] ∨
      ∃ c, (p.restBridge.intoRouter.restMethodHandler errors space method request).1.filterMap
        Deed.call? = [c] ∧ c.caller = none := by
  set state := p.restBridge.intoRouter with made
  have anyone : Bridge.identify state.validator state.apiKey request.headers = .ok none := rfl
  cases known : state.registry.get space method with
  | none =>
      rw [(handler_unknown errors state request known).1]
      exact .inl rfl
  | some info =>
      by_cases verb : request.method = info.httpMethod.verb
      · cases body : request.body with
        | error rejection => exact .inl (handler_body errors state known verb anyone body).2
        | ok params =>
            refine .inr ⟨_, handler_runs errors state known verb anyone body, ?_⟩
            unfold RestBridgeState.dispatch
            split <;> rfl
      · rw [(handler_verb errors state known verb).1]
        exact .inl rfl

theorem bridges_ne_host (r : Response) : p.bridges errors req ≠ .host r := by
  unfold bridges
  split
  · nofun
  · split <;> nofun

theorem socket_ne_host (r : Response) : p.socket free req ≠ .host r := by
  unfold socket
  split <;> nofun

theorem bridges_opened : (p.bridges errors req).opened = none := by
  unfold bridges
  split
  · rfl
  · split <;> rfl

theorem socket_opened {n : Negotiated} (opened : (p.socket free req).opened = some n) :
    Bears p.apiKey req.headers ∧ isUpgradeRequest req.toRequest = true := by
  unfold socket at opened
  split at opened
  · cases opened
  · rename_i past
    exact ⟨wsAuth_none.mp past, upgrade_opens opened⟩

theorem bridges_runs : (p.bridges errors req).runs = [] ∨
    ∃ c, (p.bridges errors req).runs = [c] ∧ c.caller = none ∧ Bears p.apiKey req.headers ∧
      ∃ space method, p.route req.path = .method space method := by
  unfold bridges
  split
  · exact .inl rfl
  · rename_i past
    split
    · exact .inl rfl
    · rename_i space method routed enabled
      obtain none_ | ⟨c, one, caller⟩ :=
        restBridge_runs errors p space method req.toRestRequest
      · exact .inl none_
      · exact .inr ⟨c, one, caller, authMiddleware_none.mp past, space, method, routed⟩
    · exact .inl rfl

theorem socket_runs : (p.socket free req).runs = [] := by
  unfold socket
  split <;> rfl

end Port

/-- On the combined port every request is served so, whatever the bridges and the host do. -/
theorem combined_served (errors : RemoteErrors) (p : Port) (free : Nat) (req : CombinedRequest) :
    Served errors p free req := by
  by_cases hosts : p.Hosts req.path
  · obtain ⟨host, is, answered⟩ := p.call_host errors free hosts
    refine ⟨⟨fun _ => ⟨_, answered⟩, fun _ => hosts⟩, fun _ key => ?_, fun not => absurd hosts not,
      Port.call_keyed, fun n opened => ?_, .inl ?_⟩
    · obtain ⟨host', is', answered'⟩ :=
        ({ p with apiKey := key } : Port).call_host errors free hosts
      cases is.symm.trans is'
      rw [answered, answered']
    · rw [answered] at opened
      cases opened
    · rw [answered]
      rfl
  · obtain ⟨bridged, behind⟩ | ⟨apart, here, behind⟩ :=
      p.call_behind errors free hosts
    · refine ⟨⟨fun is => absurd is hosts, fun ⟨r, is⟩ => ?_⟩, fun is => absurd is hosts,
        fun _ keyless => ?_, Port.call_keyed, fun n opened => ?_, ?_⟩
      · exact absurd (behind.symm.trans is) (p.bridges_ne_host r)
      · rw [behind]
        exact Port.bridges_refused keyless
      · rw [behind, Port.bridges_opened] at opened
        cases opened
      · rw [behind]
        refine p.bridges_runs.imp_right ?_
        rintro ⟨c, one, caller, borne, routed⟩
        exact ⟨c, one, caller, bridged, borne, routed⟩
    · refine ⟨⟨fun is => absurd is hosts, fun ⟨r, is⟩ => ?_⟩, fun is => absurd is hosts,
        fun _ keyless => ?_, Port.call_keyed, fun n opened => ?_, .inl ?_⟩
      · exact absurd (behind.symm.trans is) (p.socket_ne_host r)
      · rw [behind]
        exact Port.socket_refused keyless
      · rw [behind] at opened
        obtain ⟨borne, asked⟩ := Port.socket_opened opened
        exact ⟨apart, here, borne, asked⟩
      · rw [behind, Port.socket_runs]

/-- The hub's method on the socket's port, behind a key. -/
def hubPort : Port where
  apiKey := some "s3cret".toList
  route path := if path = "/rest/hub/who".toList then .method "hub".toList "who".toList else .unmatched
  enableRest := true
  activation := hubServer.bridge.activation
  schemas := hubServer.bridge.schemas
  routeFn := none
  routes := none
  upgrade := ⟨fun _ => "", 1⟩

def whoWith (request : Request) : CombinedRequest :=
  { request with path := "/rest/hub/who".toList, query := none, body := .ok .null }

theorem combined_served_who :
    (∃ r, hubPort.call namedErrors 1 (whoWith Bridge.lowerScheme) = .refused r ∧ Unauthorized r) ∧
      hubPort.call namedErrors 1 (whoWith Bridge.upperScheme) =
        ({ hubPort with apiKey := none } : Port).call namedErrors 1 (whoWith Bridge.upperScheme) := by
  constructor
  · have bridged : ¬ hubPort.Hosts (whoWith Bridge.lowerScheme).path := fun hosts =>
      hosts.1 (by decide +kernel)
    have keyless : ¬ Bears hubPort.apiKey (whoWith Bridge.lowerScheme).headers := by
      rw [← authMiddleware_none]
      decide +kernel
    exact (combined_served namedErrors hubPort 1 (whoWith Bridge.lowerScheme)).keyless bridged keyless
  · have keyed : Bears hubPort.apiKey (whoWith Bridge.upperScheme).headers := by
      rw [← authMiddleware_none]
      decide +kernel
    exact (combined_served namedErrors hubPort 1 (whoWith Bridge.upperScheme)).keyed keyed

end PlexusTransport.Combined
