import PlexusTransport.Server

/-! # The listeners of a server that was built

A static key stands before every one of them, or the server is not built.
-/

namespace PlexusTransport.Server

open Http Net Plexus Proxy Text Websocket CombinedAuthMiddleware Admission

/-- What is not the server's: the codec and the greatest batch, the REST router, the crate's
    version. -/
structure Crates where
  upgrade : Upgrade
  route : Text → Rest.Endpoint
  version : String

structure WebSocketListener where
  addr : SocketAddr
  tls : Option TlsConfig
  socket : CombinedAuthMiddleware
  upgrade : Upgrade
  routes : Option HostRoutes

/-- `apiKey`: what `auth_middleware` checks. -/
structure McpListener where
  addr : SocketAddr
  tls : Option TlsConfig
  apiKey : Option Text
  allowedHosts : List Text

structure RestListener where
  addr : SocketAddr
  tls : Option TlsConfig
  server : Rest.RestServer

structure MountedListener where
  addr : SocketAddr
  tls : Option TlsConfig
  admitsAnonymous : Bool

/-- What `serve` starts; a mount with nowhere to listen fails it, after the others are. -/
structure Listeners where
  websocket : Option WebSocketListener
  mcpHttp : Option McpListener
  restHttp : Option RestListener
  mounted : Option (Except String MountedListener)

inductive Started where
  | stdio
  | listeners (l : Listeners)

/-- `host::normalized`. -/
def normalizedHosts (hosts : List Text) : List Text :=
  (hosts.map Host.normalize).filter fun h => !h.isEmpty

/-- `auth::normalized_origins`. -/
def normalizedOrigins (origins : List Text) : List Text := origins.map normalizeOrigin

def UpgradeOptions.policy (o : UpgradeOptions) : Policy :=
  ⟨o.anonymousView, o.credentialCookies, o.protectedResource.map Prepared.of⟩

/-- `serve_websocket_with`. -/
def serveWebsocketWith (crates : Crates) (config : WebSocketConfig)
    (validator : Option SessionValidator) (options : UpgradeOptions) : WebSocketListener where
  addr := config.addr
  tls := config.tls
  socket :=
    { apiKey := config.apiKey
      apiKeyHeader := config.apiKeyHeader
      sessionValidator := validator
      rejectOnSessionFailure := options.rejectOnSessionFailure
      allowedOrigins := normalizedOrigins config.allowedOrigins
      allowedHosts := normalizedHosts config.allowedHosts
      policy := options.policy
      quotas := some ⟨config.quotas, validator.isSome⟩
      proxies := config.trustedProxies }
  upgrade := crates.upgrade
  routes := options.routes

def WebSocketListener.call (l : WebSocketListener) (counts : Open) (free : Nat) (req : Incoming) :
    Open × Reply :=
  match l.routes with
  | some host =>
      (Routed.new l.socket l.upgrade host.socketPath host.router).call counts free req
  | none =>
      match l.socket.call counts req.toRequest with
      | (counts, .respond response) => (counts, ⟨response, none⟩)
      | (counts, .pass _) => (counts, l.upgrade.upgrade free req)

namespace TransportServer

/-- The socket's configuration, and what it leaves to the builder. -/
def websocketConfig (s : TransportServer) (ws : WebSocketConfig) : WebSocketConfig :=
  { ws with
    apiKey := ws.apiKey.or s.config.apiKey
    apiKeyHeader := s.config.apiKeyHeader
    allowedOrigins := if ws.allowedOrigins.isEmpty then s.allowedOrigins else ws.allowedOrigins
    allowedHosts := if ws.allowedHosts.isEmpty then s.allowedHosts else ws.allowedHosts
    quotas := s.connectionQuotas.getD ws.quotas
    trustedProxies := s.trustedProxies.getD ws.trustedProxies }

/-- `serve_mcp_http`. -/
def mcpListener (s : TransportServer) (mcp : McpHttpConfig) : McpListener :=
  ⟨mcp.addr, mcp.tls, s.config.apiKey, mcp.allowedHosts⟩

/-- `serve_rest_http_as`. -/
def restListener (crates : Crates) (s : TransportServer) (rest : RestHttpConfig) : RestListener where
  addr := rest.addr
  tls := rest.tls
  server :=
    { hosts := normalizedHosts rest.allowedHosts
      apiKey := s.config.apiKey
      route := crates.route
      version := crates.version
      bridge := ⟨s.activation.call, s.flatSchemas.getD [s.activation.schema.methodSchemas], s.routeFn,
        s.routeAsFn, s.sessionValidator, none⟩ }

def mountedListener (s : TransportServer) (m : McpConfig) : Except String MountedListener :=
  match m.listen with
  | none => .error <| "with_mcp: McpConfig.listen is required — the mounted bridge has its own " ++
      "listener until TRANSPORT-10 puts /mcp on the WebSocket's router"
  | some listen => .ok ⟨listen, s.tls, m.admitsAnonymous⟩

def serve (crates : Crates) (s : TransportServer) : Started :=
  if s.config.stdio then .stdio
  else
    .listeners
      { websocket := s.config.websocket.map fun ws =>
          serveWebsocketWith crates (s.websocketConfig ws) s.sessionValidator
            { s.upgrade with rejectOnSessionFailure := s.rejectUpgradeOnAuthFailure }
        mcpHttp := s.config.mcpHttp.map s.mcpListener
        restHttp := s.config.restHttp.map (s.restListener crates)
        mounted := s.mcp.map s.mountedListener }

end TransportServer

/-- The request shows the key where the socket's check looks: on its header, or, with no such
    line and no validator, as a bearer token. -/
def ShowsKey (m : CombinedAuthMiddleware) (key : Text) (h : HeaderMap) : Prop :=
  firstText h m.apiKeyHeader = some key ∨
    firstText h m.apiKeyHeader = none ∧ m.sessionValidator = none ∧ bearerToken h = some key

/-- Nothing is behind a listener without the key: no socket, no method and no validator over
    REST, no session over MCP; the mounted bridge, which reads no key, takes no one unnamed. -/
structure Gated (key : Text) (l : Listeners) : Prop where
  websocket : ∀ ws, l.websocket = some ws → ∀ counts free req,
    (ws.call counts free req).2.opened.isSome = true → ShowsKey ws.socket key req.headers
  mcpHttp : ∀ m, l.mcpHttp = some m → ∀ h,
    authMiddleware m.apiKey h = none → Combined.Bears (some key) h
  restHttp : ∀ r, l.restHttp = some r → ∀ errors request,
    (r.server.serve errors request).1 ≠ [] → Combined.Bears (some key) request.headers
  mounted : ∀ m, l.mounted = some (.ok m) → m.admitsAnonymous = false

/-- The last call of each method is what the listeners are set up by. -/
structure AsTold (methods : List Method) (l : Listeners) : Prop where
  socket : ∀ ws, l.websocket = some ws →
    ws.socket.apiKey = (last Method.apiKey? methods).getD none ∧
    ws.socket.apiKeyHeader = (last Method.apiKeyHeader? methods).getD defaultApiKeyHeader ∧
    ws.socket.sessionValidator = last Method.sessionValidator? methods ∧
    ws.socket.allowedOrigins = normalizedOrigins ((last Method.allowedOrigins? methods).getD []) ∧
    ws.socket.allowedHosts = normalizedHosts ((last Method.allowedHosts? methods).getD []) ∧
    ws.socket.quotas = some ⟨(last Method.connectionQuotas? methods).getD defaultQuotas,
      (last Method.sessionValidator? methods).isSome⟩ ∧
    ws.socket.proxies = (last Method.trustedProxies? methods).getD ⟨[], false⟩
  bound : ∀ ip, last Method.bind? methods = some ip →
    (∀ ws, l.websocket = some ws → ws.addr.ip = ip) ∧ (∀ m, l.mcpHttp = some m → m.addr.ip = ip) ∧
      (∀ r, l.restHttp = some r → r.addr.ip = ip) ∧ ∀ m, l.mounted = some (.ok m) → m.addr.ip = ip
  secured : ∀ tls, last Method.tls? methods = some tls →
    (∀ ws, l.websocket = some ws → ws.tls = some tls) ∧
      (∀ m, l.mcpHttp = some m → m.tls.isSome = true) ∧
      (∀ r, l.restHttp = some r → r.tls.isSome = true) ∧
      ∀ m, l.mounted = some (.ok m) → m.tls = some tls

section Key

variable {m : CombinedAuthMiddleware} {key : Text} {counts : Open} {request : Request}

theorem keyRefused_none (keyed : m.apiKey = some key) {h : HeaderMap} (past : m.keyRefused h = none) :
    ShowsKey m key h := by
  simp only [keyRefused, keyed] at past
  cases line : firstText h m.apiKeyHeader with
  | some v =>
      simp only [line, ite_eq_left_iff, reduceCtorEq, imp_false, not_not] at past
      exact .inl (line.trans (congrArg some past))
  | none =>
      simp only [line, ite_eq_left_iff, reduceCtorEq, imp_false, not_not, Bool.and_eq_true,
        Option.isNone_iff_eq_none] at past
      obtain ⟨unnamed, shown⟩ := past
      refine .inr ⟨line, unnamed, ?_⟩
      change (bearerToken h).any (· == key) = true at shown
      cases token : bearerToken h with
      | none => simp [token] at shown
      | some t => simpa [token] using shown

/-- A request is passed on past the key's check. -/
theorem call_pass {p : Passed} (passed : (m.call counts request).2 = .pass p) :
    m.keyRefused request.headers = none := by
  unfold CombinedAuthMiddleware.call at passed
  dsimp only at passed
  split at passed
  · cases passed
  · split at passed
    · cases passed
    · split at passed
      · cases passed
      · split at passed
        · cases passed
        · assumption

theorem WebSocketListener.opened_key {l : WebSocketListener} (keyed : l.socket.apiKey = some key)
    {free : Nat} {req : Incoming} (opened : (l.call counts free req).2.opened.isSome = true) :
    ShowsKey l.socket key req.headers := by
  have passes : ∀ p, (l.socket.call counts req.toRequest).2 = .pass p →
      ShowsKey l.socket key req.headers := fun p passed => keyRefused_none keyed (call_pass passed)
  unfold WebSocketListener.call at opened
  split at opened
  · rename_i host routes
    unfold Routed.call at opened
    split at opened
    · unfold Routed.serveSocket at opened
      split at opened
      · cases opened
      · rename_i counts' p passed
        exact passes p (congrArg Prod.snd passed)
    · split at opened <;> cases opened
  · split at opened
    · cases opened
    · rename_i counts' p passed
      exact passes p (congrArg Prod.snd passed)

theorem serve_key {s : Rest.RestServer} (keyed : s.apiKey = some key) {errors : Rest.RemoteErrors}
    {request : Rest.RestRequest} (deeds : (s.serve errors request).1 ≠ []) :
    Combined.Bears (some key) request.headers := by
  by_contra keyless
  cases check : authMiddleware s.apiKey request.headers with
  | none =>
      rw [keyed] at check
      exact keyless (Combined.authMiddleware_none.mp check)
  | some r =>
      refine deeds ?_
      unfold Rest.RestServer.serve
      split
      · rfl
      · rw [check]

end Key

section Build

variable {a : Activation} {methods : List Method} {b : TransportServerBuilder} {s : TransportServer}
  {crates : Crates} {l : Listeners}

/-- A server is built only where a key finds no mount that takes anyone. -/
theorem build_ok (built : b.build = .ok s) : s = b.server ∧
    (b.config.apiKey.isSome = true → ∀ m, b.mcp = some m → m.admitsAnonymous = false) := by
  unfold TransportServerBuilder.build at built
  split at built
  · cases built
  · rename_i ungated
    split at built
    · cases built
    · cases built
      refine ⟨rfl, fun keyed m is => ?_⟩
      simpa [keyed, is] using ungated

/-- The socket's own configuration is its port's, whatever else is called. -/
def SocketIsNew (b : TransportServerBuilder) : Prop :=
  ∀ ws, b.config.websocket = some ws → ∃ port, ws = .new port

theorem of_socketIsNew : SocketIsNew (.of a methods) := by
  refine Loop.foldl_keeps (I := SocketIsNew) (fun b m new => ?_) methods nofun
  cases m with
  | withWebsocket port =>
      rintro ws is
      exact ⟨port, (Option.some.inj is).symm⟩
  | _ => exact new

theorem of_apiKey : (TransportServerBuilder.of a methods).config.apiKey =
    (last Method.apiKey? methods).getD none :=
  of_last (fun b => b.config.apiKey) Method.apiKey? fun b m => by cases m <;> rfl

theorem of_apiKeyHeader : (TransportServerBuilder.of a methods).config.apiKeyHeader =
    (last Method.apiKeyHeader? methods).getD defaultApiKeyHeader :=
  of_last (fun b => b.config.apiKeyHeader) Method.apiKeyHeader? fun b m => by cases m <;> rfl

theorem of_allowedOrigins : (TransportServerBuilder.of a methods).allowedOrigins =
    (last Method.allowedOrigins? methods).getD [] :=
  of_last (·.allowedOrigins) Method.allowedOrigins? fun b m => by cases m <;> rfl

theorem of_allowedHosts : (TransportServerBuilder.of a methods).allowedHosts =
    (last Method.allowedHosts? methods).getD [] :=
  of_last (·.allowedHosts) Method.allowedHosts? fun b m => by cases m <;> rfl

theorem of_sessionValidator : (TransportServerBuilder.of a methods).sessionValidator =
    last Method.sessionValidator? methods :=
  of_last_some (·.sessionValidator) Method.sessionValidator? (fun b m => by cases m <;> rfl) rfl

theorem of_connectionQuotas : (TransportServerBuilder.of a methods).connectionQuotas =
    last Method.connectionQuotas? methods :=
  of_last_some (·.connectionQuotas) Method.connectionQuotas? (fun b m => by cases m <;> rfl) rfl

theorem of_trustedProxies : (TransportServerBuilder.of a methods).trustedProxies =
    last Method.trustedProxies? methods :=
  of_last_some (·.trustedProxies) Method.trustedProxies? (fun b m => by cases m <;> rfl) rfl

theorem of_bind : (TransportServerBuilder.of a methods).bind = last Method.bind? methods :=
  of_last_some (·.bind) Method.bind? (fun b m => by cases m <;> rfl) rfl

theorem of_tls : (TransportServerBuilder.of a methods).tls = last Method.tls? methods :=
  of_last_some (·.tls) Method.tls? (fun b m => by cases m <;> rfl) rfl

/-- What a server starts is what its configuration says. -/
theorem serve_listeners (started : s.serve crates = .listeners l) :
    l.websocket = s.config.websocket.map (fun ws =>
        serveWebsocketWith crates (s.websocketConfig ws) s.sessionValidator
          { s.upgrade with rejectOnSessionFailure := s.rejectUpgradeOnAuthFailure }) ∧
      l.mcpHttp = s.config.mcpHttp.map s.mcpListener ∧
      l.restHttp = s.config.restHttp.map (s.restListener crates) ∧
      l.mounted = s.mcp.map s.mountedListener := by
  unfold TransportServer.serve at started
  split at started
  · cases started
  · cases started
    exact ⟨rfl, rfl, rfl, rfl⟩

/-- The socket's listener is a new port's, placed where the builder is bound. -/
theorem websocket_of (built : (TransportServerBuilder.of a methods).build = .ok s)
    (started : s.serve crates = .listeners l) {ws : WebSocketListener} (is : l.websocket = some ws) :
    ∃ port, ws = serveWebsocketWith crates
      (s.websocketConfig { WebSocketConfig.new port with
        addr := (loopback port).setIp (last Method.bind? methods)
        tls := last Method.tls? methods })
      (last Method.sessionValidator? methods)
      { s.upgrade with rejectOnSessionFailure := s.rejectUpgradeOnAuthFailure } := by
  obtain ⟨rfl, -⟩ := build_ok built
  rw [(serve_listeners started).1] at is
  obtain ⟨placed, there, rfl⟩ := Option.map_eq_some_iff.mp is
  obtain ⟨ws, here, rfl⟩ := Option.map_eq_some_iff.mp there
  obtain ⟨port, rfl⟩ := of_socketIsNew ws here
  refine ⟨port, ?_⟩
  rw [← of_sessionValidator (a := a), ← of_bind (a := a), ← of_tls (a := a)]
  rfl

theorem mcpHttp_of (built : b.build = .ok s) (started : s.serve crates = .listeners l)
    {m : McpListener} (is : l.mcpHttp = some m) : ∃ config, b.config.mcpHttp = some config ∧
      m = ⟨config.addr.setIp b.bind, config.tls.or b.tls, b.config.apiKey, config.allowedHosts⟩ := by
  obtain ⟨rfl, -⟩ := build_ok built
  rw [(serve_listeners started).2.1] at is
  obtain ⟨placed, there, rfl⟩ := Option.map_eq_some_iff.mp is
  obtain ⟨mcp, here, rfl⟩ := Option.map_eq_some_iff.mp there
  exact ⟨mcp, here, rfl⟩

theorem restHttp_of (built : b.build = .ok s) (started : s.serve crates = .listeners l)
    {r : RestListener} (is : l.restHttp = some r) : ∃ config, b.config.restHttp = some config ∧
      r.addr = config.addr.setIp b.bind ∧ r.tls = config.tls.or b.tls ∧
      r.server.apiKey = b.config.apiKey := by
  obtain ⟨rfl, -⟩ := build_ok built
  rw [(serve_listeners started).2.2.1] at is
  obtain ⟨placed, there, rfl⟩ := Option.map_eq_some_iff.mp is
  obtain ⟨rest, here, rfl⟩ := Option.map_eq_some_iff.mp there
  exact ⟨rest, here, rfl, rfl, rfl⟩

theorem mounted_of (built : b.build = .ok s) (started : s.serve crates = .listeners l)
    {m : MountedListener} (is : l.mounted = some (.ok m)) :
    ∃ (config : McpConfig) (listen : SocketAddr), b.mcp = some config ∧
      m = ⟨listen.setIp b.bind, b.tls, config.admitsAnonymous⟩ := by
  obtain ⟨rfl, -⟩ := build_ok built
  rw [(serve_listeners started).2.2.2] at is
  obtain ⟨placed, there, mounted⟩ := Option.map_eq_some_iff.mp is
  obtain ⟨config, here, rfl⟩ := Option.map_eq_some_iff.mp there
  unfold TransportServer.mountedListener at mounted
  dsimp only at mounted
  cases listen : config.listen with
  | none =>
      rw [listen] at mounted
      cases mounted
  | some addr =>
      rw [listen] at mounted
      cases mounted
      exact ⟨config, addr, here, rfl⟩

theorem asTold (built : (TransportServerBuilder.of a methods).build = .ok s)
    (started : s.serve crates = .listeners l) : AsTold methods l := by
  obtain ⟨rfl, -⟩ := build_ok built
  refine ⟨fun ws is => ?_, fun ip bound => ⟨fun ws is => ?_, fun m is => ?_, fun r is => ?_,
    fun m is => ?_⟩, fun tls told => ⟨fun ws is => ?_, fun m is => ?_, fun r is => ?_,
    fun m is => ?_⟩⟩
  · obtain ⟨port, rfl⟩ := websocket_of built started is
    rw [← of_apiKey (a := a), ← of_apiKeyHeader (a := a), ← of_allowedOrigins (a := a),
      ← of_allowedHosts (a := a), ← of_connectionQuotas (a := a), ← of_trustedProxies (a := a)]
    exact ⟨rfl, rfl, rfl, rfl, rfl, rfl, rfl⟩
  · obtain ⟨port, rfl⟩ := websocket_of built started is
    simp [serveWebsocketWith, TransportServer.websocketConfig, SocketAddr.setIp, bound]
  · obtain ⟨config, -, rfl⟩ := mcpHttp_of built started is
    simp [SocketAddr.setIp, of_bind, bound]
  · obtain ⟨config, -, addr, -⟩ := restHttp_of built started is
    simp [addr, SocketAddr.setIp, of_bind, bound]
  · obtain ⟨config, listen, -, rfl⟩ := mounted_of built started is
    simp [SocketAddr.setIp, of_bind, bound]
  · obtain ⟨port, rfl⟩ := websocket_of built started is
    exact told
  · obtain ⟨config, -, rfl⟩ := mcpHttp_of built started is
    simp [of_tls, told]
  · obtain ⟨config, -, -, tls, -⟩ := restHttp_of built started is
    simp [tls, of_tls, told]
  · obtain ⟨config, listen, -, rfl⟩ := mounted_of built started is
    exact of_tls.trans told

theorem gated (built : (TransportServerBuilder.of a methods).build = .ok s)
    (started : s.serve crates = .listeners l) {key : Text}
    (keyed : (last Method.apiKey? methods).getD none = some key) : Gated key l := by
  refine ⟨fun ws is counts free req opened => ?_, fun m is h past => ?_,
    fun r is errors request deeds => ?_, fun m is => ?_⟩
  · exact WebSocketListener.opened_key (((asTold built started).socket ws is).1.trans keyed) opened
  · obtain ⟨config, -, rfl⟩ := mcpHttp_of built started is
    rw [of_apiKey, keyed] at past
    exact Combined.authMiddleware_none.mp past
  · obtain ⟨config, -, -, -, same⟩ := restHttp_of built started is
    exact serve_key (same.trans (of_apiKey.trans keyed)) deeds
  · obtain ⟨config, listen, here, rfl⟩ := mounted_of built started is
    refine (build_ok built).2 ?_ config here
    rw [of_apiKey, keyed]
    rfl

end Build

/-- In whatever order a builder's methods are called, if it builds and its listeners are
    started, they are set up by each method's last call; and behind a static key nothing is
    reached at any of them without it, whatever their own configurations say. -/
theorem listeners_asTold (a : Activation) (methods : List Method) (s : TransportServer)
    (crates : Crates) (l : Listeners)
    (built : (TransportServerBuilder.of a methods).build = .ok s)
    (started : s.serve crates = .listeners l) :
    AsTold methods l ∧
      ∀ key, (last Method.apiKey? methods).getD none = some key → Gated key l :=
  ⟨asTold built started, fun _ keyed => gated built started keyed⟩

/-- A key called for before the listeners, a bind address after them, and a mount that takes no
    one unnamed. -/
def keyedMethods : List Method :=
  [ .withApiKey (some "k".toList), .withWebsocket 4455, .withRestHttp 8888, .withMcpHttp 8889,
    .withMcp ⟨some (loopback 8890), false⟩, .bind (.v4 0#32), .withTls ⟨"cert.pem", "key.pem"⟩ ]

/-- A stream that ends with no item. -/
def nothing : PlexusStream where
  yielded _ := []
  ended _ := true
  grows _ _ _ := List.prefix_rfl
  closed _ _ _ _ := ⟨rfl, rfl⟩

def idle : Activation := ⟨fun _ _ _ => .ok nothing, ⟨"idle".toList, "1.0.0", "0", []⟩⟩

def noCrates : Crates := ⟨⟨fun _ => "", 0⟩, fun _ => .unmatched, "0.8.0"⟩

theorem listeners_asTold_keyed : ∃ s l, (TransportServerBuilder.of idle keyedMethods).build = .ok s ∧
    s.serve noCrates = .listeners l ∧ AsTold keyedMethods l ∧ Gated "k".toList l ∧
      l.websocket.isSome = true ∧ l.restHttp.isSome = true ∧ l.mcpHttp.isSome = true := by
  obtain ⟨told, gate⟩ := listeners_asTold idle keyedMethods _ noCrates _ rfl rfl
  exact ⟨_, _, rfl, rfl, told, gate _ rfl, rfl, rfl, rfl⟩

end PlexusTransport.Server
