import PlexusTransport.Combined
import PlexusTransport.Lib.Loop
import PlexusTransport.Registration
import PlexusTransport.Websocket.Metadata

/-! # A server and its listeners

What the builder is told, what it refuses to build, and how each listener of what it
builds is set up.
-/

namespace PlexusTransport.Server

open Http Net Plexus Proxy Text Websocket

structure SocketAddr where
  ip : IpAddr
  port : UInt16
  deriving DecidableEq, Repr

/-- `127.0.0.1:port`. -/
def loopback (port : UInt16) : SocketAddr := ⟨.v4 0x7f000001#32, port⟩

structure TlsConfig where
  cert : String
  key : String
  deriving DecidableEq, Repr

def defaultApiKeyHeader : String := "x-plexus-api-key"

def defaultQuotas : ConnectionQuotas := ⟨1024, 256, 64, 128, 32⟩

structure WebSocketConfig where
  addr : SocketAddr
  apiKey : Option Text
  apiKeyHeader : String
  allowedOrigins : List Text
  allowedHosts : List Text
  quotas : ConnectionQuotas
  trustedProxies : TrustedProxies
  tls : Option TlsConfig

def WebSocketConfig.new (port : UInt16) : WebSocketConfig :=
  ⟨loopback port, none, defaultApiKeyHeader, [], [], defaultQuotas, ⟨[], false⟩, none⟩

structure McpHttpConfig where
  addr : SocketAddr
  apiKey : Option Text
  allowedHosts : List Text
  tls : Option TlsConfig

def McpHttpConfig.new (port : UInt16) : McpHttpConfig := ⟨loopback port, none, [], none⟩

structure RestHttpConfig where
  addr : SocketAddr
  allowedHosts : List Text
  tls : Option TlsConfig

def RestHttpConfig.new (port : UInt16) : RestHttpConfig := ⟨loopback port, [], none⟩

structure TransportConfig where
  websocket : Option WebSocketConfig
  stdio : Bool
  mcpHttp : Option McpHttpConfig
  restHttp : Option RestHttpConfig
  apiKey : Option Text
  apiKeyHeader : String

def TransportConfig.default : TransportConfig := ⟨none, false, none, none, none, defaultApiKeyHeader⟩

/-- What the server reads of the bridge's own configuration. -/
structure McpConfig where
  listen : Option SocketAddr
  admitsAnonymous : Bool

structure HostRoutes where
  router : Incoming → Option ForwardedClient → Response
  socketPath : Text

structure UpgradeOptions where
  rejectOnSessionFailure : Bool
  anonymousView : Bool
  credentialCookies : List Text
  protectedResource : Option ProtectedResource
  routes : Option HostRoutes

def UpgradeOptions.default : UpgradeOptions := ⟨false, false, [], none, none⟩

structure RegistryOptions where
  enabled : Option Bool
  url : Option String
  name : Option String
  host : Option String

structure MethodSchema extends Registry.MethodSchema where
  params : Option Json

structure PluginSchema where
  space : Text
  version : String
  hash : String
  methods : List MethodSchema

structure Activation where
  call : Text → Json → Option AuthContext → Rest.Called
  schema : PluginSchema

def PluginSchema.methodSchemas (s : PluginSchema) : Registry.PluginSchema :=
  ⟨s.space, s.methods.map (·.toMethodSchema)⟩

structure TransportServerBuilder where
  activation : Activation
  config : TransportConfig
  flatSchemas : Option (List Registry.PluginSchema)
  routeFn : Option (Text → Json → Rest.Called)
  routeAsFn : Option (Text → Json → Option AuthContext → Rest.Called)
  sessionValidator : Option SessionValidator
  allowMissingAuth : Bool
  rejectUpgradeOnAuthFailure : Bool
  allowedOrigins : List Text
  allowedHosts : List Text
  connectionQuotas : Option ConnectionQuotas
  trustedProxies : Option TrustedProxies
  bind : Option IpAddr
  upgrade : UpgradeOptions
  registry : RegistryOptions
  mcp : Option McpConfig
  tls : Option TlsConfig

structure TransportServer where
  activation : Activation
  config : TransportConfig
  flatSchemas : Option (List Registry.PluginSchema)
  routeFn : Option (Text → Json → Rest.Called)
  routeAsFn : Option (Text → Json → Option AuthContext → Rest.Called)
  sessionValidator : Option SessionValidator
  rejectUpgradeOnAuthFailure : Bool
  allowedOrigins : List Text
  allowedHosts : List Text
  connectionQuotas : Option ConnectionQuotas
  trustedProxies : Option TrustedProxies
  upgrade : UpgradeOptions
  registry : RegistryOptions
  mcp : Option McpConfig
  tls : Option TlsConfig

namespace TransportServerBuilder

def new (activation : Activation) : TransportServerBuilder where
  activation := activation
  config := .default
  flatSchemas := none
  routeFn := none
  routeAsFn := none
  sessionValidator := none
  allowMissingAuth := false
  rejectUpgradeOnAuthFailure := false
  allowedOrigins := []
  allowedHosts := []
  connectionQuotas := none
  trustedProxies := none
  bind := none
  upgrade := .default
  registry := ⟨none, none, none, none⟩
  mcp := none
  tls := none

end TransportServerBuilder

/-- The builder's methods. -/
inductive Method where
  | withMcp (config : McpConfig)
  | withoutRegistry
  | withRegistryName (name : String)
  | withRegistryUrl (url : String)
  | withRegistryHost (host : String)
  | withWebsocket (port : UInt16)
  | withStdio
  | withMcpHttp (port : UInt16)
  | withMcpHttpConfig (config : McpHttpConfig)
  | withRestHttp (port : UInt16)
  | withRestHttpConfig (config : RestHttpConfig)
  | withFlatSchemas (schemas : List Registry.PluginSchema)
  | withRouteFn (routeFn : Text → Json → Rest.Called)
  | withRouteAsFn (routeAsFn : Text → Json → Option AuthContext → Rest.Called)
  | withApiKey (key : Option Text)
  | withApiKeyHeader (header : String)
  | withSessionValidator (validator : SessionValidator)
  | rejectUpgradeOnAuthFailure
  | withAllowedOrigins (origins : List Text)
  | withAllowedHosts (hosts : List Text)
  | withConnectionQuotas (quotas : ConnectionQuotas)
  | bind (ip : IpAddr)
  | withTrustedProxies (proxies : TrustedProxies)
  | anonymousView
  | credentialCookies (names : List Text)
  | withProtectedResource (resource : ProtectedResource)
  | withTls (tls : TlsConfig)
  | withHostRoutes (routes : HostRoutes)
  | allowMissingAuthMiddleware

def TransportServerBuilder.apply (b : TransportServerBuilder) : Method → TransportServerBuilder
  | .withMcp config => { b with mcp := some config }
  | .withoutRegistry => { b with registry.enabled := some false }
  | .withRegistryName name => { b with registry.name := some name }
  | .withRegistryUrl url => { b with registry.url := some url }
  | .withRegistryHost host => { b with registry.host := some host }
  | .withWebsocket port => { b with config.websocket := some (.new port) }
  | .withStdio => { b with config.stdio := true }
  | .withMcpHttp port => { b with config.mcpHttp := some (.new port) }
  | .withMcpHttpConfig config => { b with config.mcpHttp := some config }
  | .withRestHttp port => { b with config.restHttp := some (.new port) }
  | .withRestHttpConfig config => { b with config.restHttp := some config }
  | .withFlatSchemas schemas => { b with flatSchemas := some schemas }
  | .withRouteFn routeFn => { b with routeFn := some routeFn }
  | .withRouteAsFn routeAsFn => { b with routeAsFn := some routeAsFn }
  | .withApiKey key => { b with config.apiKey := key }
  | .withApiKeyHeader header => { b with config.apiKeyHeader := header }
  | .withSessionValidator validator => { b with sessionValidator := some validator }
  | .rejectUpgradeOnAuthFailure => { b with rejectUpgradeOnAuthFailure := true }
  | .withAllowedOrigins origins => { b with allowedOrigins := origins }
  | .withAllowedHosts hosts => { b with allowedHosts := hosts }
  | .withConnectionQuotas quotas => { b with connectionQuotas := some quotas }
  | .bind ip => { b with bind := some ip }
  | .withTrustedProxies proxies => { b with trustedProxies := some proxies }
  | .anonymousView => { b with upgrade.anonymousView := true }
  | .credentialCookies names => { b with upgrade.credentialCookies := names }
  | .withProtectedResource resource => { b with upgrade.protectedResource := some resource }
  | .withTls tls => { b with tls := some tls }
  | .withHostRoutes routes => { b with upgrade.routes := some routes }
  | .allowMissingAuthMiddleware => { b with allowMissingAuth := true }

/-- A builder its methods were called on, in this order. -/
def TransportServerBuilder.of (activation : Activation) (methods : List Method) :
    TransportServerBuilder :=
  methods.foldl apply (new activation)

def asObject : Json → Option (List (Literal × Json))
  | .obj members => some members
  | _ => none

/-- `x-plexus-source` says that a property is from the caller's sign-in. -/
def fromAuth (prop : Json) : Bool :=
  ((Mcp.member "x-plexus-source" prop).bind (Mcp.member "from")).bind Json.string? == some "auth"

def MethodSchema.gated (m : MethodSchema) : Bool :=
  match m.params with
  | none => false
  | some params =>
      match (Mcp.member "properties" params).bind asObject with
      | none => false
      | some props => props.any fun (_, prop) => fromAuth prop

/-- `collect_auth_gated_methods`. -/
def PluginSchema.authGated (s : PluginSchema) : List Text :=
  (s.methods.filter (·.gated)).map fun m => Mcp.toolName s.space m.name

/-- Of the auth-gated methods an error tells the number and the names of the first eight. -/
inductive BuildError where
  | mountUngated
  | missingAuth (gated : Nat) (summary : List Text)
  deriving DecidableEq, Repr

def BuildError.missing (gated : List Text) : BuildError := .missingAuth gated.length (gated.take 8)

def BuildError.advice : String :=
  " but no auth middleware configured. Call `.with_session_validator(...)` or " ++
    "`.with_api_key(...)` on the builder, or `.allow_missing_auth_middleware()` to " ++
    "intentionally opt out.\n\nAuth-gated methods:"

def BuildError.text : BuildError → String
  | .mountUngated =>
      "with_mcp: `.with_api_key(...)` does not gate the MCP mount, and this McpConfig admits " ++
        "anonymous callers, who would reach the hub without the key. Set " ++
        "`McpConfig.anonymous = false` (or `oauth`), with `.with_session_validator(...)` to " ++
        "admit Bearer callers."
  | .missingAuth gated summary =>
      let summary := "\n".intercalate (summary.map fun m => "  - " ++ String.ofList m)
      let extra := if 8 < gated then "\n  ... (" ++ toString (gated - 8) ++ " more)" else ""
      "RED-4: " ++ toString gated ++ " auth-gated method(s) declared" ++ advice ++ "\n" ++
        summary ++ extra

def isUnspecified : IpAddr → Bool
  | .v4 bits => bits == 0
  | .v6 bits => bits == 0

def SocketAddr.setIp (addr : SocketAddr) (ip : Option IpAddr) : SocketAddr :=
  { addr with ip := ip.getD addr.ip }

namespace TransportServerBuilder

/-- One bind address, and one pair for every listener that names none. -/
def placed (b : TransportServerBuilder) : TransportConfig :=
  { b.config with
    websocket := b.config.websocket.map fun ws =>
      { ws with addr := ws.addr.setIp b.bind, tls := ws.tls.or b.tls }
    mcpHttp := b.config.mcpHttp.map fun mcp =>
      { mcp with addr := mcp.addr.setIp b.bind, tls := mcp.tls.or b.tls }
    restHttp := b.config.restHttp.map fun rest =>
      { rest with addr := rest.addr.setIp b.bind, tls := rest.tls.or b.tls } }

/-- The host to advertise, when none is named and the bind address says one. -/
def registryHost (b : TransportServerBuilder) : Option String :=
  match b.registry.host, b.bind with
  | none, some ip => if !isUnspecified ip && !ip.isLoopback then some ip.display else none
  | host, _ => host

/-- The auth-gated methods, where nothing is configured that signs anyone in. -/
def unguarded (b : TransportServerBuilder) : List Text :=
  let authConfigured := b.config.apiKey.isSome || b.sessionValidator.isSome
  if !authConfigured && !b.allowMissingAuth then b.activation.schema.authGated else []

/-- What is built. -/
def server (b : TransportServerBuilder) : TransportServer where
  activation := b.activation
  config := b.placed
  flatSchemas := b.flatSchemas
  routeFn := b.routeFn
  routeAsFn := b.routeAsFn
  sessionValidator := b.sessionValidator
  rejectUpgradeOnAuthFailure := b.rejectUpgradeOnAuthFailure
  allowedOrigins := b.allowedOrigins
  allowedHosts := b.allowedHosts
  connectionQuotas := b.connectionQuotas
  trustedProxies := b.trustedProxies
  upgrade := b.upgrade
  registry := { b.registry with host := b.registryHost }
  mcp := b.mcp.map fun m => { m with listen := m.listen.map (·.setIp b.bind) }
  tls := b.tls

def build (b : TransportServerBuilder) : Except BuildError TransportServer :=
  if b.config.apiKey.isSome && b.mcp.any (·.admitsAnonymous) then .error .mountUngated
  else if !b.unguarded.isEmpty then .error (.missing b.unguarded)
  else .ok b.server

end TransportServerBuilder

/-- The last call of these methods to set something. -/
def last {α : Type} (sets : Method → Option α) (methods : List Method) : Option α :=
  methods.reverse.findSome? sets

namespace Method

def apiKey? : Method → Option (Option Text)
  | .withApiKey key => some key
  | _ => none

def apiKeyHeader? : Method → Option String
  | .withApiKeyHeader header => some header
  | _ => none

def sessionValidator? : Method → Option SessionValidator
  | .withSessionValidator validator => some validator
  | _ => none

def allowedOrigins? : Method → Option (List Text)
  | .withAllowedOrigins origins => some origins
  | _ => none

def allowedHosts? : Method → Option (List Text)
  | .withAllowedHosts hosts => some hosts
  | _ => none

def connectionQuotas? : Method → Option ConnectionQuotas
  | .withConnectionQuotas quotas => some quotas
  | _ => none

def trustedProxies? : Method → Option TrustedProxies
  | .withTrustedProxies proxies => some proxies
  | _ => none

def bind? : Method → Option IpAddr
  | .bind ip => some ip
  | _ => none

def tls? : Method → Option TlsConfig
  | .withTls tls => some tls
  | _ => none

end Method

section Methods

variable {a : Activation} {methods : List Method}

theorem of_last {α : Type} (read : TransportServerBuilder → α) (sets : Method → Option α)
    (each : ∀ b m, read (b.apply m) = (sets m).getD (read b)) :
    read (.of a methods) = (last sets methods).getD (read (.new a)) :=
  Loop.foldl_last read sets each methods (.new a)

/-- What is given or not is the last given, if one was. -/
theorem of_last_some {α : Type} (read : TransportServerBuilder → Option α) (sets : Method → Option α)
    (each : ∀ b m, read (b.apply m) = (sets m).or (read b)) (new : read (.new a) = none) :
    read (.of a methods) = last sets methods := by
  rw [TransportServerBuilder.of, Loop.foldl_last_some read sets each, new, Option.or_none, last]

end Methods

end PlexusTransport.Server
