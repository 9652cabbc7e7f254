import PlexusTransport.Server.Listeners

/-! # What is told the registry of a server

Its record, made of the builder's calls, the environment and the port that was bound.
-/

namespace PlexusTransport.Server

open Net Registration Text

def defaultRegistryUrl : String := "ws://127.0.0.1:4444"

/-- `PLEXUS_REGISTRY_URL`, or the default. -/
def registryUrlFromEnv (env : Option Text) : String :=
  match (env.map trim).filter fun url => !url.isEmpty with
  | some url => String.ofList url
  | none => defaultRegistryUrl

/-- `PLEXUS_NO_REGISTRY`. -/
def registryDisabledByEnv (env : Option Text) : Bool :=
  match env with
  | none => false
  | some v =>
      let v := toAsciiLowercase (trim v)
      v == "1".toList || v == "true".toList || v == "yes".toList

structure Env where
  registryUrl : Option Text
  noRegistry : Option Text

/-- The record `serve` makes when its socket is bound at `port`. -/
def TransportServer.registration (s : TransportServer) (env : Env) (port : UInt16) :
    Option RegistryRegistration :=
  if s.config.stdio || s.config.websocket.isNone then none
  else if s.registry.enabled.getD true && !registryDisabledByEnv env.noRegistry then
    some
      { url := s.registry.url.getD (registryUrlFromEnv env.registryUrl)
        name := s.registry.name.getD (String.ofList s.activation.schema.space)
        host := s.registry.host.getD "127.0.0.1"
        port := port
        version := s.activation.schema.version
        schemaHash := s.activation.schema.hash }
  else none

namespace Method

def registryUrl? : Method → Option String
  | .withRegistryUrl url => some url
  | _ => none

def registryName? : Method → Option String
  | .withRegistryName name => some name
  | _ => none

def registryHost? : Method → Option String
  | .withRegistryHost host => some host
  | _ => none

def mcp? : Method → Option McpConfig
  | .withMcp config => some config
  | _ => none

def isStdio : Method → Bool
  | .withStdio => true
  | _ => false

def isWebsocket : Method → Bool
  | .withWebsocket _ => true
  | _ => false

def isWithoutRegistry : Method → Bool
  | .withoutRegistry => true
  | _ => false

def isAllowMissingAuth : Method → Bool
  | .allowMissingAuthMiddleware => true
  | _ => false

end Method

/-- An address other hosts may reach the server at. -/
def advertised (ip : IpAddr) : Option String :=
  if !isUnspecified ip && !ip.isLoopback then some ip.display else none

/-- The record the calls ask for. -/
def recordOf (a : Activation) (methods : List Method) (env : Env) (port : UInt16) :
    RegistryRegistration where
  url := (last Method.registryUrl? methods).getD (registryUrlFromEnv env.registryUrl)
  name := (last Method.registryName? methods).getD (String.ofList a.schema.space)
  host := ((last Method.registryHost? methods).or
    ((last Method.bind? methods).bind advertised)).getD "127.0.0.1"
  port := port
  version := a.schema.version
  schemaHash := a.schema.hash

/-- They ask for one: a socket, not beside stdio, and the registry opted out of nowhere. -/
def Asks (methods : List Method) (env : Env) : Prop :=
  methods.any Method.isStdio = false ∧ methods.any Method.isWebsocket = true ∧
    methods.any Method.isWithoutRegistry = false ∧ registryDisabledByEnv env.noRegistry = false

section Build

variable {a : Activation} {methods : List Method} {s : TransportServer} {env : Env} {port : UInt16}

theorem of_any (read : TransportServerBuilder → Bool) (raises : Method → Bool)
    (each : ∀ b m, read (b.apply m) = (raises m || read b)) (new : read (.new a) = false) :
    read (.of a methods) = methods.any raises := by
  rw [TransportServerBuilder.of, Loop.foldl_any read raises each, new, Bool.or_false]

theorem of_stdio : (TransportServerBuilder.of a methods).config.stdio = methods.any Method.isStdio :=
  of_any (fun b => b.config.stdio) Method.isStdio (fun b m => by cases m <;> rfl) rfl

theorem of_websocket : (TransportServerBuilder.of a methods).config.websocket.isSome =
    methods.any Method.isWebsocket :=
  of_any (fun b => b.config.websocket.isSome) Method.isWebsocket (fun b m => by cases m <;> rfl) rfl

theorem of_withoutRegistry : (!(TransportServerBuilder.of a methods).registry.enabled.getD true) =
    methods.any Method.isWithoutRegistry :=
  of_any (fun b => !b.registry.enabled.getD true) Method.isWithoutRegistry
    (fun b m => by cases m <;> rfl) rfl

theorem of_allowMissingAuth : (TransportServerBuilder.of a methods).allowMissingAuth =
    methods.any Method.isAllowMissingAuth :=
  of_any (·.allowMissingAuth) Method.isAllowMissingAuth (fun b m => by cases m <;> rfl) rfl

theorem of_registryUrl : (TransportServerBuilder.of a methods).registry.url =
    last Method.registryUrl? methods :=
  of_last_some (fun b => b.registry.url) Method.registryUrl? (fun b m => by cases m <;> rfl) rfl

theorem of_registryName : (TransportServerBuilder.of a methods).registry.name =
    last Method.registryName? methods :=
  of_last_some (fun b => b.registry.name) Method.registryName? (fun b m => by cases m <;> rfl) rfl

theorem of_registryHost : (TransportServerBuilder.of a methods).registry.host =
    last Method.registryHost? methods :=
  of_last_some (fun b => b.registry.host) Method.registryHost? (fun b m => by cases m <;> rfl) rfl

theorem of_mcp : (TransportServerBuilder.of a methods).mcp = last Method.mcp? methods :=
  of_last_some (·.mcp) Method.mcp? (fun b m => by cases m <;> rfl) rfl

theorem of_activation : (TransportServerBuilder.of a methods).activation = a :=
  Loop.foldl_keeps (I := fun b : TransportServerBuilder => b.activation = a) (fun b m is => by cases m <;> exact is) methods rfl

theorem registryHost_eq (b : TransportServerBuilder) :
    b.registryHost = b.registry.host.or (b.bind.bind advertised) := by
  unfold TransportServerBuilder.registryHost
  cases b.registry.host <;> cases b.bind <;> rfl

/-- The record of what a builder holds is the one its calls ask for. -/
theorem record_eq (b : TransportServerBuilder) (is : b = .of a methods) :
    ({ url := b.server.registry.url.getD (registryUrlFromEnv env.registryUrl)
       name := b.server.registry.name.getD (String.ofList b.server.activation.schema.space)
       host := b.server.registry.host.getD "127.0.0.1"
       port := port
       version := b.server.activation.schema.version
       schemaHash := b.server.activation.schema.hash } : RegistryRegistration) =
      recordOf a methods env port := by
  have activation : b.server.activation = a := is ▸ of_activation
  have url : b.server.registry.url = last Method.registryUrl? methods := is ▸ of_registryUrl
  have name : b.server.registry.name = last Method.registryName? methods := is ▸ of_registryName
  have host : b.server.registry.host =
      (last Method.registryHost? methods).or ((last Method.bind? methods).bind advertised) := by
    rw [← of_registryHost (a := a), ← of_bind (a := a), ← is]
    exact registryHost_eq b
  rw [activation, url, name, host]
  rfl

theorem asks_iff (env : Env) (b : TransportServerBuilder) (is : b = .of a methods) :
    Asks methods env ↔ (b.server.config.stdio || b.server.config.websocket.isNone) = false ∧
      (b.server.registry.enabled.getD true && !registryDisabledByEnv env.noRegistry) = true := by
  have stdio : b.server.config.stdio = methods.any Method.isStdio := is ▸ of_stdio
  have websocket : b.server.config.websocket.isNone = !methods.any Method.isWebsocket := by
    rw [← of_websocket (a := a), ← is]
    simp [TransportServerBuilder.server, TransportServerBuilder.placed]
  have enabled : b.server.registry.enabled.getD true = !methods.any Method.isWithoutRegistry := by
    rw [← of_withoutRegistry (a := a), ← is, Bool.not_not]
    rfl
  simp only [Asks, stdio, websocket, enabled, Bool.or_eq_false_iff, Bool.and_eq_true,
    Bool.not_eq_true', Bool.not_eq_false']
  tauto

end Build

/-- A server that was built announces itself, when its calls and the environment ask for it,
    with what the last of each call said: its host the one named, else a bind address others may
    reach, else the loopback's. -/
theorem registration_asked (a : Activation) (methods : List Method) (s : TransportServer)
    (built : (TransportServerBuilder.of a methods).build = .ok s) (env : Env) (port : UInt16) :
    (Asks methods env → s.registration env port = some (recordOf a methods env port)) ∧
      (¬ Asks methods env → s.registration env port = none) := by
  obtain ⟨rfl, -⟩ := build_ok built
  have asked := asks_iff env (.of a methods) rfl
  refine ⟨fun asks => ?_, fun asks => ?_⟩
  · obtain ⟨socket, enabled⟩ := asked.mp asks
    rw [TransportServer.registration, socket, enabled, ← record_eq _ rfl]
    rfl
  · unfold TransportServer.registration
    split
    · rfl
    · split
      · rename_i socket enabled
        exact absurd (asked.mpr ⟨Bool.not_eq_true _ ▸ socket, enabled⟩) asks
      · rfl

/-- A server bound to an address of its network, which names no host. -/
def boundMethods : List Method := [.bind (.v4 0x0a000001#32), .withWebsocket 4455]

theorem registration_asked_bound : ∃ s,
    (TransportServerBuilder.of idle boundMethods).build = .ok s ∧
      s.registration ⟨none, none⟩ 4455 = some (recordOf idle boundMethods ⟨none, none⟩ 4455) :=
  ⟨_, rfl, (registration_asked idle boundMethods _ rfl ⟨none, none⟩ 4455).1
    ⟨rfl, rfl, rfl, rfl⟩⟩

end PlexusTransport.Server
