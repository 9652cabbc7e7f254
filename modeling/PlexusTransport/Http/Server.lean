import PlexusTransport.Http.Admission
import PlexusTransport.Http.Registry

/-! # A REST request and its method

The server's checks, the host's before the key's, then the bridge's: the method, its verb,
the caller, the body. A request past them all runs its method.
-/

namespace PlexusTransport.Http.Rest

open Http Plexus Registry Websocket Admission

/-- plexus-core's refusals, as they are written and told. -/
structure RemoteErrors where
  activationNotFound : Text → RemoteError
  methodNotFound : Text → Text → RemoteError
  malformed : String → RemoteError
  unauthenticated : RemoteError
  activation_kind : ∀ space, (activationNotFound space).kind = .activationNotFound
  method_kind : ∀ space method, (methodNotFound space method).kind = .methodNotFound
  malformed_kind : ∀ detail, (malformed detail).kind = .invalidParams
  unauthenticated_kind : unauthenticated.kind = .unauthenticated

/-- A body that axum does not read as JSON. -/
inductive JsonRejection where
  | syntaxError (detail : String)
  | dataError (detail : String)
  | other (r : Response)

structure RestRequest extends Request where
  body : Except JsonRejection Json

/-- How a method is reached. -/
inductive Via where
  | routeAs
  | routeFn
  | activation
  deriving DecidableEq, Repr

/-- A method as it is called. -/
structure Call where
  via : Via
  name : Text
  params : Json
  caller : Option AuthContext

abbrev Called : Type := Except RemoteError PlexusStream

structure RestBridgeState where
  activation : Text → Json → Option AuthContext → Called
  routeFn : Option (Text → Json → Called)
  routeAs : Option (Text → Json → Option AuthContext → Called)
  validator : Option SessionValidator
  apiKey : Option Text
  registry : MethodRegistry

structure ActivationRestBridge where
  activation : Text → Json → Option AuthContext → Called
  schemas : List PluginSchema
  routeFn : Option (Text → Json → Called)
  routeAs : Option (Text → Json → Option AuthContext → Called)
  validator : Option SessionValidator
  apiKey : Option Text

namespace ActivationRestBridge

def withApiKey (b : ActivationRestBridge) (apiKey : Option Text) : ActivationRestBridge :=
  { b with apiKey := apiKey }

/-- `schemas_to_rest_routes`: the state its one route's handler has. -/
def intoRouter (b : ActivationRestBridge) : RestBridgeState :=
  ⟨b.activation, b.routeFn, b.routeAs, b.validator, b.apiKey, .fromSchemas b.schemas⟩

end ActivationRestBridge

/-- What a request makes the server do: a credential is handed to the validator, a method
    is run. -/
inductive Deed where
  | asked (a : Asked)
  | ran (c : Call)

/-- An answer, or the stream that is answered with. -/
inductive Answered where
  | text (r : Response)
  | json (headers : List (String × String)) (r : JsonResponse)
  | called (stream : PlexusStream) (cardinality : Cardinality)

def Answered.status : Answered → Option Nat
  | .text r => some r.status
  | .json _ r => some r.status
  | .called _ _ => none

/-- `remote_error_response`. -/
def remoteErrorResponse (error : RemoteError) : Answered :=
  .json [] ⟨remoteErrorStatus error, .obj [(some "error", error.json)]⟩

namespace RestBridgeState

/-- The service's route with the caller, a route without, or the one activation. -/
def dispatch (state : RestBridgeState) (space method : Text) (params : Json)
    (auth : Option AuthContext) : Call × Called :=
  match state.routeAs, state.routeFn with
  | some routeAs, _ =>
      let full := Mcp.toolName space method
      (⟨.routeAs, full, params, auth⟩, routeAs full params auth)
  | none, some routeFn =>
      let full := Mcp.toolName space method
      (⟨.routeFn, full, params, none⟩, routeFn full params)
  | none, none => (⟨.activation, method, params, auth⟩, state.activation method params auth)

/-- What `identify` hands the validator. -/
def asks (state : RestBridgeState) (h : HeaderMap) : List Asked :=
  match state.validator with
  | none => []
  | some validator => tried validator (firstText h "cookie") (Bridge.bearer state.apiKey h)

def restMethodHandler (errors : RemoteErrors) (state : RestBridgeState) (space method : Text)
    (request : RestRequest) : List Deed × Answered :=
  match state.registry.get space method with
  | none =>
      let error :=
        if state.registry.hasNamespace space then errors.methodNotFound space method
        else errors.activationNotFound space
      ([], remoteErrorResponse error)
  | some info =>
      let expected := info.httpMethod.verb
      if request.method ≠ expected then
        ([], .json [("allow", expected)] ⟨405, .obj [(some "error", .str (some
          s!"{request.method} not allowed for {String.ofList (Mcp.toolName space method)}; use {expected}"))]⟩)
      else
        let asked := (state.asks request.headers).map Deed.asked
        match Bridge.identify state.validator state.apiKey request.headers with
        | .error _ => (asked, remoteErrorResponse errors.unauthenticated)
        | .ok auth =>
            match request.body with
            | .error (.syntaxError detail) | .error (.dataError detail) =>
                (asked, remoteErrorResponse (errors.malformed detail))
            | .error (.other rejection) => (asked, .text rejection)
            | .ok params =>
                let (call, result) := state.dispatch space method params auth
                (asked ++ [.ran call],
                  match result with
                  | .ok stream => .called stream info.cardinality
                  | .error e => remoteErrorResponse e)

end RestBridgeState

/-- Where a path leads. -/
inductive Endpoint where
  | method (space method : Text)
  | debug
  | unmatched
  deriving DecidableEq, Repr

/-- `route`: the router's, of a path. -/
structure RestServer where
  hosts : List Text
  apiKey : Option Text
  route : Text → Endpoint
  version : String
  bridge : ActivationRestBridge

def debugHandler (version : String) : JsonResponse where
  status := 200
  body := .obj [
    (some "server", .str (some "plexus-rest-http")), (some "version", .str (some version)),
    (some "protocol", .str (some "REST HTTP")),
    (some "endpoint_format", .str (some "POST /rest/\x7bnamespace\x7d/\x7bmethod\x7d"))]

def fallbackHandler (request : RestRequest) : JsonResponse where
  status := 404
  body := .obj [
    (some "error", .str (some s!"Not found: {request.method} {String.ofList request.path}")),
    (some "hint", .str (some "Expected format: POST /rest/\x7bnamespace\x7d/\x7bmethod\x7d"))]

def misdirected : Response := ⟨421, [("content-type", "text/plain; charset=utf-8")], Host.refusal⟩

namespace RestServer

/-- The bridge is served behind the server's key. -/
def state (s : RestServer) : RestBridgeState := (s.bridge.withApiKey s.apiKey).intoRouter

def serve (errors : RemoteErrors) (s : RestServer) (request : RestRequest) : List Deed × Answered :=
  match Host.refused s.hosts request.toRequest with
  | some _ => ([], .text misdirected)
  | none =>
      match authMiddleware s.apiKey request.headers with
      | some refused => ([], .text refused)
      | none =>
          match s.route request.path with
          | .method space method => s.state.restMethodHandler errors space method request
          | .debug => ([], .json [] (debugHandler s.version))
          | .unmatched => ([], .json [] (fallbackHandler request))

end RestServer

/-- The checks, in their order. -/
inductive Check where
  | host
  | key
  | route
  | known
  | verb
  | caller
  | body
  deriving DecidableEq, Repr

def Check.early : List Check := [.host, .key, .route, .known, .verb]

def Check.all : List Check := Check.early ++ [.caller, .body]

namespace RestServer

/-- The method a request names, if there is one. -/
def method? (s : RestServer) (request : RestRequest) : Option RestMethodInfo :=
  match s.route request.path with
  | .method space method => s.state.registry.get space method
  | _ => none

/-- The status a check refuses a request with, whatever the others say. -/
def refusal (s : RestServer) (request : RestRequest) : Check → Option Nat
  | .host => (Host.refused s.hosts request.toRequest).map fun _ => 421
  | .key => (authMiddleware s.apiKey request.headers).map fun _ => 401
  | .route => if s.route request.path = .unmatched then some 404 else none
  | .known =>
      match s.route request.path with
      | .method _ _ => if (s.method? request).isNone then some 404 else none
      | _ => none
  | .verb => (s.method? request).bind fun info =>
      if request.method = info.httpMethod.verb then none else some 405
  | .caller => (s.method? request).bind fun _ =>
      match Bridge.identify s.state.validator s.apiKey request.headers with
      | .error _ => some 401
      | .ok _ => none
  | .body => (s.method? request).bind fun _ =>
      match request.body with
      | .error (.other r) => some r.status
      | .error _ => some 400
      | .ok _ => none

end RestServer

/-- Nothing stands between a request and its method. -/
structure Admitted (s : RestServer) (request : RestRequest) (space method : Text)
    (info : RestMethodInfo) (auth : Option AuthContext) (params : Json) : Prop where
  host : Host.refused s.hosts request.toRequest = none
  key : authMiddleware s.apiKey request.headers = none
  route : s.route request.path = .method space method
  known : s.state.registry.get space method = some info
  verb : request.method = info.httpMethod.verb
  caller : Bridge.identify s.state.validator s.apiKey request.headers = .ok auth
  body : request.body = .ok params

/-- A call of the method whose verb and cardinality are the request's, as its caller: by its
    full name, or by the name in the path. -/
structure Call.Right (c : Call) (space method : Text) (info : RestMethodInfo)
    (auth : Option AuthContext) (params : Json) : Prop where
  params : c.params = params
  named : c.via ≠ .activation → c.name = info.fullName
  alone : c.via = .activation → c.name = method ∧ (c.name = info.method ↔ info.space = space)
  caller : c.caller = if c.via = .routeFn then none else auth

def Deed.call? : Deed → Option Call
  | .ran c => some c
  | .asked _ => none

/-- What a request is answered and makes the server do: what the first check that refuses it
    says, or its method is run, once. -/
structure Decided (errors : RemoteErrors) (s : RestServer) (request : RestRequest) : Prop where
  refused : ∀ n, Check.all.findSome? (s.refusal request) = some n →
    (s.serve errors request).2.status = some n ∧
      (s.serve errors request).1.filterMap Deed.call? = []
  passed : Check.all.findSome? (s.refusal request) = none →
    (s.route request.path = .debug ∧
        s.serve errors request = ([], .json [] (debugHandler s.version))) ∨
      ∃ space method info auth params c, Admitted s request space method info auth params ∧
        (s.serve errors request).1.filterMap Deed.call? = [c] ∧
          c.Right space method info auth params
  asked : ∀ a, Deed.asked a ∈ (s.serve errors request).1 →
    Check.early.findSome? (s.refusal request) = none ∧ a ∈ s.state.asks request.headers

section Handler

variable (errors : RemoteErrors) (state : RestBridgeState) {space method : Text}
  {request : RestRequest} {info : RestMethodInfo}

/-- A validator is asked about credentials, and nothing is run. -/
theorem asked_calls (asked : List Asked) : (asked.map Deed.asked).filterMap Deed.call? = [] := by
  simp [List.filterMap_map, Function.comp_def, Deed.call?]

theorem handler_unknown (request : RestRequest) (none : state.registry.get space method = none) :
    (state.restMethodHandler errors space method request).1 = [] ∧
      (state.restMethodHandler errors space method request).2.status = some 404 := by
  simp only [RestBridgeState.restMethodHandler, none]
  refine ⟨trivial, ?_⟩
  cases state.registry.hasNamespace space
  · simp [remoteErrorResponse, Answered.status, remoteErrorStatus, errors.activation_kind]
  · simp [remoteErrorResponse, Answered.status, remoteErrorStatus, errors.method_kind]

theorem handler_verb (known : state.registry.get space method = some info)
    (other : request.method ≠ info.httpMethod.verb) :
    (state.restMethodHandler errors space method request).1 = [] ∧
      (state.restMethodHandler errors space method request).2.status = some 405 := by
  simp only [RestBridgeState.restMethodHandler, known, if_pos other]
  exact ⟨trivial, rfl⟩

theorem handler_body (known : state.registry.get space method = some info)
    (verb : request.method = info.httpMethod.verb) {auth : Option AuthContext}
    (named : Bridge.identify state.validator state.apiKey request.headers = .ok auth)
    {rejection : JsonRejection} (refused : request.body = .error rejection) :
    (state.restMethodHandler errors space method request).2.status =
        some (match rejection with | .other r => r.status | _ => 400) ∧
      (state.restMethodHandler errors space method request).1.filterMap Deed.call? = [] := by
  simp only [RestBridgeState.restMethodHandler, known, verb, ne_eq, not_true_eq_false, if_false,
    named, refused]
  cases rejection with
  | syntaxError detail | dataError detail =>
      refine ⟨?_, asked_calls _⟩
      simp [remoteErrorResponse, Answered.status, remoteErrorStatus, errors.malformed_kind]
  | other r => exact ⟨rfl, asked_calls _⟩

theorem handler_runs (known : state.registry.get space method = some info)
    (verb : request.method = info.httpMethod.verb) {auth : Option AuthContext}
    (named : Bridge.identify state.validator state.apiKey request.headers = .ok auth)
    {params : Json} (body : request.body = .ok params) :
    (state.restMethodHandler errors space method request).1.filterMap Deed.call? =
      [(state.dispatch space method params auth).1] := by
  simp only [RestBridgeState.restMethodHandler, known, verb, ne_eq, not_true_eq_false, if_false,
    named, body, List.filterMap_append, asked_calls]
  rfl

end Handler

section Decide

variable {errors : RemoteErrors} {s : RestServer} {request : RestRequest} {n : Nat}

theorem decided_refused (first : Check.all.findSome? (s.refusal request) = some n)
    (status : (s.serve errors request).2.status = some n)
    (calls : (s.serve errors request).1.filterMap Deed.call? = [])
    (asked : ∀ a, Deed.asked a ∈ (s.serve errors request).1 →
      Check.early.findSome? (s.refusal request) = none ∧ a ∈ s.state.asks request.headers) :
    Decided errors s request := by
  refine ⟨fun m refused => ?_, fun passed => ?_, asked⟩
  · cases first.symm.trans refused
    exact ⟨status, calls⟩
  · cases first.symm.trans passed

end Decide

/-- An error by its kind's name alone. -/
def named (kind : RemoteErrorKind) (name : String) : RemoteError :=
  ⟨kind, .obj [(some "kind", .str (some name))], name⟩

def namedErrors : RemoteErrors where
  activationNotFound _ := named .activationNotFound "activation_not_found"
  methodNotFound _ _ := named .methodNotFound "method_not_found"
  malformed _ := named .invalidParams "invalid_params"
  unauthenticated := named .unauthenticated "unauthenticated"
  activation_kind _ := rfl
  method_kind _ _ := rfl
  malformed_kind _ := rfl
  unauthenticated_kind := rfl

/-- One method, `hub.who`, read with a `GET` by callers with a token. -/
def hubServer : RestServer where
  hosts := []
  apiKey := none
  route path := if path = "/rest/hub/who".toList then .method "hub".toList "who".toList else .unmatched
  version := "0.8.0"
  bridge :=
    { activation := fun _ _ _ => .error (named .execution "execution")
      schemas := [⟨"hub".toList, [⟨"who".toList, .one, .get⟩]⟩]
      routeFn := none
      routeAs := none
      validator := some Bridge.oneToken
      apiKey := none }

end PlexusTransport.Http.Rest
