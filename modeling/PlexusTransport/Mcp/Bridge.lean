import PlexusTransport.Lib.Loop
import PlexusTransport.Lib.Text
import PlexusTransport.Plexus

/-! # The MCP bridge

Its tools are an activation's methods. A call's stream goes out item by item as
notifications; the tool's result is built when the stream ends.
-/

namespace PlexusTransport.Mcp

open Plexus

/-- A JSON object as a map, each name in it once. -/
structure Object where
  entries : List (String × Json)
  once : (entries.map (·.1)).Nodup

namespace Object

def empty : Object := ⟨[], .nil⟩

def get (o : Object) (name : String) : Option Json := o.entries.lookup name

def containsKey (o : Object) (name : String) : Bool := (o.get name).isSome

def insert (o : Object) (name : String) (v : Json) : Object where
  entries := (name, v) :: o.entries.filter (·.1 ≠ name)
  once := by
    rw [List.map_cons, List.nodup_cons]
    constructor
    · simp
    · exact o.once.sublist (List.filter_sublist.map _)

def isEmpty (o : Object) : Bool := o.entries.isEmpty

def json (o : Object) : Json := .obj (o.entries.map fun (name, v) => (some name, v))

@[simp] theorem get_insert (o : Object) (name : String) (v : Json) :
    (o.insert name v).get name = some v := by
  simp [get, insert]

end Object

/-- A JSON Schema is a boolean or an object. -/
inductive Schema where
  | bool (b : Bool)
  | object (o : Object)

structure MethodSchema where
  name : Text
  description : String
  params : Option Schema

/-- `space`: the activation's namespace. -/
structure PluginSchema where
  space : Text
  methods : List MethodSchema

structure Tool where
  name : Text
  description : String
  inputSchema : Object

def object : Json := .str (some "object")

/-- A method's parameters, with the type that MCP requires at a schema's root. -/
def inputSchema (params : Option Schema) : Object :=
  match params with
  | some (.object obj) => if obj.containsKey "type" then obj else obj.insert "type" object
  | _ => Object.empty.insert "type" object

def toolName (space method : Text) : Text := space ++ '.' :: method

def schemasToRmcpTools (schemas : List PluginSchema) : List Tool :=
  schemas.flatMap fun activation =>
    activation.methods.map fun method =>
      ⟨toolName activation.space method.name, method.description, inputSchema method.params⟩

structure McpError where
  code : Int
  message : String
  data : Option Json

/-- `plexus_to_mcp_error`, of a rejection as `plexus_error_to_jsonrpc` makes it, its data
    read again. -/
def plexusToMcpError (rejection : McpError) : McpError :=
  ⟨rejection.code, rejection.message, rejection.data⟩

/-- How values are written: on a line, and over lines. -/
structure Serde where
  toString : Json → String
  toStringPretty : Json → Option String

/-- A value under a name, and a number among the values. -/
def member (name : String) : Json → Option Json
  | .obj members => (Json.valuesOf name members).getLast?
  | _ => none

def number? : Json → Option Json
  | .u64 n => some (.u64 n)
  | .num raw => some (.num raw)
  | _ => none

/-- A progress notification's message and percentage. -/
def progressNote (serde : Serde) (content : Json) : String × Option Json :=
  match (member "message" content).bind Json.string? with
  | some message => (message, (member "percentage" content).bind number?)
  | none => (serde.toString content, none)

structure CallToolResult where
  content : String
  isError : Bool
  structuredContent : Option Json

def remoteErrorToolResult (error : RemoteError) : CallToolResult :=
  ⟨error.display, true, some error.json⟩

inductive Level where
  | info
  | error
  deriving DecidableEq, Repr

/-- What goes out to the peer. -/
inductive Notice where
  | log (level : Level) (logger : Text) (data : Json)
  | progress (token : String) (percentage : Json) (message : String)

/-- A call's loop so far. -/
structure Streamed where
  fatal : Option RemoteError
  bufferedData : List Json
  notices : List Notice

def Streamed.start : Streamed := ⟨none, [], []⟩

/-- How the loop is left. -/
inductive Stopped where
  | cancelled
  | broke (s : Streamed)

/-- A typed notification's data. -/
def typed (kind : String) (rest : List (String × Json)) : Json :=
  .obj (("type", .str (some kind)) :: rest |>.map fun (name, v) => (some name, v))

/-- One item of the stream; `cancelled`: the call was, when the item came. -/
def streamItem (serde : Serde) (logger : Text) (token : Option String) (s : Streamed)
    (item : Bool × PlexusStreamItem) : Except Stopped Streamed :=
  let log (level : Level) (data : Json) : Streamed :=
    { s with notices := s.notices ++ [.log level logger data] }
  if item.1 then .error .cancelled
  else
    match item.2 with
    | .progress content contentType =>
        let s := log .info (typed "progress"
          [("content_type", .str (some contentType)), ("content", content)])
        match token with
        | none => .ok s
        | some token =>
            let (message, percentage) := progressNote serde content
            .ok { s with notices :=
              s.notices ++ [.progress token (percentage.getD (.num "0.0")) message] }
    | .data content contentType =>
        .ok { log .info (typed "data"
          [("content_type", .str (some contentType)), ("data", content.toValue)]) with
            bufferedData := s.bufferedData ++ [content.toValue] }
    | .error error recoverable =>
        .ok { log .error (typed "error"
          [("error", error.json), ("recoverable", .bool recoverable)]) with
            fatal := if !recoverable && s.fatal.isNone then some error else s.fatal }
    | .done => .error (.broke s)
    | .request requestId requestData timeoutMs =>
        .ok (log .info (typed "request" [("request_id", .str (some requestId)),
          ("request_data", requestData), ("timeout_ms", .u64 timeoutMs)]))

/-- The text of what was buffered. -/
def resultText (serde : Serde) (bufferedData : List Json) : String :=
  match bufferedData with
  | [] => "(no output)"
  | [.str (some s)] => s
  | [v] => (serde.toStringPretty v).getD ""
  | vs =>
      if vs.all fun v => v.string?.isSome then String.join (vs.filterMap Json.string?)
      else (serde.toStringPretty (.arr vs)).getD ""

def result (serde : Serde) (s : Streamed) : CallToolResult :=
  match s.fatal with
  | some error => remoteErrorToolResult error
  | none => ⟨resultText serde s.bufferedData, false, none⟩

/-- `call`: the activation's; `router`: a hub's, by the full name. -/
structure ActivationMcpBridge where
  pluginSchema : PluginSchema
  call : Text → Object → Except McpError (List (Bool × PlexusStreamItem))
  flatSchemas : Option (List PluginSchema)
  router : Option (Text → Object → Except McpError (List (Bool × PlexusStreamItem)))

/-- `query`: the query parameters of the HTTP request, if there is one. -/
structure CallToolRequest where
  name : Text
  arguments : Option Object
  query : Option (List (String × String))
  progressToken : Option String

/-- The arguments, with what the connection's query says. -/
def CallToolRequest.argumentsMap (request : CallToolRequest) : Object :=
  let connectionMeta := (request.query.getD []).foldl (fun o (key, value) =>
    o.insert s!"query.{key}" (.str (some value))) Object.empty
  let given := request.arguments.getD .empty
  if connectionMeta.isEmpty then given else given.insert "_connection" connectionMeta.json

namespace ActivationMcpBridge

def listTools (b : ActivationMcpBridge) : List Tool :=
  schemasToRmcpTools (b.flatSchemas.getD [b.pluginSchema])

/-- The method a tool's name says. -/
def methodOf (name : Text) : Text :=
  if '.' ∈ name then ((name.splitOn '.')[1]?).getD name else name

def stream (b : ActivationMcpBridge) (name : Text) (arguments : Object) :
    Except McpError (List (Bool × PlexusStreamItem)) :=
  match b.router with
  | some router => (router name arguments).mapError plexusToMcpError
  | none => (b.call (methodOf name) arguments).mapError plexusToMcpError

/-- The notifications sent, and the tool's result. -/
def callTool (serde : Serde) (b : ActivationMcpBridge) (request : CallToolRequest) :
    Except McpError (List Notice × CallToolResult) :=
  match b.stream request.name request.argumentsMap with
  | .error e => .error e
  | .ok items =>
      match items.foldlM (streamItem serde request.name request.progressToken) .start with
      | .error .cancelled => .error ⟨-32603, "Cancelled", none⟩
      | .error (.broke s) | .ok s => .ok (s.notices, result serde s)

end ActivationMcpBridge

end PlexusTransport.Mcp
