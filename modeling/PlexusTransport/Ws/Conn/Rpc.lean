import PlexusTransport.Lib.Json

/-! # JSON-RPC as the method table reads and answers it

Requests, notifications and responses by their published definitions.
-/

namespace PlexusTransport.Ws.Conn

open Json

inductive Id where
  | null
  | number (n : UInt64)
  | str (s : String)
  deriving DecidableEq, Repr

namespace Id

def ofJson : Json → Option Id
  | .null => some .null
  | .u64 n => some (.number n)
  | .str s => s.map .str
  | _ => none

def json : Id → Json
  | .null => .null
  | .number n => .u64 n
  | .str s => .str (some s)

end Id

/-- `TwoPointZero`. -/
def isTwoPointZero (v : Option Json) : Bool := (v.bind string?) == some "2.0"

structure Request where
  id : Id
  method : String
  params : Option Json

def Request.ofJson (j : Json) : Option Request :=
  match fields ["jsonrpc", "id", "method", "params"] false j with
  | some [jsonrpc, id, method, params] =>
      if isTwoPointZero jsonrpc then
        match id.bind Id.ofJson, method.bind string? with
        | some id, some method => some ⟨id, method, given params⟩
        | _, _ => none
      else none
  | _ => none

/-- `Notification<Option<&RawValue>>`. -/
structure Notification where
  method : String
  params : Option Json

def Notification.ofJson (j : Json) : Option Notification :=
  match fields ["jsonrpc", "method", "params"] false j with
  | some [jsonrpc, method, params] =>
      if isTwoPointZero jsonrpc then (method.bind string?).map fun m => ⟨m, given params⟩ else none
  | _ => none

/-- `InvalidRequest`: all it reads is an id. -/
def invalidRequestId (j : Json) : Option Id :=
  match fields ["id"] false j with
  | some [id] => id.bind Id.ofJson
  | _ => none

inductive ErrorCode where
  | parseError
  | invalidRequest
  | methodNotFound
  deriving DecidableEq, Repr

def ErrorCode.code : ErrorCode → Int
  | .parseError => -32700
  | .invalidRequest => -32600
  | .methodNotFound => -32601

def ErrorCode.message : ErrorCode → String
  | .parseError => "Parse error"
  | .invalidRequest => "Invalid request"
  | .methodNotFound => "Method not found"

structure ErrorObject where
  code : Int
  message : String
  data : Option Json

namespace ErrorObject

def ofCode (c : ErrorCode) : ErrorObject := ⟨c.code, c.message, none⟩

def json (e : ErrorObject) : Json :=
  .obj ([(some "code", .num (toString e.code)), (some "message", .str (some e.message))] ++
    e.data.toList.map fun d => (some "data", d))

end ErrorObject

inductive Payload where
  | result (v : Json)
  | error (e : ErrorObject)

/-- A subscription answers through its sink, not by its response. -/
inductive ResponseKind where
  | methodCall
  | subscription
  deriving DecidableEq, Repr

structure MethodResponse where
  id : Id
  payload : Payload
  kind : ResponseKind

namespace MethodResponse

def error (id : Id) (e : ErrorObject) : MethodResponse := ⟨id, .error e, .methodCall⟩

def json (rp : MethodResponse) : Json :=
  .obj [(some "jsonrpc", .str (some "2.0")), (some "id", rp.id.json),
    match rp.payload with
    | .result v => (some "result", v)
    | .error e => (some "error", e.json)]

end MethodResponse

/-- Whose id, and which error, an object that is no request is answered with. -/
def prepareError (parsed : Option Json) : Id × ErrorCode :=
  match parsed.bind invalidRequestId with
  | some id => (id, .invalidRequest)
  | none => (.null, .parseError)

/-- The replies of a batch so far, each with the entry it replies to. -/
structure BatchResponseBuilder where
  replies : List (Json × MethodResponse)
  limit : Nat

inductive BatchResponse where
  | notification
  | single (rp : MethodResponse)
  | array (replies : List (Json × MethodResponse))

namespace BatchResponseBuilder

def newWithLimit (limit : Nat) : BatchResponseBuilder := ⟨[], limit⟩

/-- `[`, and a comma after each. -/
def len (size : Json → Nat) (b : BatchResponseBuilder) : Nat :=
  1 + (b.replies.map fun r => size r.2.json + 1).sum

/-- A reply that would pass the limit is refused. -/
def append (size : Json → Nat) (tooBig : Nat → ErrorObject) (entry : Json) (rp : MethodResponse)
    (b : BatchResponseBuilder) : Except MethodResponse BatchResponseBuilder :=
  if b.limit < size rp.json + b.len size + 1 then .error (.error .null (tooBig b.limit))
  else .ok { b with replies := b.replies ++ [(entry, rp)] }

def isEmpty (b : BatchResponseBuilder) : Bool := b.replies.isEmpty

def finish (b : BatchResponseBuilder) : BatchResponse :=
  if b.isEmpty then .single (.error .null (.ofCode .invalidRequest)) else .array b.replies

end BatchResponseBuilder

end PlexusTransport.Ws.Conn
