import PlexusTransport.Ws.Conn.Rpc

/-! # Where a message goes

The hook first, then the connection's open inputs, then by its shape: a call to
the method table, a notification to nothing, an answer dropped, anything else
an error.
-/

namespace PlexusTransport.Ws.Conn

open Json

/-- A method's callback over the server's state; `none`: it never answers. -/
inductive MethodCallback (σ : Type) where
  | sync (cb : Id → Option Json → σ → MethodResponse × σ)
  | async (cb : Id → Option Json → σ → Option (MethodResponse × σ))
  | subscription (cb : Id → Option Json → σ → Option (MethodResponse × σ))
  | unsubscription (cb : Id → Option Json → σ → MethodResponse × σ)

/-- How a method is registered. -/
inductive Kind where
  | sync
  | async
  | subscription
  | unsubscription
  deriving DecidableEq, Repr

/-- `super::MAX_MESSAGE_SIZE`. -/
def maxResponse : Nat := 10 * 1024 * 1024

def maxSubscriptions : Nat := 1024

/-- `size`: how long a value's text is; the two refusals are the method table's. -/
structure Dispatch (σ : Type) where
  methodWithName : String → Option (MethodCallback σ)
  tryAcquire : σ → Option σ
  size : Json → Nat
  rejectTooManySubscriptions : Nat → ErrorObject
  rejectTooBigBatchResponse : Nat → ErrorObject

variable {σ : Type}

namespace Dispatch

/-- `Dispatch::call`: one call of a batch, answered in full. -/
def call (d : Dispatch σ) (req : Request) (s : σ) : Option (MethodResponse × σ) :=
  match d.methodWithName req.method with
  | none => some (.error req.id (.ofCode .methodNotFound), s)
  | some (.sync cb) => some (cb req.id req.params s)
  | some (.async cb) => cb req.id req.params s
  | some (.subscription cb) =>
      match d.tryAcquire s with
      | some s => cb req.id req.params s
      | none => some (.error req.id (d.rejectTooManySubscriptions maxSubscriptions), s)
  | some (.unsubscription cb) => some (cb req.id req.params s)

/-- What one entry of a batch is answered: nothing, if it is a notification. -/
def entry (d : Dispatch σ) (e : Json) (s : σ) : Option (Option MethodResponse × σ) :=
  match Request.ofJson e with
  | some req => (d.call req s).map fun (rp, s) => (some rp, s)
  | none =>
      match Notification.ofJson e with
      | some _ => some (none, s)
      | none =>
          let id := (invalidRequestId e).getD .null
          some (some (.error id (.ofCode .invalidRequest)), s)

def entries (d : Dispatch σ) :
    List Json → BatchResponseBuilder → Bool → σ → Option (BatchResponse × σ)
  | [], out, gotNotification, s =>
      some (if out.isEmpty && gotNotification then .notification else out.finish, s)
  | e :: rest, out, gotNotification, s =>
      match d.entry e s with
      | none => none
      | some (none, s) => d.entries rest out true s
      | some (some rp, s) =>
          match out.append d.size d.rejectTooBigBatchResponse e rp with
          | .error tooBig => some (.single tooBig, s)
          | .ok out => d.entries rest out gotNotification s

/-- A batch: its calls in order, one array back. -/
def batch (d : Dispatch σ) (parsed : Option Json) (s : σ) : Option (BatchResponse × σ) :=
  match parsed with
  | some (.arr items) => d.entries items (.newWithLimit maxResponse) false s
  | _ => some (.single (.error .null (.ofCode .parseError)), s)

end Dispatch

/-- No `method`, an `id`, and a `result` or an `error`. -/
def isAnswer (parsed : Option Json) : Bool :=
  match parsed.bind (fields ["method", "id", "result", "error"] true) with
  | some [method, id, result, error] =>
      (given method).isNone && (given id).isSome &&
        ((given result).isSome || (given error).isSome)
  | _ => false

/-- What became of a binary input frame. -/
inductive Delivered where
  | malformed
  | other
  deriving DecidableEq, Repr

/-- A frame written for a message. -/
inductive Written where
  | answer (rp : MethodResponse)
  | batch (replies : List (Json × MethodResponse))

def Written.json : Written → Json
  | .answer rp => rp.json
  | .batch replies => .arr (replies.map (·.2.json))

/-- An inbound message. -/
inductive Inbound where
  | text (t : List UInt8)
  | binary (b : List UInt8)
  | ping
  | pong
  | frame
  | close

inductive End where
  | peerClosed
  deriving DecidableEq, Repr

/-- What a message is routed by: the method table, the hook, the open inputs, and how the
    bytes read as JSON. -/
structure Router (σ : Type) where
  dispatch : Dispatch σ
  hook : Option (List UInt8 → Bool)
  inputsIdle : Bool
  takeFrame : List UInt8 → Bool
  takeBinary : List UInt8 → Delivered
  parse : List UInt8 → Option Json

def binaryInput : UInt8 := 0x01

def isAsciiWhitespace (b : UInt8) : Bool :=
  b == 32 || b == 9 || b == 10 || b == 12 || b == 13

/-- A byte as `{:#04x}` writes it. -/
def hexByte (b : UInt8) : String :=
  let digits := "0123456789abcdef".toList
  let digit (n : Nat) : Char := digits.getD n '0'
  String.ofList ['0', 'x', digit (b.toNat / 16), digit (b.toNat % 16)]

/-- A method call's answer; a subscription answers through its sink. -/
def respond (rp : MethodResponse) : List Written :=
  match rp.kind with
  | .methodCall => [.answer rp]
  | .subscription => []

def sendResponse : BatchResponse → List Written
  | .notification => []
  | .single rp => respond rp
  | .array replies => [.batch replies]

def malformed (why : String) : List Written :=
  respond (.error .null ⟨ErrorCode.parseError.code, s!"malformed_frame: {why}",
    some (.obj [(some "error_kind", .str (some "malformed_frame"))])⟩)

/-- Why a binary message that is neither JSON nor an input frame is malformed. -/
def unreadable (data : List UInt8) : String :=
  match data.head? with
  | some tag =>
      let tag := hexByte tag
      s!"a binary message tagged {tag}: the only tag is 0x01, an input frame"
  | none => "an empty binary message"

/-- What is written once it is answered, and the state then. -/
def answered {α : Type} (write : α → List Written) (s : σ) : Option (α × σ) → List Written × σ
  | some (a, s) => (write a, s)
  | none => ([], s)

/-- What `Loop::call` does with a call: it answers itself, without the method's callback or
    by it, or keeps the callback's future: for a task of the call's own, or as an acceptance
    it polls. -/
inductive Called (σ : Type) where
  | refused (rp : MethodResponse) (s : σ)
  | returned (kind : Kind) (rp : MethodResponse) (s : σ)
  | spawned (fut : Option (MethodResponse × σ))
  | accepting (fut : Option (MethodResponse × σ))

/-- `Loop::call`; `permit`: what `try_acquire_owned` comes to. -/
def Loop.call (d : Dispatch σ) (permit : Option σ) (req : Request) (s : σ) : Called σ :=
  match d.methodWithName req.method with
  | none => .refused (.error req.id (.ofCode .methodNotFound)) s
  | some (.sync cb) =>
      let (rp, s) := cb req.id req.params s
      .returned .sync rp s
  | some (.async cb) => .spawned (cb req.id req.params s)
  | some (.subscription cb) =>
      match permit with
      | some s => .accepting (cb req.id req.params s)
      | none => .refused (.error req.id (d.rejectTooManySubscriptions maxSubscriptions)) s
  | some (.unsubscription cb) =>
      let (rp, s) := cb req.id req.params s
      .returned .unsubscription rp s

/-- What is written for a call in the end: by the loop, by its task (`send_response`), or
    once its acceptance has resolved (`poll_accepting`). -/
def Called.written (before : σ) : Called σ → List Written × σ
  | .refused rp s | .returned _ rp s => (respond rp, s)
  | .spawned fut => answered (fun rp => sendResponse (.single rp)) before fut
  | .accepting fut => answered respond before fut

/-- An acceptance is awaited with a permit only. -/
theorem accepting_permit {d : Dispatch σ} {permit : Option σ} {req : Request} {s : σ}
    {fut : Option (MethodResponse × σ)} (called : Loop.call d permit req s = .accepting fut) :
    permit.isSome = true := by
  cases permit with
  | some s' => rfl
  | none =>
      unfold Loop.call at called
      split at called <;> cases called

/-- The loop's call and a batch's are answered alike. -/
theorem written_call (d : Dispatch σ) (req : Request) (s : σ) :
    (Loop.call d (d.tryAcquire s) req s).written s = answered respond s (d.call req s) := by
  unfold Loop.call Dispatch.call
  cases d.methodWithName req.method with
  | none => rfl
  | some callback =>
      cases callback with
      | sync cb | unsubscription cb => rfl
      | async cb =>
          dsimp only [Called.written]
          cases cb req.id req.params s <;> rfl
      | subscription cb =>
          dsimp only
          cases d.tryAcquire s with
          | none => rfl
          | some s' => rfl

namespace Router

def single (r : Router σ) (data : List UInt8) (s : σ) : List Written × σ :=
  match (r.parse data).bind Request.ofJson with
  | some req => (Loop.call r.dispatch (r.dispatch.tryAcquire s) req s).written s
  | none =>
      if ((r.parse data).bind Notification.ofJson).isSome then ([], s)
      else if isAnswer (r.parse data) then ([], s)
      else
        let (id, code) := prepareError (r.parse data)
        (respond (.error id (.ofCode code)), s)

/-- A message by its first byte that is no blank, looked for among 128. -/
def byShape (r : Router σ) (binary : Bool) (data : List UInt8) (s : σ) : List Written × σ :=
  let first := (data.take 128).findIdx? fun b => !isAsciiWhitespace b
  if first.isSome && !r.inputsIdle && r.takeFrame data then ([], s)
  else
    let from? := first.map data.drop
    match from?.bind List.head? with
    | some 0x7b => r.single (from?.getD []) s
    | some 0x5b => answered sendResponse s (r.dispatch.batch (r.parse (from?.getD [])) s)
    | _ =>
        if binary then (malformed (unreadable data), s)
        else (respond (.error .null (.ofCode .parseError)), s)

/-- The hook took the message. -/
def hooked (r : Router σ) (data : List UInt8) : Bool := r.hook.any fun onFrame => onFrame data

/-- `Loop::message`: what is written for a message. -/
def message (r : Router σ) (m : Inbound) (s : σ) : Except End (List Written × σ) :=
  match m with
  | .text t => .ok (if r.hooked t then ([], s) else r.byShape false t s)
  | .binary b =>
      if r.hooked b then .ok ([], s)
      else if b.head? = some binaryInput then
        if r.takeBinary b = .malformed then
          .ok (malformed "a binary input frame is 17 bytes of header and its payload", s)
        else .ok ([], s)
      else .ok (r.byShape true b s)
  | .ping | .pong | .frame => .ok ([], s)
  | .close => .error .peerClosed

end Router

end PlexusTransport.Ws.Conn
