import PlexusTransport.Lib.Loop
import PlexusTransport.Plexus

/-! # One JSON body of a call's stream

`collect_and_respond`: a method of cardinality one is answered once its stream ends,
with all it yielded, under limits on what is buffered.
-/

namespace PlexusTransport.Http

open Plexus

/-- The status a `RemoteError` is answered with. -/
def remoteErrorStatus (error : RemoteError) : Nat :=
  match error.kind with
  | .activationNotFound | .methodNotFound => 404
  | .invalidParams => 400
  | .unauthenticated => 401
  | .forbidden => 403
  | .handleNotSupported => 501
  | .execution => 500
  | .tooManyCalls => 429
  | .childUnavailable => 503
  | .childTimeout => 504
  | .other => 500

/-- A response and its JSON body. -/
structure JsonResponse where
  status : Nat
  body : Json

def maxBufferedItems : Nat := 10000

def maxBufferBytes : Nat := 100 * 1024 * 1024

/-- What the loop has buffered. -/
structure Collected where
  dataItems : List Content
  progressItems : List Json
  totalBytes : Nat

def Collected.empty : Collected := ⟨[], [], 0⟩

/-- How the loop is left: past a limit, or at the stream's end with its error. -/
inductive Left where
  | limit (r : JsonResponse)
  | broke (c : Collected) (error : Option RemoteError)

def tooManyItems : JsonResponse where
  status := 413
  body := .obj [
    (some "error", .str (some s!"Stream exceeded maximum item count of {maxBufferedItems}")),
    (some "max_items", .u64 (.ofNat maxBufferedItems))]

def tooManyBytes (totalBytes : Nat) : JsonResponse where
  status := 413
  body := .obj [
    (some "error", .str (some s!"Stream exceeded maximum buffer size of {maxBufferBytes} bytes")),
    (some "max_bytes", .u64 (.ofNat maxBufferBytes)),
    (some "bytes_buffered", .u64 (.ofNat totalBytes))]

/-- One item of the stream. -/
def collectItem (c : Collected) : PlexusStreamItem → Except Left Collected
  | .data content _ =>
      if maxBufferedItems ≤ c.dataItems.length then .error (.limit tooManyItems)
      else
        let totalBytes := c.totalBytes + (content.toVec.getD []).length
        if maxBufferBytes < totalBytes then .error (.limit (tooManyBytes totalBytes))
        else .ok { c with dataItems := c.dataItems ++ [content], totalBytes := totalBytes }
  | .progress content _ => .ok { c with progressItems := c.progressItems ++ [content] }
  | .error e _ => .error (.broke c (some e))
  | .done => .error (.broke c none)
  | .request _ _ _ => .ok c

/-- The body of what was collected. -/
def respondCollected (c : Collected) (error : Option RemoteError) : JsonResponse :=
  let collected :=
    (some "data", Json.arr (c.dataItems.map (·.toValue))) ::
      if c.progressItems.isEmpty then [] else [(some "progress", Json.arr c.progressItems)]
  match error with
  | some e => ⟨remoteErrorStatus e, .obj (collected ++ [(some "error", e.json)])⟩
  | none => ⟨200, .obj collected⟩

/-- The loop over these items. -/
def collect (items : List PlexusStreamItem) : Except Left Collected :=
  items.foldlM collectItem .empty

def collectAndRespond (items : List PlexusStreamItem) : JsonResponse :=
  match collect items with
  | .error (.limit r) => r
  | .error (.broke c error) => respondCollected c error
  | .ok c => respondCollected c none

end PlexusTransport.Http
