import PlexusTransport.Lib.Json

/-! # A call's stream

The items of a `PlexusStream`, as the bridges take them.
-/

namespace PlexusTransport.Plexus

inductive RemoteErrorKind where
  | activationNotFound
  | methodNotFound
  | invalidParams
  | unauthenticated
  | forbidden
  | handleNotSupported
  | execution
  | tooManyCalls
  | childUnavailable
  | childTimeout
  | other
  deriving DecidableEq, Repr

/-- `json`: as it is serialized; `display`: as it is told. -/
structure RemoteError where
  kind : RemoteErrorKind
  json : Json
  display : String

/-- What a method yields: the value, and its JSON text if it can be written. -/
structure Content where
  toValue : Json
  toVec : Option (List UInt8)

inductive PlexusStreamItem where
  | data (content : Content) (contentType : String)
  | progress (content : Json) (contentType : String)
  | error (error : RemoteError) (recoverable : Bool)
  | done
  | request (requestId : String) (requestData : Json) (timeoutMs : UInt64)

namespace PlexusStreamItem

/-- Nothing of the stream is read after it. -/
def isDone : PlexusStreamItem → Bool
  | .done => true
  | _ => false

def error? : PlexusStreamItem → Option (RemoteError × Bool)
  | .error e recoverable => some (e, recoverable)
  | _ => none

end PlexusStreamItem

end PlexusTransport.Plexus
