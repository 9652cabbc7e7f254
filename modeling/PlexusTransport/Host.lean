import PlexusTransport.Http.Request

/-! # The `Host` allow-list

So a page that rebinds its own name to this address gets nothing: its requests
name its host, not one of ours.
-/

namespace PlexusTransport.Host

open Http Text

def refusal : String := "this server does not answer to that name"

/-- A host as compared: trimmed, lowercase. -/
def normalize (host : Text) : Text := toAsciiLowercase (trim host)

/-- What was named, when an allow-list (normalized) is set and the request's host is not
    on it. -/
def refused (allowed : List Text) (request : Request) : Option Text :=
  if allowed.isEmpty then none
  else
    match request.headers.get "host" with
    | some v =>
        match v.toStr with
        | some s => if normalize s ∈ allowed then none else some (normalize s)
        | none => some "<not text>".toList
    | none =>
        match request.authority with
        | some a => if normalize a ∈ allowed then none else some (normalize a)
        | none => some "<none>".toList

end PlexusTransport.Host
