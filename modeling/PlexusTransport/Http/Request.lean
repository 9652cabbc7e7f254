import PlexusTransport.Http.Headers
import PlexusTransport.Net.Addr

/-! # Requests and responses -/

namespace PlexusTransport.Http

open Net

/-- An accepted connection, as its requests carry it. -/
structure Connection where
  peer : IpAddr
  tls : Bool
  deriving DecidableEq, Repr

/-- `conn`: the accept loop stamps every request with its connection. -/
structure Request where
  method : String
  path : Text
  authority : Option Text
  headers : HeaderMap
  conn : Option Connection
  deriving DecidableEq

structure Response where
  status : Nat
  headers : List (String × String)
  body : String
  deriving DecidableEq, Repr

/-- Bytes without the ASCII whitespace at either end. -/
def trimAscii (b : List UInt8) : List UInt8 :=
  let space (b : UInt8) : Bool := b == 32 || b == 9 || b == 10 || b == 12 || b == 13
  (b.dropWhile space).rdropWhile space

def asciiLower (b : UInt8) : UInt8 := if 65 ≤ b && b ≤ 90 then b + 32 else b

/-- Whether a token is among those of any line of that name, in any case. -/
def has (h : HeaderMap) (name : String) (token : List UInt8) : Bool :=
  (h.getAll name).any fun v =>
    (v.bytes.splitOn 44).any fun t => (trimAscii t).map asciiLower == token.map asciiLower

/-- The bytes of an ASCII text. -/
def ascii (t : String) : List UInt8 := t.toList.map fun c => UInt8.ofNat c.toNat

/-- `Connection: upgrade` and `Upgrade: websocket`. -/
def isUpgradeRequest (request : Request) : Bool :=
  has request.headers "connection" (ascii "upgrade") &&
    has request.headers "upgrade" (ascii "websocket")

end PlexusTransport.Http
