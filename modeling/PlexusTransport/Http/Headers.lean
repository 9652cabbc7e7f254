import PlexusTransport.Lib.Text

/-! # Request headers

A header value may hold any byte but a control character; only one without a
byte past ASCII reads as text.
-/

namespace PlexusTransport.Http

/-- A byte a header value may hold. -/
def isValid (b : UInt8) : Bool := (32 ≤ b && b != 127) || b == 9

def isVisibleAscii (b : UInt8) : Bool := (32 ≤ b && b < 127) || b == 9

structure HeaderValue where
  bytes : List UInt8
  valid : ∀ b ∈ bytes, isValid b = true
  deriving DecidableEq

/-- The text of a line of bytes, if it is text. -/
def toStr (bytes : List UInt8) : Option Text :=
  if bytes.all isVisibleAscii then some (bytes.map fun b => Char.ofNat b.toNat) else none

def HeaderValue.toStr (v : HeaderValue) : Option Text := Http.toStr v.bytes

/-- Header lines in the order they came, their names in lower case. -/
structure HeaderMap where
  lines : List (String × HeaderValue)
  deriving DecidableEq

namespace HeaderMap

def getAll (h : HeaderMap) (name : String) : List HeaderValue :=
  (h.lines.filter (·.1 = name)).map (·.2)

/-- The first line of that name. -/
def get (h : HeaderMap) (name : String) : Option HeaderValue := (h.getAll name).head?

def containsKey (h : HeaderMap) (name : String) : Bool := !(h.getAll name).isEmpty

end HeaderMap

end PlexusTransport.Http
