import PlexusTransport.Lib.Text

/-! # Addresses

`IpAddr`, the text the standard library reads as one, and `IpNet`.
-/

namespace PlexusTransport.Net

inductive IpAddr where
  | v4 (bits : BitVec 32)
  | v6 (bits : BitVec 128)
  deriving DecidableEq, Repr

namespace IpAddr

/-- `Ipv6Addr::to_ipv4_mapped`. -/
def toIpv4Mapped (bits : BitVec 128) : Option (BitVec 32) :=
  if bits >>> 32 = 0xffff#128 then some (bits.truncate 32) else none

def isLoopback : IpAddr → Bool
  | .v4 bits => bits >>> 24 == 127
  | .v6 bits => bits == 1

/-- The groups of an address in text, from the most significant. -/
def segments (bits : BitVec 128) : List Nat :=
  (List.range 8).map fun i => (bits >>> (16 * (7 - i))).toNat % 65536

/-- The start and length of the first longest run of zeros. -/
def zeros : List Nat → (i : Nat) → (current longest : Nat × Nat) → Nat × Nat
  | [], _, _, longest => longest
  | s :: segments, i, current, longest =>
      if s = 0 then
        let current := if current.2 = 0 then (i, 1) else (current.1, current.2 + 1)
        zeros segments (i + 1) current (if longest.2 < current.2 then current else longest)
      else zeros segments (i + 1) (0, 0) longest

def displayV4 (bits : BitVec 32) : String :=
  ".".intercalate ([24, 16, 8, 0].map fun n => toString ((bits >>> n).toNat % 256))

def displayGroups (groups : List Nat) : String :=
  ":".intercalate (groups.map fun g => String.ofList (Nat.toDigits 16 g))

/-- `Display`. -/
def display : IpAddr → String
  | .v4 bits => displayV4 bits
  | .v6 bits =>
      match toIpv4Mapped bits with
      | some mapped => "::ffff:" ++ displayV4 mapped
      | none =>
          let groups := segments bits
          let (start, len) := zeros groups 0 (0, 0) (0, 0)
          if 1 < len then
            displayGroups (groups.take start) ++ "::" ++ displayGroups (groups.drop (start + len))
          else displayGroups groups

end IpAddr

/-- A network: an address and how many of its leading bits count. -/
inductive IpNet where
  | v4 (addr : BitVec 32) (prefixLen : Fin 33)
  | v6 (addr : BitVec 128) (prefixLen : Fin 129)
  deriving DecidableEq, Repr

namespace IpNet

def contains : IpNet → IpAddr → Bool
  | .v4 addr len, .v4 bits => addr >>> (32 - len.val) == bits >>> (32 - len.val)
  | .v6 addr len, .v6 bits => addr >>> (128 - len.val) == bits >>> (128 - len.val)
  | _, _ => false

end IpNet

/-- What a reader makes of a text's front, and the rest. -/
abbrev Read (α : Type) : Type := Text → Option (α × Text)

def toDigit (radix : Nat) (c : Char) : Option Nat :=
  let n :=
    if '0' ≤ c ∧ c ≤ '9' then some (c.toNat - '0'.toNat)
    else if 'a' ≤ c ∧ c ≤ 'z' then some (c.toNat - 'a'.toNat + 10)
    else if 'A' ≤ c ∧ c ≤ 'Z' then some (c.toNat - 'A'.toNat + 10)
    else none
  n.filter (· < radix)

def readGivenChar (c : Char) : Text → Option Text
  | d :: t => if d = c then some t else none
  | [] => none

/-- All the digits there are: a number below `limit`. -/
def readNumber (radix : Nat) (maxDigits : Option Nat) (allowZeroPrefix : Bool) (limit : Nat) :
    Read Nat := fun t =>
  let digits := (t.takeWhile fun c => (toDigit radix c).isSome).filterMap (toDigit radix)
  let value := digits.foldl (fun n d => n * radix + d) 0
  if digits.length = 0 then none
  else if maxDigits.any (· < digits.length) then none
  else if !allowZeroPrefix && t.head? == some '0' && digits.length != 1 then none
  else if limit ≤ value then none
  else some (value, t.dropWhile fun c => (toDigit radix c).isSome)

/-- The separator before all but the first of a row. -/
def readSeparator (sep : Char) (first : Bool) (t : Text) : Option Text :=
  if first then some t else readGivenChar sep t

def readIpv4Addr : Read (BitVec 32) := fun t => do
  let octet := readNumber 10 (some 3) false 256
  let (a, t) ← octet t
  let (b, t) ← octet (← readGivenChar '.' t)
  let (c, t) ← octet (← readGivenChar '.' t)
  let (d, t) ← octet (← readGivenChar '.' t)
  return (BitVec.ofNat 32 (((a * 256 + b) * 256 + c) * 256 + d), t)

/-- At most `left` groups, the last two perhaps an IPv4 address. -/
def readGroups : (left : Nat) → (first : Bool) → Text → List Nat × Bool × Text
  | 0, _, t => ([], false, t)
  | left + 1, first, t =>
      let embedded := if 0 < left then (readSeparator ':' first t).bind readIpv4Addr else none
      match embedded with
      | some (v4, t) => ([v4.toNat / 65536, v4.toNat % 65536], true, t)
      | none =>
          match (readSeparator ':' first t).bind (readNumber 16 (some 4) true 65536) with
          | some (group, t) =>
              let (groups, ipv4, t) := readGroups left false t
              (group :: groups, ipv4, t)
          | none => ([], false, t)

def ofGroups (groups : List Nat) : BitVec 128 :=
  BitVec.ofNat 128 (groups.foldl (fun n g => n * 65536 + g) 0)

def readIpv6Addr : Read (BitVec 128) := fun t =>
  let (head, ipv4, t) := readGroups 8 true t
  if head.length = 8 then some (ofGroups head, t)
  else if ipv4 then none
  else do
    let t ← readGivenChar ':' t
    let t ← readGivenChar ':' t
    let (tail, _, t) := readGroups (8 - (head.length + 1)) true t
    return (ofGroups (head ++ List.replicate (8 - head.length - tail.length) 0 ++ tail), t)

def readIpAddr : Read IpAddr := fun t =>
  match readIpv4Addr t with
  | some (v4, t) => some (.v4 v4, t)
  | none => (readIpv6Addr t).map fun (v6, t) => (.v6 v6, t)

def readPort : Read Nat := fun t => do
  readNumber 10 none true 65536 (← readGivenChar ':' t)

/-- Past a scope id, if there is one. -/
def skipScopeId (t : Text) : Text :=
  match (readGivenChar '%' t).bind (readNumber 10 none true (2 ^ 32)) with
  | some (_, t) => t
  | none => t

def readSocketAddrV4 : Read IpAddr := fun t => do
  let (v4, t) ← readIpv4Addr t
  let (_, t) ← readPort t
  return (.v4 v4, t)

def readSocketAddrV6 : Read IpAddr := fun t => do
  let (v6, t) ← readIpv6Addr (← readGivenChar '[' t)
  let t ← readGivenChar ']' (skipScopeId t)
  let (_, t) ← readPort t
  return (.v6 v6, t)

/-- The whole text, or nothing. -/
def parseWith {α : Type} (read : Read α) (t : Text) : Option α :=
  match read t with
  | some (a, []) => some a
  | _ => none

/-- `str::parse::<IpAddr>`. -/
def parseIpAddr (t : Text) : Option IpAddr := parseWith readIpAddr t

/-- `str::parse::<SocketAddr>`, its address. -/
def parseSocketAddr (t : Text) : Option IpAddr :=
  parseWith (fun t => (readSocketAddrV4 t).or (readSocketAddrV6 t)) t

example : parseIpAddr "::ffff:10.0.0.1".toList = some (.v6 0xffff0a000001#128) := by
  decide +kernel

example : parseSocketAddr "[2001:db8::1%7]:443".toList =
    some (.v6 0x20010db8000000000000000000000001#128) := by
  decide +kernel

end PlexusTransport.Net
