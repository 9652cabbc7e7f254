import PlexusTransport.Http.Request
import PlexusTransport.Net.Addr

/-! # Who a request comes from, behind a reverse proxy -/

namespace PlexusTransport.Proxy

open Http Net Text

/-- An IPv4-mapped IPv6 address as the IPv4 address it is. -/
def canonical : IpAddr → IpAddr
  | .v6 bits => ((IpAddr.toIpv4Mapped bits).map IpAddr.v4).getD (.v6 bits)
  | .v4 bits => .v4 bits

@[simp] theorem canonical_canonical (ip : IpAddr) : canonical (canonical ip) = canonical ip := by
  cases ip with
  | v4 bits => rfl
  | v6 bits => cases mapped : IpAddr.toIpv4Mapped bits <;> simp [canonical, mapped]

structure TrustedProxies where
  nets : List IpNet
  direct : Bool

structure ForwardedClient where
  ip : IpAddr
  peer : IpAddr
  viaProxy : Bool
  secure : Bool
  deriving DecidableEq, Repr

namespace TrustedProxies

def behindProxy (p : TrustedProxies) : Bool := !p.nets.isEmpty

def contains (p : TrustedProxies) (ip : IpAddr) : Bool :=
  p.nets.any (·.contains (canonical ip))

@[simp] theorem contains_canonical (p : TrustedProxies) (ip : IpAddr) :
    p.contains (canonical ip) = p.contains ip := by
  simp [contains]

end TrustedProxies

/-- Header lines as one comma-separated list. -/
def entries (lines : List (List UInt8)) : List Text :=
  ((lines.filterMap toStr).flatMap (·.splitOn ',')).map trim

/-- Every header named `name`, in order, as one list. -/
def list (h : HeaderMap) (name : String) : List Text :=
  entries ((h.getAll name).map (·.bytes))

/-- An address, maybe with a port. -/
def parseHop (hop : Text) : Option IpAddr :=
  match parseIpAddr hop with
  | some ip => some (canonical ip)
  | none => (parseSocketAddr hop).map canonical

/-- A scheme that a proxy calls secure. -/
def isSecure (proto : Text) : Bool :=
  eqIgnoreAsciiCase proto "https".toList || eqIgnoreAsciiCase proto "wss".toList

namespace TrustedProxies

/-- The walk over the hops, each with its index, from the one nearest us: the client's
    address and its index, or what is nearest to it and trusted. -/
def walk (p : TrustedProxies) : List (Text × Nat) → IpAddr × Option Nat → IpAddr × Option Nat
  | [], nearestTrusted => nearestTrusted
  | (hop, i) :: hops, nearestTrusted =>
      match parseHop hop with
      | some ip => if p.contains ip then p.walk hops (ip, some i) else (ip, some i)
      | none => nearestTrusted

def resolve (p : TrustedProxies) (peer : IpAddr) (h : HeaderMap) : ForwardedClient :=
  let peer := canonical peer
  if !p.contains peer then
    ⟨peer, peer, false, !p.behindProxy && peer.isLoopback⟩
  else
    let hops := list h "x-forwarded-for"
    let (ip, index) := p.walk hops.zipIdx.reverse (peer, none)
    let protos := list h "x-forwarded-proto"
    let proto :=
      match index with
      | some i => if protos.length = hops.length then protos[i]? else protos.getLast?
      | none => protos.getLast?
    ⟨ip, peer, true, proto.any isSecure⟩

end TrustedProxies

end PlexusTransport.Proxy
