import HeteroNetwork.ControlPlane.Records

/-!
# Endpoints

Which addresses may be told to other nodes.  An endpoint is usable if packets can be sent to it at all, and
globally routable if that works from anywhere on the Internet.
-/

namespace HeteroNetwork

open ControlPlane (RelayCapability EndpointCandidate)

/-! ## Addresses -/

def endpointAddrIsUsable (addr : SocketAddr) : Bool :=
  if addr.port = 0 ∨ addr.ip.isUnspecified ∨ addr.ip.isMulticast then false
  else
    match addr.ip with
    | .v4 bits => bits ≠ 0xffffffff#32
    | .v6 _ => true

inductive UrlHost where
  | domain (name : String)
  | ip (addr : IpAddr)
deriving DecidableEq

structure ParsedUrl where
  scheme : String
  host : Option UrlHost
  portOrKnownDefault : Option UInt16
deriving DecidableEq

def socketAddr : IpAddr → UInt16 → SocketAddr
  | .v4 bits, port => .v4 bits port
  | .v6 bits, port => .v6 bits port 0 0

section Capability

variable (parseUrl : String → Option ParsedUrl)

def httpUrlIsUsableEndpoint (value : String) : Bool :=
  match parseUrl value with
  | none => false
  | some url =>
    if ¬(url.scheme = "http" ∨ url.scheme = "https") then false
    else
      match url.host, url.portOrKnownDefault with
      | some host, some port =>
        if port = 0 then false
        else
          match host with
          | .domain _ => true
          | .ip addr => endpointAddrIsUsable (socketAddr addr port)
      | _, _ => false

def isEligibleRelay (capability : RelayCapability) : Bool :=
  capability.enabledByPolicy && capability.publicEndpoint.any endpointAddrIsUsable &&
    capability.admissionUrl.any (httpUrlIsUsableEndpoint parseUrl) && capability.e2eOnly &&
    capability.maxSessions > 0 && capability.maxMbps > 0

end Capability

/-! ## Globally routable addresses -/

def octet (ip : BitVec 32) (i : ℕ) : ℕ := (ip.extractLsb' (24 - 8 * i) 8).toNat

def ipv4AddrIsGloballyRoutable (ip : BitVec 32) : Bool :=
  match octet ip 0, octet ip 1, octet ip 2 with
  | 0, _, _ | 10, _, _ | 127, _, _ | 169, 254, _ | 192, 0, 0 | 192, 0, 2 | 192, 88, 99 | 192, 168, _
  | 198, 51, 100 | 203, 0, 113 => false
  | first, second, _ =>
    ¬((first = 100 ∧ 64 ≤ second ∧ second ≤ 127) ∨ (first = 172 ∧ 16 ≤ second ∧ second ≤ 31) ∨
      (first = 198 ∧ 18 ≤ second ∧ second ≤ 19) ∨ 224 ≤ first)

def segment (ip : BitVec 128) (i : ℕ) : BitVec 16 := ip.extractLsb' (112 - 16 * i) 16

def toIpv4Mapped (ip : BitVec 128) : Option (BitVec 32) :=
  if ip.extractLsb' 32 96 = 0xffff#96 then some (ip.extractLsb' 0 32) else none

def ipv6AddrIsGloballyRoutable (ip : BitVec 128) : Bool :=
  match toIpv4Mapped ip with
  | some mapped => ipv4AddrIsGloballyRoutable mapped
  | none =>
    if segment ip 0 &&& 0xe000#16 ≠ 0x2000#16 then false
    else if segment ip 0 = 0x2001#16 ∧ segment ip 1 < 0x0200#16 then false
    else if segment ip 0 = 0x2001#16 ∧ segment ip 1 = 0x0db8#16 then false
    else if segment ip 0 = 0x2002#16 then false
    else if segment ip 0 = 0x3fff#16 ∧ segment ip 1 &&& 0xf000#16 = 0 then false
    else true

def ipAddrIsGloballyRoutable : IpAddr → Bool
  | .v4 ip => ipv4AddrIsGloballyRoutable ip
  | .v6 ip => ipv6AddrIsGloballyRoutable ip

def socketAddrIsGloballyRoutable (addr : SocketAddr) : Bool :=
  addr.port ≠ 0 && ipAddrIsGloballyRoutable addr.ip

def SocketAddr.isIpv6 : SocketAddr → Bool
  | .v4 _ _ => false
  | .v6 _ _ _ _ => true

def validateKindAddress (candidate : EndpointCandidate) : Except String Unit :=
  match candidate.kind with
  | .publicUdp =>
    if !socketAddrIsGloballyRoutable candidate.addr then
      .error "public UDP candidates must use a globally routable address"
    else .ok ()
  | .ipv6 =>
    if !candidate.addr.isIpv6 then .error "IPv6 candidates must use an IPv6 socket address"
    else .ok ()
  | _ => .ok ()

/-- `now.signed_duration_since(time).to_std()` is at most the TTL; a time in the future has no age. -/
def ageWithin (now time : Timestamp) (ttlSeconds : UInt64) : Bool :=
  if now < time then true else now - time ≤ seconds ttlSeconds.toNat

def endpointCandidateIsFresh (candidate : EndpointCandidate) (now : Timestamp) (ttlSeconds : UInt64) :
    Bool :=
  ageWithin now candidate.observedAt ttlSeconds

end HeteroNetwork
