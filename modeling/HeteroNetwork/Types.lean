import HeteroNetwork.Lib.Cidr

/-!
# Identifiers shared by every crate

`NodeId` wraps the string the deployment knows a node by.  Its order is the one the ordered
maps and sets of the program iterate in; Rust compares the UTF-8 bytes, Lean the code points,
and UTF-8 makes the two orders the same.
-/

namespace HeteroNetwork

structure NodeId where
  asStr : String
deriving DecidableEq

namespace NodeId

instance : LinearOrder NodeId :=
  LinearOrder.lift' NodeId.asStr (by
    rintro ⟨a⟩ ⟨b⟩ h
    exact congrArg NodeId.mk h)

instance : Inhabited NodeId := ⟨⟨""⟩⟩

instance : Std.LawfulEqOrd NodeId := ⟨compare_eq_iff_eq.mp⟩

def asBytes (n : NodeId) : List UInt8 := n.asStr.toByteArray.data.toList

/-- `std::str::from_utf8(bytes)` followed by `NodeId::from_string`. -/
def fromUtf8 (bytes : List UInt8) : Option NodeId :=
  (String.fromUTF8? bytes.toByteArray).map NodeId.mk

lemma asBytes_of_fromUtf8 {bytes : List UInt8} {n : NodeId} (h : fromUtf8 bytes = some n) :
    n.asBytes = bytes := by
  simp only [fromUtf8, String.fromUTF8?, Option.map_eq_some_iff] at h
  obtain ⟨s, hs, rfl⟩ := h
  split_ifs at hs with hvalid
  obtain rfl := Option.some.inj hs
  exact List.toList_data_toByteArray

lemma fromUtf8_asBytes (n : NodeId) : fromUtf8 n.asBytes = some n := by
  have hbytes : n.asBytes.toByteArray = n.asStr.toByteArray := by
    apply ByteArray.ext
    apply Array.toList_inj.mp
    exact List.toList_data_toByteArray
  simp only [fromUtf8, String.fromUTF8?, hbytes, n.asStr.isValidUTF8, dif_pos]
  rfl

lemma asBytes_injective : Function.Injective asBytes := by
  intro a b h
  have hb := fromUtf8_asBytes b
  rw [← h, fromUtf8_asBytes a] at hb
  exact Option.some.inj hb

end NodeId

/-! ## Counters -/

def saturatingAdd (a b : UInt64) : UInt64 :=
  if a.toNat + b.toNat < 2 ^ 64 then a + b else UInt64.ofNat (2 ^ 64 - 1)

def utf8 (text : String) : List UInt8 := text.toByteArray.data.toList

lemma utf8_eq_flatMap (text : String) : utf8 text = text.toList.flatMap String.utf8EncodeChar := by
  have hencode : text.toByteArray = text.toList.utf8Encode := by
    conv_lhs => rw [← String.ofList_toList (s := text), String.toByteArray_ofList]
  rw [utf8, hencode, List.utf8Encode]
  exact List.toList_data_toByteArray

lemma utf8_append (a b : String) : utf8 (a ++ b) = utf8 a ++ utf8 b := by
  simp only [utf8_eq_flatMap, String.toList_append, List.flatMap_append]

lemma utf8_injective : Function.Injective utf8 := by
  intro a b h
  have hid : (NodeId.mk a).asBytes = (NodeId.mk b).asBytes := h
  exact congrArg NodeId.asStr (NodeId.asBytes_injective hid)

def isControl (c : Char) : Bool := c.toNat < 32 || (127 ≤ c.toNat && c.toNat < 160)

/-! ## Names -/

structure ClusterId where
  asStr : String
deriving DecidableEq

instance : LinearOrder ClusterId :=
  LinearOrder.lift' ClusterId.asStr (by
    rintro ⟨a⟩ ⟨b⟩ h
    exact congrArg ClusterId.mk h)

instance : Std.LawfulEqOrd ClusterId := ⟨compare_eq_iff_eq.mp⟩

structure KeyId where
  asStr : String
deriving DecidableEq

structure Role where
  asStr : String
deriving DecidableEq

structure Tag where
  asStr : String
deriving DecidableEq

/-! ## Addresses -/

inductive IpAddr where
  | v4 (bits : BitVec 32)
  | v6 (bits : BitVec 128)
deriving DecidableEq

namespace IpAddr

def isUnspecified : IpAddr → Bool
  | v4 bits => bits = 0
  | v6 bits => bits = 0

/-- `224.0.0.0/4` and `ff00::/8`. -/
def isMulticast : IpAddr → Bool
  | v4 bits => bits.extractLsb' 28 4 = 0b1110#4
  | v6 bits => bits.extractLsb' 120 8 = 0xff#8

/-- The bits as a pair that Mathlib knows how to order. -/
def toPair : IpAddr → Bool ×ₗ ℕ
  | v4 bits => toLex (false, bits.toNat)
  | v6 bits => toLex (true, bits.toNat)

lemma toPair_injective : Function.Injective toPair := by
  rintro (a | a) (b | b) h
  · simp only [toPair, toLex_inj, Prod.mk.injEq, BitVec.toNat_inj] at h
    rw [h.2]
  · simp [toPair] at h
  · simp [toPair] at h
  · simp only [toPair, toLex_inj, Prod.mk.injEq, BitVec.toNat_inj] at h
    rw [h.2]

instance : LinearOrder IpAddr := LinearOrder.lift' toPair toPair_injective

instance : Std.LawfulEqOrd IpAddr := ⟨compare_eq_iff_eq.mp⟩

end IpAddr

inductive SocketAddr where
  | v4 (ip : BitVec 32) (port : UInt16)
  | v6 (ip : BitVec 128) (port : UInt16) (flowinfo scopeId : UInt32)
deriving DecidableEq

namespace SocketAddr

def ip : SocketAddr → IpAddr
  | v4 ip _ => .v4 ip
  | v6 ip _ _ _ => .v6 ip

def port : SocketAddr → UInt16
  | v4 _ port => port
  | v6 _ port _ _ => port

/-- The fields as a tuple that Mathlib knows how to order. -/
def toTuple : SocketAddr → Bool ×ₗ ℕ ×ₗ ℕ ×ₗ ℕ ×ₗ ℕ
  | v4 ip port => toLex (false, toLex (ip.toNat, toLex (port.toNat, toLex (0, 0))))
  | v6 ip port flowinfo scopeId =>
    toLex (true, toLex (ip.toNat, toLex (port.toNat, toLex (flowinfo.toNat, scopeId.toNat))))

lemma toTuple_injective : Function.Injective toTuple := by
  rintro (⟨ip, port⟩ | ⟨ip, port, flowinfo, scopeId⟩) (⟨ip', port'⟩ | ⟨ip', port', flowinfo', scopeId'⟩) h
  · simp only [toTuple, toLex_inj, Prod.mk.injEq, BitVec.toNat_inj, UInt16.toNat_inj] at h
    obtain ⟨-, rfl, rfl, -⟩ := h
    rfl
  · simp [toTuple] at h
  · simp [toTuple] at h
  · simp only [toTuple, toLex_inj, Prod.mk.injEq, BitVec.toNat_inj, UInt16.toNat_inj,
      UInt32.toNat_inj] at h
    obtain ⟨-, rfl, rfl, rfl, rfl⟩ := h
    rfl

instance : LinearOrder SocketAddr := LinearOrder.lift' toTuple toTuple_injective

instance : Std.LawfulEqOrd SocketAddr := ⟨compare_eq_iff_eq.mp⟩

end SocketAddr

abbrev Ipv4Net := Cidr.Net 32

abbrev Ipv6Net := Cidr.Net 128

instance (priority := 1100) neZero_ipv4 : NeZero (32 + 1) := ⟨by decide⟩

instance (priority := 1100) neZero_ipv6 : NeZero (128 + 1) := ⟨by decide⟩

inductive IpNet where
  | v4 (net : Ipv4Net)
  | v6 (net : Ipv6Net)
deriving DecidableEq

def IpNet.prefixLen : IpNet → ℕ
  | .v4 net => net.prefixLen
  | .v6 net => net.prefixLen

def IpNet.trunc : IpNet → IpNet
  | .v4 net => .v4 net.trunc
  | .v6 net => .v6 net.trunc

def IpNet.contains : IpNet → IpAddr → Bool
  | .v4 net, .v4 bits => net.contains bits
  | .v6 net, .v6 bits => net.contains bits
  | _, _ => false

/-! ## Node records

The fields that the modelled functions read.  Endpoint candidates enter only through their
number. -/

structure Route where
  advertisedBy : NodeId
  cidr : IpNet
deriving DecidableEq

structure NodeRecord where
  nodeId : NodeId
  clusterId : ClusterId
  vpnIp : IpAddr
  endpointCandidates : ℕ
  routes : List Route
deriving DecidableEq

end HeteroNetwork
