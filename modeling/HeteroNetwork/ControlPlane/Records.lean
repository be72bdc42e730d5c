import HeteroNetwork.ControlPlane.TokenLedger

/-!
# Records of the control plane

A node as the control plane stores it; the overlay reads only a part, the `NodeRecord` of
`HeteroNetwork.Types`.  Floating-point measurements are kept by their bits, since no modelled function
computes with them.
-/

namespace HeteroNetwork

def Role.isClient (role : Role) : Bool := role.asStr = "client"

namespace ControlPlane

inductive EndpointCandidateKind where
  | publicUdp
  | ipv6
  | stunReflexive
  | localUdp
  | relay
deriving DecidableEq

inductive CandidateSource where
  | interfaceScan
  | stunProbe
  | controlPlane
  | relayMap
deriving DecidableEq

structure EndpointCandidate where
  nodeId : NodeId
  kind : EndpointCandidateKind
  addr : SocketAddr
  observedAt : Timestamp
  priority : UInt16
  cost : UInt32
  source : CandidateSource
deriving DecidableEq

structure RelayCapability where
  enabledByPolicy : Bool
  publicEndpoint : Option SocketAddr
  admissionUrl : Option String
  maxSessions : UInt32
  activeSessions : UInt32
  maxMbps : UInt32
  e2eOnly : Bool
deriving DecidableEq

structure Route where
  id : String
  cidr : IpNet
  advertisedBy : NodeId
  via : Option NodeId
  metric : UInt32
  tags : Finset Tag
deriving DecidableEq

structure NodeRecord where
  nodeId : NodeId
  displayName : Option String
  hostname : Option String
  clusterId : ClusterId
  vpnIp : IpAddr
  identityPublicKey : String
  wireguardPublicKey : String
  role : Role
  tags : Finset Tag
  endpointCandidates : List EndpointCandidate
  relayCapability : Option RelayCapability
  tokenPolicy : TokenPolicy
  routes : List Route
  registeredAt : Timestamp
deriving DecidableEq

def NodeRecord.isAdministrativelyStopped (node : NodeRecord) : Bool :=
  (⟨"heteronetwork-stopped"⟩ : Tag) ∈ node.tags

/-- A node without routes, for the examples of the modules that follow. -/
def sampleNode : NodeRecord where
  nodeId := ⟨"n"⟩
  displayName := none
  hostname := none
  clusterId := ⟨"lab"⟩
  vpnIp := .v4 1
  identityPublicKey := "key"
  wireguardPublicKey := "wireguard"
  role := ⟨"node"⟩
  tags := ∅
  endpointCandidates := []
  relayCapability := none
  tokenPolicy := ⟨true, true, [], ∅, none⟩
  routes := []
  registeredAt := 0

/-! ## Policies -/

inductive TransportProtocol where
  | any
  | ipInIp
  | tcp
  | udp
  | sctp
  | icmp
  | ipv6Encap
  | gre
  | esp
  | ah
deriving DecidableEq

inductive AclAction where
  | allow
  | deny
deriving DecidableEq

structure AclRule where
  id : String
  fromRoles : Finset Role
  fromTags : Finset Tag
  toRoles : Finset Role
  toTags : Finset Tag
  routes : List IpNet
  protocol : TransportProtocol
  action : AclAction
deriving DecidableEq

structure ClusterPolicy where
  allowIpv6Direct : Bool
  allowNatTraversal : Bool
  allowRelayFallback : Bool
  idleTimeoutSeconds : UInt64
  overlayBlockSize : UInt16
  overlayMaxDegree : UInt16
  overlayDirectShortcutLimit : UInt16
  overlayOnDemandPeerLimit : UInt16
  overlayRouteScopes : List IpNet
  relayHealthTtlSeconds : UInt64
  endpointCandidateTtlSeconds : UInt64
  pathStateTtlSeconds : UInt64
  pathQualityObservationTtlSeconds : UInt64
  natClassificationTtlSeconds : UInt64
  natClassificationMinConfidencePercent : UInt8
  pinnedRoles : Finset Role
  pinnedTags : Finset Tag
  aclRules : List AclRule
deriving DecidableEq

/-! ## Health and paths -/

inductive HealthState where
  | healthy
  | degraded
  | unhealthy
deriving DecidableEq

structure NodeHealth where
  state : HealthState
  lastSeenAt : Timestamp
  latencyMs : Option UInt32
  relayLoad : Option UInt32
  message : Option String
deriving DecidableEq

inductive PathState where
  | directPublic
  | directIpv6
  | directNatTraversal
  | relay
  | unreachable
deriving DecidableEq

structure PeerPathKey where
  localNode : NodeId
  remoteNode : NodeId
deriving DecidableEq

structure PathScore where
  value : UInt32
  reasons : List String
deriving DecidableEq

structure PathRecord where
  key : PeerPathKey
  selectedState : PathState
  selectedCandidate : Option EndpointCandidate
  relayNode : Option NodeId
  score : PathScore
  updatedAt : Timestamp
  pinned : Bool
deriving DecidableEq

structure ClientGatewaySelection where
  clientId : NodeId
  gatewayNodeId : NodeId
  selectedAt : Timestamp
deriving DecidableEq

end ControlPlane

end HeteroNetwork
