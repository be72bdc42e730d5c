import HeteroNetwork.Relay.MultiHop

/-!
# Overlay paths, neighbour maps and forwarding errors

What the forwarding engine of `ipars-agent` works on: paths and their validation, the neighbour map of one
node, its configuration and its errors.  An error keeps the data that its message is made of.
-/

namespace HeteroNetwork

open Checked

/-! ## Limits -/

def maxOverlayPathNodes : ℕ := 514
def maxOverlayNodeEndpointCandidates : ℕ := 64
def maxOverlayNodeRoutes : ℕ := 256
def maxJoinTokenIdentifierBytes : ℕ := 255

/-! ## Overlay paths -/

inductive OverlayValidationReason where
  | identifierEmpty (label : String)
  | identifierTooLong (label : String)
  | identifierCharacters (label : String)
  | destinationUnusable (destination : IpAddr)
  | endpointCandidateCount (node : NodeId) (count : ℕ)
  | routeCount (node : NodeId) (count : ℕ)
  | ownTarget (source : NodeId)
  | pathEmpty
  | pathTooLong (count : ℕ)
  | pathStart (source : NodeId)
  | pathRepeats (node : NodeId) (index : ℕ)
  | pathEnd (target : NodeId)
  | targetDoesNotOwn (target : NodeId) (destination : IpAddr)
  | secondaryEqualsPrimary
  | secondaryEnd
  | other (reason : String)
deriving DecidableEq

structure OverlayValidationError where
  field : String
  reason : OverlayValidationReason
deriving DecidableEq

def validateOverlayIdentifier (value : List UInt8) (label field : String) :
    Except OverlayValidationError Unit := do
  rejectIf (value = []) ⟨field, .identifierEmpty label⟩
  rejectIf (value.length > maxJoinTokenIdentifierBytes) ⟨field, .identifierTooLong label⟩
  -- the same alphabet as a relay frame: ASCII letters and digits, `_`, `.` and `-`
  rejectIf (¬value.all isNodeIdByte) ⟨field, .identifierCharacters label⟩

def validateOverlayNodeRecord (node : NodeRecord) (field : String) :
    Except OverlayValidationError Unit := do
  validateOverlayIdentifier node.nodeId.asBytes "node ID" field
  validateOverlayIdentifier node.clusterId.asStr.toByteArray.data.toList "cluster ID" field
  rejectIf (node.endpointCandidates > maxOverlayNodeEndpointCandidates)
    ⟨field, .endpointCandidateCount node.nodeId node.endpointCandidates⟩
  rejectIf (node.routes.length > maxOverlayNodeRoutes)
    ⟨field, .routeCount node.nodeId node.routes.length⟩

def overlayDestinationUsable : IpAddr → Bool
  | .v4 bits => !(IpAddr.v4 bits).isUnspecified && !(IpAddr.v4 bits).isMulticast &&
      bits ≠ BitVec.allOnes 32
  | .v6 bits => !(IpAddr.v6 bits).isUnspecified && !(IpAddr.v6 bits).isMulticast

def validateOverlayDestination (destination : IpAddr) : Except OverlayValidationError Unit :=
  rejectIf (¬overlayDestinationUsable destination)
    ⟨"destination", .destinationUnusable destination⟩

/-- The loop over `nodes.iter().enumerate()`; `seen` is the set of nodes before. -/
def validateOverlayNodeList (field : String) :
    List NodeId → List NodeId → Except OverlayValidationError Unit
  | _, [] => pure ()
  | seen, node :: rest => do
      validateOverlayIdentifier node.asBytes "path node ID" field
      rejectIf (node ∈ seen) ⟨field, .pathRepeats node seen.length⟩
      validateOverlayNodeList field (seen ++ [node]) rest

def validateOrderedOverlayNodes (field : String) (source : NodeId) (nodes : List NodeId) :
    Except OverlayValidationError Unit := do
  rejectIf (nodes = []) ⟨field, .pathEmpty⟩
  rejectIf (nodes.length > maxOverlayPathNodes) ⟨field, .pathTooLong nodes.length⟩
  rejectIf (nodes.head? ≠ some source) ⟨field, .pathStart source⟩
  validateOverlayNodeList field [] nodes

structure OverlayPath where
  topologyEpoch : UInt64
  source : NodeId
  destination : IpAddr
  target : NodeRecord
  orderedNodes : List NodeId
  secondaryOrderedNodes : Option (List NodeId)
deriving DecidableEq

namespace OverlayPath

def targetOwnsDestination (p : OverlayPath) : Bool :=
  p.target.vpnIp = p.destination ||
    p.target.routes.any fun route =>
      route.advertisedBy = p.target.nodeId && route.cidr.contains p.destination

def validateSecondary (p : OverlayPath) (secondary : List NodeId) :
    Except OverlayValidationError Unit := do
  validateOrderedOverlayNodes "secondary_ordered_nodes" p.source secondary
  rejectIf (secondary = p.orderedNodes) ⟨"secondary_ordered_nodes", .secondaryEqualsPrimary⟩
  rejectIf (secondary.getLast? ≠ p.orderedNodes.getLast?) ⟨"secondary_ordered_nodes", .secondaryEnd⟩

def validate (p : OverlayPath) : Except OverlayValidationError Unit := do
  validateOverlayIdentifier p.source.asBytes "source node ID" "source"
  validateOverlayDestination p.destination
  validateOverlayNodeRecord p.target "target"
  rejectIf (p.target.nodeId = p.source) ⟨"target", .ownTarget p.source⟩
  validateOrderedOverlayNodes "ordered_nodes" p.source p.orderedNodes
  rejectIf (p.orderedNodes.getLast? ≠ some p.target.nodeId)
    ⟨"ordered_nodes", .pathEnd p.target.nodeId⟩
  rejectIf (¬p.targetOwnsDestination)
    ⟨"target", .targetDoesNotOwn p.target.nodeId p.destination⟩
  match p.secondaryOrderedNodes with
  | some secondary => p.validateSecondary secondary
  | none => pure ()

end OverlayPath

/-- The part of `NeighborMap` that forwarding reads; `validation` is the outcome of `NeighborMap::validate`
on the whole record. -/
structure NeighborMap where
  clusterId : ClusterId
  nodeId : NodeId
  topologyEpoch : UInt64
  neighbors : List NodeId
  validation : Except OverlayValidationError Unit
deriving DecidableEq

/-! ## The forwarding engine's configuration and errors -/

structure OverlayForwarderConfig where
  maxFrameBytes : ℕ
  maxRelayHops : UInt16
  replayCacheCapacity : ℕ
deriving DecidableEq

inductive OverlayForwarderError where
  | invalidConfig (reason : String)
  | invalidNeighborMap (error : OverlayValidationError)
  | neighborMapNodeMismatch (localNode mapNode : NodeId)
  | zeroTopologyEpoch
  | neighborMapClusterChanged (currentCluster receivedCluster : ClusterId)
  | invalidOverlayPath (error : OverlayValidationError)
  | pathSourceMismatch (localNode pathSource : NodeId)
  | pathClusterMismatch (localCluster targetCluster : ClusterId)
  | pathTargetsSource (node : NodeId)
  | secondaryPathUnavailable
  | staleTopologyEpoch (currentEpoch receivedEpoch : UInt64)
  | futureTopologyEpoch (currentEpoch receivedEpoch : UInt64)
  | relayPathTooLong (actual : ℕ) (maximum : UInt16)
  | invalidPathId
  | emptyInnerDatagram
  | innerDatagramTooLarge (maximum : ℕ)
  | frameTooLarge (actual maximum : ℕ)
  | invalidHopLimit (expected actual : UInt16)
  | unexpectedLocalHop (expected actual : NodeId)
  | unexpectedDestination (expected actual : NodeId)
  | previousHopMismatch (expected actual : NodeId)
  | previousHopNotNeighbor (node : NodeId)
  | nextHopNotNeighbor (node : NodeId)
  | replayRejected (sourceNode : NodeId) (sequence highest : UInt64)
  | codec (error : MultiHopCodecError)
deriving DecidableEq

def OverlayForwarderError.isReplayRejected : OverlayForwarderError → Bool
  | .replayRejected _ _ _ => true
  | _ => false

def defaultOverlayReplayCacheCapacity : ℕ := 4096
def maxOverlayReplayCacheCapacity : ℕ := 65536

namespace OverlayForwarderConfig

instance : Inhabited OverlayForwarderConfig :=
  ⟨⟨maxMultihopFrameBytes, UInt16.ofNat maxMultihopPathNodes, defaultOverlayReplayCacheCapacity⟩⟩

def validate (c : OverlayForwarderConfig) :
    Except OverlayForwarderError OverlayForwarderConfig := do
  rejectIf (c.maxFrameBytes = 0 ∨ c.maxFrameBytes > maxMultihopFrameBytes)
    (.invalidConfig s!"max_frame_bytes must be between 1 and {maxMultihopFrameBytes}")
  rejectIf (c.maxRelayHops = 0 ∨ c.maxRelayHops.toNat > maxMultihopPathNodes)
    (.invalidConfig s!"max_relay_hops must be between 1 and {maxMultihopPathNodes}")
  rejectIf (c.replayCacheCapacity = 0 ∨ c.replayCacheCapacity > maxOverlayReplayCacheCapacity)
    (.invalidConfig
      s!"replay_cache_capacity must be between 1 and {maxOverlayReplayCacheCapacity}")
  return c

end OverlayForwarderConfig

end HeteroNetwork
