import HeteroNetwork.ControlPlane.Records

/-!
# The in-memory store of the control plane

`InMemoryStore` keeps, beside what nodes report, the policy of every cluster and the records of its nodes.
Each writer decides for itself whether it advances the routing epoch.  A method locks what it writes first, so
a call is one step of the state; a write before a failure stays (`Mutating`).
-/

namespace HeteroNetwork

open Std (TreeMap)

open Checked OrderedMap

namespace ControlPlane

/-- The tables that the writers below touch.  Classifications and transport snapshots are only stored
and dropped, so their types stay open. -/
structure InMemoryStore (Classification Snapshot : Type) where
  transportSnapshots : TreeMap NodeId Snapshot
  clusterPolicies : TreeMap ClusterId ClusterPolicy
  overlayRoutingEpochs : TreeMap ClusterId UInt64
  nodes : TreeMap NodeId NodeRecord
  health : TreeMap NodeId NodeHealth
  heartbeatSignatureTimestamps : TreeMap NodeId Timestamp
  natClassifications : TreeMap NodeId Classification
  paths : List PathRecord
  clientGatewaySelections : TreeMap NodeId ClientGatewaySelection

def InMemoryStore.empty (Classification Snapshot : Type) : InMemoryStore Classification Snapshot :=
  ⟨∅, ∅, ∅, ∅, ∅, ∅, ∅, [], ∅⟩

structure CatalogEntry where
  nodeId : NodeId
  vpnIp : IpAddr
  role : Role
  tags : Finset Tag
  wireguardPublicKey : String
  routes : List Route
deriving DecidableEq

def NodeRecord.catalogEntry (node : NodeRecord) : CatalogEntry :=
  ⟨node.nodeId, node.vpnIp, node.role, node.tags, node.wireguardPublicKey, node.routes⟩

/-- What the store takes from other crates: JSON, SHA-256 and the text of a time. -/
structure StorePrimitives where
  encodeCatalog : List CatalogEntry → Except String (List UInt8)
  sha256 : List UInt8 → List UInt8
  displayTime : Timestamp → String

section Methods

variable {Classification Snapshot : Type} (env : StorePrimitives)

abbrev StoreM (Classification Snapshot : Type) :=
  Mutating (InMemoryStore Classification Snapshot) ControlPlaneError

/-! ## Catalogs and epochs -/

def overlayEpochDigest (domain material : List UInt8) : UInt64 :=
  UInt64.ofNat (BigEndian.ofBytes ((env.sha256 (BigEndian.toBytes 8 domain.length ++ domain ++
    BigEndian.toBytes 8 material.length ++ material)).take 8))

def overlayRouteCatalogEpoch (nodes : List NodeRecord) : Except ControlPlaneError UInt64 := do
  let ordered := nodes.insertionSort fun left right => left.nodeId ≤ right.nodeId
  let encoded ← (env.encodeCatalog (ordered.map NodeRecord.catalogEntry)).mapError fun error =>
    .store ("failed to encode overlay route catalog: " ++ error)
  pure (overlayEpochDigest env (utf8 "HeteroNetwork overlay route catalog v1") encoded)

/-- The nodes of a cluster that take part in routing: its clients do not. -/
def InMemoryStore.catalog (store : InMemoryStore Classification Snapshot) (clusterId : ClusterId) :
    List NodeRecord :=
  store.nodes.values.filter fun node => node.clusterId = clusterId ∧ ¬node.role.isClient

def InMemoryStore.overlayRoutingEpoch (store : InMemoryStore Classification Snapshot)
    (clusterId : ClusterId) : UInt64 :=
  store.overlayRoutingEpochs.getD clusterId 0

def advanceInMemoryOverlayRoutingEpoch (clusterId : ClusterId) :
    StoreM Classification Snapshot Unit := do
  let store ← get
  let epoch := store.overlayRoutingEpoch clusterId
  -- the entry that `or_default` creates is 0, so the one that overflows was there before
  check (rejectIf (epoch.toNat + 1 ≥ UInt64.size)
    (.store ("overlay routing epoch exhausted for cluster " ++ clusterId.asStr)))
  modify fun store =>
    { store with overlayRoutingEpochs := store.overlayRoutingEpochs.insert clusterId (epoch + 1) }

def ensureClusterPolicy (clusterId : ClusterId) (expected : Option ClusterPolicy) :
    StoreM Classification Snapshot Unit := do
  let store ← get
  check (rejectIf (store.clusterPolicies[clusterId]? ≠ expected) .clusterPolicyChanged)

def ensureRouteCatalog (clusterId : ClusterId) (expected : Option UInt64) :
    StoreM Classification Snapshot Unit := do
  let store ← get
  match expected with
  | none => pure ()
  | some expected =>
    let epoch ← check (overlayRouteCatalogEpoch env (store.catalog clusterId))
    check (rejectIf (epoch ≠ expected) .overlayRouteCatalogChanged)

def getNodeMut (nodeId : NodeId) : StoreM Classification Snapshot NodeRecord := do
  let store ← get
  match store.nodes[nodeId]? with
  | some node => pure node
  | none => check (.error (.nodeNotFound nodeId))

def setNode (nodeId : NodeId) (node : NodeRecord) : StoreM Classification Snapshot Unit :=
  modify fun store => { store with nodes := store.nodes.insert nodeId node }

def setClusterPolicy (clusterId : ClusterId) (policy : ClusterPolicy) :
    StoreM Classification Snapshot Unit :=
  modify fun store => { store with clusterPolicies := store.clusterPolicies.insert clusterId policy }

def initializeClusterPolicyIfAbsent (clusterId : ClusterId) (policy : ClusterPolicy) :
    StoreM Classification Snapshot ClusterPolicy := do
  let store ← get
  match store.clusterPolicies[clusterId]? with
  | some stored => pure stored
  | none =>
    advanceInMemoryOverlayRoutingEpoch clusterId
    setClusterPolicy clusterId policy
    pure policy

def upsertClusterPolicy (clusterId : ClusterId) (policy : ClusterPolicy) :
    StoreM Classification Snapshot Unit := do
  let store ← get
  if store.clusterPolicies[clusterId]? = some policy then pure ()
  else
    advanceInMemoryOverlayRoutingEpoch clusterId
    setClusterPolicy clusterId policy

def upsertClusterPolicyIfRouteCatalogEpoch (clusterId : ClusterId) (policy : ClusterPolicy)
    (expectedRouteCatalogEpoch : UInt64) : StoreM Classification Snapshot Bool := do
  let store ← get
  let epoch ← check (overlayRouteCatalogEpoch env (store.catalog clusterId))
  if epoch ≠ expectedRouteCatalogEpoch then pure false
  else if store.clusterPolicies[clusterId]? = some policy then pure true
  else
    advanceInMemoryOverlayRoutingEpoch clusterId
    setClusterPolicy clusterId policy
    pure true

/-! ## Nodes -/

def insertNode (node : NodeRecord) : StoreM Classification Snapshot Unit := do
  let store ← get
  check (rejectIf (node.nodeId ∈ store.nodes) (.nodeAlreadyExists node.nodeId))
  advanceInMemoryOverlayRoutingEpoch node.clusterId
  setNode node.nodeId node

def insertNodeIfClusterPolicy (node : NodeRecord) (expectedClusterPolicy : Option ClusterPolicy)
    (expectedRouteCatalogEpoch : Option UInt64) : StoreM Classification Snapshot Unit := do
  ensureClusterPolicy node.clusterId expectedClusterPolicy
  ensureRouteCatalog env node.clusterId expectedRouteCatalogEpoch
  insertNode node

structure RemovedNode where
  node : NodeRecord
  removedPathCount : ℕ
  removedHealth : Bool
deriving DecidableEq

def removeNode (nodeId : NodeId) : StoreM Classification Snapshot RemovedNode := do
  let node ← getNodeMut nodeId
  advanceInMemoryOverlayRoutingEpoch node.clusterId
  let store ← get
  let kept := store.paths.filter fun path =>
    path.key.localNode ≠ nodeId ∧ path.key.remoteNode ≠ nodeId
  modify fun store =>
    { store with
      nodes := store.nodes.erase nodeId
      transportSnapshots := store.transportSnapshots.erase nodeId
      health := store.health.erase nodeId
      heartbeatSignatureTimestamps := store.heartbeatSignatureTimestamps.erase nodeId
      natClassifications := store.natClassifications.erase nodeId
      clientGatewaySelections := store.clientGatewaySelections.filter fun clientId selection =>
        clientId ≠ nodeId ∧ selection.gatewayNodeId ≠ nodeId
      paths := kept }
  pure ⟨node, store.paths.length - kept.length, nodeId ∈ store.health⟩

def updateNodeCandidates (nodeId : NodeId) (candidates : List EndpointCandidate) :
    StoreM Classification Snapshot Unit := do
  let node ← getNodeMut nodeId
  setNode nodeId { node with endpointCandidates := candidates }

def updateNodeDisplayName (nodeId : NodeId) (displayName : Option String) :
    StoreM Classification Snapshot NodeRecord := do
  let node ← getNodeMut nodeId
  setNode nodeId { node with displayName := displayName }
  pure { node with displayName := displayName }

def updateNodeRelayCapability (nodeId : NodeId) (relayCapability : Option RelayCapability) :
    StoreM Classification Snapshot Unit := do
  let node ← getNodeMut nodeId
  setNode nodeId { node with relayCapability := relayCapability }

def replaceRoutes (nodeId : NodeId) (node : NodeRecord) (clusterId : ClusterId)
    (routes : List Route) : StoreM Classification Snapshot Unit :=
  if node.routes = routes then pure ()
  else do
    advanceInMemoryOverlayRoutingEpoch clusterId
    setNode nodeId { node with routes := routes }

def updateNodeRoutes (nodeId : NodeId) (routes : List Route) :
    StoreM Classification Snapshot Unit := do
  let node ← getNodeMut nodeId
  replaceRoutes nodeId node node.clusterId routes

def updateNodeRoutesIfClusterPolicy (clusterId : ClusterId) (nodeId : NodeId) (routes : List Route)
    (expectedClusterPolicy : Option ClusterPolicy) (expectedRouteCatalogEpoch : Option UInt64) :
    StoreM Classification Snapshot Unit := do
  ensureClusterPolicy clusterId expectedClusterPolicy
  ensureRouteCatalog env clusterId expectedRouteCatalogEpoch
  let node ← getNodeMut nodeId
  check (rejectIf (node.clusterId ≠ clusterId) (.nodeNotFound nodeId))
  replaceRoutes nodeId node clusterId routes

structure RejoinNodeStoreUpdate where
  clusterId : ClusterId
  expectedClusterPolicy : Option ClusterPolicy
  expectedRouteCatalogEpoch : Option UInt64
  expectedNode : NodeRecord
  candidates : List EndpointCandidate
  relayCapability : Option RelayCapability
  routes : List Route
deriving DecidableEq

def rejoinNodeIfClusterPolicy (update : RejoinNodeStoreUpdate) :
    StoreM Classification Snapshot NodeRecord := do
  ensureClusterPolicy update.clusterId update.expectedClusterPolicy
  ensureRouteCatalog env update.clusterId update.expectedRouteCatalogEpoch
  let node ← getNodeMut update.expectedNode.nodeId
  check (rejectIf (node.clusterId ≠ update.clusterId) (.nodeNotFound update.expectedNode.nodeId))
  check (rejectIf (node ≠ update.expectedNode) (.nodeStateChanged node.nodeId))
  if node.routes ≠ update.routes then
    advanceInMemoryOverlayRoutingEpoch update.clusterId
  let rejoined := { node with
    endpointCandidates := update.candidates
    relayCapability := update.relayCapability
    routes := update.routes }
  setNode update.expectedNode.nodeId rejoined
  pure rejoined

def rotateNodeWireguardPublicKey (nodeId : NodeId) (expectedCurrentPublicKey nextPublicKey : String) :
    StoreM Classification Snapshot NodeRecord := do
  let node ← getNodeMut nodeId
  check (rejectIf (node.wireguardPublicKey ≠ expectedCurrentPublicKey)
    (.nodeUpdateRejected nodeId "wireguard public key changed before rotation completed"))
  if node.wireguardPublicKey = nextPublicKey then pure node
  else
    advanceInMemoryOverlayRoutingEpoch node.clusterId
    setNode nodeId { node with wireguardPublicKey := nextPublicKey }
    pure { node with wireguardPublicKey := nextPublicKey }

structure HeartbeatStoreUpdate (Classification : Type) where
  clusterId : ClusterId
  expectedClusterPolicy : Option ClusterPolicy
  expectedRouteCatalogEpoch : Option UInt64
  nodeId : NodeId
  expectedIdentityPublicKey : String
  expectedRegisteredAt : Timestamp
  acceptedSignatureAt : Option Timestamp
  hostname : Option String
  candidates : List EndpointCandidate
  natClassification : Option Classification
  relayCapability : Option RelayCapability
  routes : Option (List Route)
  health : NodeHealth
  paths : List PathRecord

def HeartbeatStoreUpdate.ensureMatchesNodeGeneration (update : HeartbeatStoreUpdate Classification)
    (node : NodeRecord) : Except ControlPlaneError Unit := do
  rejectIf (node.nodeId ≠ update.nodeId ∨ node.clusterId ≠ update.clusterId)
    (.nodeNotFound update.nodeId)
  rejectIf (node.identityPublicKey ≠ update.expectedIdentityPublicKey ∨
      node.registeredAt ≠ update.expectedRegisteredAt)
    (.nodeUpdateRejected update.nodeId "node generation changed while heartbeat was being validated")

def ensureHeartbeatIsNewer (update : HeartbeatStoreUpdate Classification)
    (previousSignatureAt : Option Timestamp) (previousHealth : Option NodeHealth) :
    Except ControlPlaneError Unit :=
  match update.acceptedSignatureAt with
  | some acceptedSignatureAt =>
    match previousSignatureAt with
    | some previousSignatureAt => rejectIf (acceptedSignatureAt ≤ previousSignatureAt)
        (.nodeSignatureRejected update.nodeId ("signed_at " ++
          env.displayTime acceptedSignatureAt ++ " is not newer than last accepted heartbeat " ++
          env.displayTime previousSignatureAt))
    | none => pure ()
  | none =>
    rejectIf (previousHealth.any fun previous => update.health.lastSeenAt ≤ previous.lastSeenAt)
      (.nodeSignatureRejected update.nodeId
        "unsigned heartbeat was received before the current health snapshot")

def HeartbeatStoreUpdate.applyTo (update : HeartbeatStoreUpdate Classification) (node : NodeRecord) :
    NodeRecord :=
  { node with
    endpointCandidates := update.candidates
    relayCapability := update.relayCapability
    hostname := update.hostname.or node.hostname
    routes := update.routes.getD node.routes }

def applyHeartbeat (update : HeartbeatStoreUpdate Classification) :
    StoreM Classification Snapshot Unit := do
  ensureClusterPolicy update.clusterId update.expectedClusterPolicy
  ensureRouteCatalog env update.clusterId update.expectedRouteCatalogEpoch
  let node ← getNodeMut update.nodeId
  check (update.ensureMatchesNodeGeneration node)
  let store ← get
  check (ensureHeartbeatIsNewer env update store.heartbeatSignatureTimestamps[update.nodeId]?
    store.health[update.nodeId]?)
  if update.routes.any fun routes => routes ≠ node.routes then
    -- the lock on the epochs is taken only when the update has routes
    check (rejectIf update.routes.isNone
      (.store "route-changing heartbeat did not acquire the routing epoch lock"))
    advanceInMemoryOverlayRoutingEpoch update.clusterId
  setNode update.nodeId (update.applyTo node)
  modify fun store =>
    { store with
      natClassifications := match update.natClassification with
        | some classification => store.natClassifications.insert update.nodeId classification
        | none => store.natClassifications
      heartbeatSignatureTimestamps := match update.acceptedSignatureAt with
        | some acceptedSignatureAt =>
          store.heartbeatSignatureTimestamps.insert update.nodeId acceptedSignatureAt
        | none => store.heartbeatSignatureTimestamps
      health := store.health.insert update.nodeId update.health
      paths := store.paths.filter (fun path => path.key.localNode ≠ update.nodeId) ++ update.paths }

def upsertHealth (nodeId : NodeId) (health : NodeHealth) : StoreM Classification Snapshot Unit :=
  modify fun store => { store with health := store.health.insert nodeId health }

def upsertNatClassification (nodeId : NodeId) (classification : Classification) :
    StoreM Classification Snapshot Unit :=
  modify fun store =>
    { store with natClassifications := store.natClassifications.insert nodeId classification }

def replacePath (path : PathRecord) : List PathRecord → List PathRecord
  | [] => [path]
  | existing :: rest =>
    if existing.key = path.key then path :: rest else existing :: replacePath path rest

def upsertPath (path : PathRecord) : StoreM Classification Snapshot Unit :=
  modify fun store => { store with paths := replacePath path store.paths }

def replaceNodePaths (nodeId : NodeId) (replacementPaths : List PathRecord) :
    StoreM Classification Snapshot Unit :=
  modify fun store =>
    { store with
      paths := store.paths.filter (fun path => path.key.localNode ≠ nodeId) ++ replacementPaths }

end Methods

inductive StoreOp (Classification : Type) where
  | initializeClusterPolicyIfAbsent (clusterId : ClusterId) (policy : ClusterPolicy)
  | upsertClusterPolicy (clusterId : ClusterId) (policy : ClusterPolicy)
  | upsertClusterPolicyIfRouteCatalogEpoch (clusterId : ClusterId) (policy : ClusterPolicy)
      (expectedRouteCatalogEpoch : UInt64)
  | insertNode (node : NodeRecord)
  | insertNodeIfClusterPolicy (node : NodeRecord) (expectedClusterPolicy : Option ClusterPolicy)
      (expectedRouteCatalogEpoch : Option UInt64)
  | removeNode (nodeId : NodeId)
  | updateNodeCandidates (nodeId : NodeId) (candidates : List EndpointCandidate)
  | updateNodeDisplayName (nodeId : NodeId) (displayName : Option String)
  | updateNodeRelayCapability (nodeId : NodeId) (relayCapability : Option RelayCapability)
  | updateNodeRoutes (nodeId : NodeId) (routes : List Route)
  | updateNodeRoutesIfClusterPolicy (clusterId : ClusterId) (nodeId : NodeId) (routes : List Route)
      (expectedClusterPolicy : Option ClusterPolicy) (expectedRouteCatalogEpoch : Option UInt64)
  | rejoinNodeIfClusterPolicy (update : RejoinNodeStoreUpdate)
  | rotateNodeWireguardPublicKey (nodeId : NodeId) (expectedCurrentPublicKey nextPublicKey : String)
  | applyHeartbeat (update : HeartbeatStoreUpdate Classification)
  | upsertHealth (nodeId : NodeId) (health : NodeHealth)
  | upsertNatClassification (nodeId : NodeId) (classification : Classification)
  | upsertPath (path : PathRecord)
  | replaceNodePaths (nodeId : NodeId) (replacementPaths : List PathRecord)

inductive StoreAnswer where
  | done
  | committed (flag : Bool)
  | policy (policy : ClusterPolicy)
  | node (node : NodeRecord)
  | removed (removed : RemovedNode)
deriving DecidableEq

section Apply

variable {Classification Snapshot : Type}

def StoreOp.run (env : StorePrimitives) :
    StoreOp Classification → StoreM Classification Snapshot StoreAnswer
  | initializeClusterPolicyIfAbsent clusterId policy =>
    .policy <$> ControlPlane.initializeClusterPolicyIfAbsent clusterId policy
  | upsertClusterPolicy clusterId policy =>
    (fun _ => .done) <$> ControlPlane.upsertClusterPolicy clusterId policy
  | upsertClusterPolicyIfRouteCatalogEpoch clusterId policy expected =>
    .committed <$> ControlPlane.upsertClusterPolicyIfRouteCatalogEpoch env clusterId policy expected
  | insertNode node => (fun _ => .done) <$> ControlPlane.insertNode node
  | insertNodeIfClusterPolicy node policy catalog =>
    (fun _ => .done) <$> ControlPlane.insertNodeIfClusterPolicy env node policy catalog
  | removeNode nodeId => .removed <$> ControlPlane.removeNode nodeId
  | updateNodeCandidates nodeId candidates =>
    (fun _ => .done) <$> ControlPlane.updateNodeCandidates nodeId candidates
  | updateNodeDisplayName nodeId displayName =>
    .node <$> ControlPlane.updateNodeDisplayName nodeId displayName
  | updateNodeRelayCapability nodeId relayCapability =>
    (fun _ => .done) <$> ControlPlane.updateNodeRelayCapability nodeId relayCapability
  | updateNodeRoutes nodeId routes =>
    (fun _ => .done) <$> ControlPlane.updateNodeRoutes nodeId routes
  | updateNodeRoutesIfClusterPolicy clusterId nodeId routes policy catalog => (fun _ => .done) <$>
      ControlPlane.updateNodeRoutesIfClusterPolicy env clusterId nodeId routes policy catalog
  | rejoinNodeIfClusterPolicy update =>
    .node <$> ControlPlane.rejoinNodeIfClusterPolicy env update
  | rotateNodeWireguardPublicKey nodeId current next =>
    .node <$> ControlPlane.rotateNodeWireguardPublicKey nodeId current next
  | applyHeartbeat update => (fun _ => .done) <$> ControlPlane.applyHeartbeat env update
  | upsertHealth nodeId health => (fun _ => .done) <$> ControlPlane.upsertHealth nodeId health
  | upsertNatClassification nodeId classification =>
    (fun _ => .done) <$> ControlPlane.upsertNatClassification nodeId classification
  | upsertPath path => (fun _ => .done) <$> ControlPlane.upsertPath path
  | replaceNodePaths nodeId paths =>
    (fun _ => .done) <$> ControlPlane.replaceNodePaths nodeId paths

def InMemoryStore.apply (env : StorePrimitives) (store : InMemoryStore Classification Snapshot)
    (op : StoreOp Classification) :
    Except ControlPlaneError StoreAnswer × InMemoryStore Classification Snapshot :=
  exec (op.run env) store

end Apply

end ControlPlane

end HeteroNetwork
