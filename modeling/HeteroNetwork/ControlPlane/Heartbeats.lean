import HeteroNetwork.Lib.Traces
import HeteroNetwork.ControlPlane.RoutingEpochs

/-!
# Heartbeats and registrations

A heartbeat is validated against a node's record before it enters the store, and the node may be removed and
registered again until it is applied.  So the store compares the identity key and the time of registration,
the `Generation`, once more.  `Holding` is what the store keeps of a node id that heartbeats read or write.
-/

namespace HeteroNetwork

open Checked OrderedMap Runs Option

namespace ControlPlane

/-- What tells two registrations of one node id apart. -/
structure Generation where
  identityPublicKey : String
  registeredAt : Timestamp
deriving DecidableEq

def NodeRecord.generation (node : NodeRecord) : Generation := ⟨node.identityPublicKey, node.registeredAt⟩

structure Holding where
  generation : Option Generation
  signedAt : Option Timestamp
  /-- The paths whose local end is the node. -/
  paths : List PathRecord
deriving DecidableEq

variable {Classification Snapshot : Type}

def HeartbeatStoreUpdate.generation (update : HeartbeatStoreUpdate Classification) : Generation :=
  ⟨update.expectedIdentityPublicKey, update.expectedRegisteredAt⟩

def pathsOf (id : NodeId) (paths : List PathRecord) : List PathRecord :=
  paths.filter fun path => path.key.localNode = id

def InMemoryStore.holding (store : InMemoryStore Classification Snapshot) (id : NodeId) : Holding :=
  ⟨store.nodes[id]?.map NodeRecord.generation, store.heartbeatSignatureTimestamps[id]?,
    pathsOf id store.paths⟩

def StoreOp.pathsAfter (id : NodeId) (paths : List PathRecord) :
    StoreOp Classification → List PathRecord
  | removeNode removed =>
    if removed = id then [] else paths.filter fun path => path.key.remoteNode ≠ removed
  | applyHeartbeat update =>
    if update.nodeId = id then pathsOf id update.paths else paths ++ pathsOf id update.paths
  | upsertPath path => if path.key.localNode = id then replacePath path paths else paths
  | replaceNodePaths replaced replacements =>
    if replaced = id then pathsOf id replacements else paths ++ pathsOf id replacements
  | _ => paths

def StoreOp.inserted : StoreOp Classification → Option NodeRecord
  | insertNode node => some node
  | insertNodeIfClusterPolicy node _ _ => some node
  | _ => none

def StoreOp.removed : StoreOp Classification → Option NodeId
  | removeNode nodeId => some nodeId
  | _ => none

def StoreOp.heartbeat (id : NodeId) : StoreOp Classification → Option (HeartbeatStoreUpdate Classification)
  | applyHeartbeat update => if update.nodeId = id then some update else none
  | _ => none

/-- What a call that succeeds does to the holding of a node. -/
def StoreOp.effect (id : NodeId) (op : StoreOp Classification) (held : Holding) : Holding where
  generation :=
    if op.removed = some id then none
    else match op.inserted with
      | some node => if node.nodeId = id then some node.generation else held.generation
      | none => held.generation
  signedAt :=
    if op.removed = some id then none
    else ((op.heartbeat id).bind HeartbeatStoreUpdate.acceptedSignatureAt).or held.signedAt
  paths := op.pathsAfter id held.paths

/-! ## What a method leaves behind -/

section Methods

variable {store store' : InMemoryStore Classification Snapshot} {clusterId : ClusterId}
  {nodeId id : NodeId} {node node' : NodeRecord} {env : StorePrimitives} {u : Unit}

@[simp] lemma exec_getNodeMut_eq_ok :
    exec (getNodeMut nodeId) store = (.ok node, store') ↔
      store.nodes[nodeId]? = some node ∧ store = store' := by
  rw [getNodeMut, exec_get_bind]
  cases store.nodes[nodeId]? with
  | none | some => simp

@[simp] lemma exec_setNode_eq_ok :
    exec (setNode nodeId node) store = (.ok u, store') ↔
      { store with nodes := store.nodes.insert nodeId node } = store' :=
  exec_modify_eq_ok

@[simp] lemma exec_advance_eq_ok :
    exec (advanceInMemoryOverlayRoutingEpoch clusterId) store = (.ok u, store') ↔
      (store.overlayRoutingEpoch clusterId).toNat + 1 < UInt64.size ∧ store.advanced clusterId = store' := by
  simp [advanceInMemoryOverlayRoutingEpoch, InMemoryStore.advanced]

@[simp] lemma exec_ensureClusterPolicy_eq_ok {expected : Option ClusterPolicy} :
    exec (ensureClusterPolicy clusterId expected) store = (.ok u, store') ↔
      store.clusterPolicies[clusterId]? = expected ∧ store = store' := by
  simp [ensureClusterPolicy, and_comm]

lemma exec_ensureRouteCatalog {expected : Option UInt64}
    (h : exec (ensureRouteCatalog env clusterId expected) store = (.ok u, store')) : store = store' := by
  rw [ensureRouteCatalog, exec_get_bind] at h
  cases expected with
  | none => exact (exec_pure_eq_ok.mp h).2
  | some expected =>
    simp only [exec_bind_eq_ok, exec_check_eq_ok] at h
    obtain ⟨_, _, ⟨-, rfl⟩, -, rfl⟩ := h
    rfl

lemma generation_insert (hnode : store.nodes[nodeId]? = some node)
    (hgeneration : node'.generation = node.generation) :
    (store.nodes.insert nodeId node')[id]?.map NodeRecord.generation =
      store.nodes[id]?.map NodeRecord.generation := by
  by_cases hid : nodeId = id
  · subst hid
    rw [Std.TreeMap.getElem?_insert_self, hnode, map_some, map_some, hgeneration]
  · rw [getElem?_insert_ne hid]

lemma holding_congr
    (hnodes : store'.nodes[id]?.map NodeRecord.generation = store.nodes[id]?.map NodeRecord.generation)
    (hsigned : store'.heartbeatSignatureTimestamps = store.heartbeatSignatureTimestamps)
    (hpaths : store'.paths = store.paths) : store'.holding id = store.holding id := by
  rw [InMemoryStore.holding, hnodes, hsigned, hpaths, InMemoryStore.holding]

lemma holding_of_node (hnode : store.nodes[nodeId]? = some node)
    (hnodes : store'.nodes = store.nodes.insert nodeId node')
    (hgeneration : node'.generation = node.generation)
    (hsigned : store'.heartbeatSignatureTimestamps = store.heartbeatSignatureTimestamps)
    (hpaths : store'.paths = store.paths) : store'.holding id = store.holding id :=
  holding_congr (by rw [hnodes, generation_insert hnode hgeneration]) hsigned hpaths

/-! ### Methods that keep every holding -/

variable {policy : ClusterPolicy}

lemma holding_initializeClusterPolicyIfAbsent {stored : ClusterPolicy}
    (h : exec (initializeClusterPolicyIfAbsent clusterId policy) store = (.ok stored, store')) :
    store'.holding id = store.holding id := by
  rw [initializeClusterPolicyIfAbsent, exec_get_bind] at h
  cases hpolicy : store.clusterPolicies[clusterId]? with
  | some found =>
    rw [hpolicy] at h
    rw [(exec_pure_eq_ok.mp h).2]
  | none =>
    rw [hpolicy] at h
    simp only [exec_bind_eq_ok, exec_advance_eq_ok, setClusterPolicy, exec_modify_eq_ok,
      exec_pure_eq_ok] at h
    obtain ⟨_, _, ⟨-, rfl⟩, _, _, rfl, -, rfl⟩ := h
    rfl

lemma holding_upsertClusterPolicy
    (h : exec (upsertClusterPolicy clusterId policy) store = (.ok u, store')) :
    store'.holding id = store.holding id := by
  rw [upsertClusterPolicy, exec_get_bind] at h
  split_ifs at h with hsame
  · rw [(exec_pure_eq_ok.mp h).2]
  · simp only [exec_bind_eq_ok, exec_advance_eq_ok, setClusterPolicy, exec_modify_eq_ok] at h
    obtain ⟨_, _, ⟨-, rfl⟩, rfl⟩ := h
    rfl

lemma holding_upsertClusterPolicyIfRouteCatalogEpoch {expected : UInt64} {flag : Bool}
    (h : exec (upsertClusterPolicyIfRouteCatalogEpoch env clusterId policy expected) store =
      (.ok flag, store')) : store'.holding id = store.holding id := by
  rw [upsertClusterPolicyIfRouteCatalogEpoch, exec_get_bind] at h
  simp only [exec_bind_eq_ok, exec_check_eq_ok] at h
  obtain ⟨epoch, _, ⟨-, rfl⟩, h⟩ := h
  split_ifs at h with hepoch hsame
  · rw [(exec_pure_eq_ok.mp h).2]
  · rw [(exec_pure_eq_ok.mp h).2]
  · simp only [exec_bind_eq_ok, exec_advance_eq_ok, setClusterPolicy, exec_modify_eq_ok,
      exec_pure_eq_ok] at h
    obtain ⟨_, _, ⟨-, rfl⟩, _, _, rfl, -, rfl⟩ := h
    rfl

variable {routes : List Route}

lemma holding_replaceRoutes (hnode : store.nodes[nodeId]? = some node)
    (h : exec (replaceRoutes nodeId node clusterId routes) store = (.ok u, store')) :
    store'.holding id = store.holding id := by
  rw [replaceRoutes] at h
  split_ifs at h with hsame
  · rw [(exec_pure_eq_ok.mp h).2]
  · simp only [exec_bind_eq_ok, exec_advance_eq_ok, exec_setNode_eq_ok] at h
    obtain ⟨_, _, ⟨-, rfl⟩, rfl⟩ := h
    exact holding_of_node hnode rfl rfl rfl rfl

lemma holding_updateNodeRoutes (h : exec (updateNodeRoutes nodeId routes) store = (.ok u, store')) :
    store'.holding id = store.holding id := by
  simp only [updateNodeRoutes, exec_bind_eq_ok, exec_getNodeMut_eq_ok] at h
  obtain ⟨node, _, ⟨hnode, rfl⟩, h⟩ := h
  exact holding_replaceRoutes hnode h

lemma holding_updateNodeRoutesIfClusterPolicy {policy : Option ClusterPolicy} {catalog : Option UInt64}
    (h : exec (updateNodeRoutesIfClusterPolicy env clusterId nodeId routes policy catalog) store =
      (.ok u, store')) : store'.holding id = store.holding id := by
  simp only [updateNodeRoutesIfClusterPolicy, exec_bind_eq_ok, exec_ensureClusterPolicy_eq_ok,
    exec_getNodeMut_eq_ok, exec_check_eq_ok] at h
  obtain ⟨_, _, ⟨-, rfl⟩, _, _, hcatalog, node, _, ⟨hnode, rfl⟩, _, _, ⟨-, rfl⟩, h⟩ := h
  obtain rfl := exec_ensureRouteCatalog hcatalog
  exact holding_replaceRoutes hnode h

lemma holding_rejoinNodeIfClusterPolicy {update : RejoinNodeStoreUpdate} {rejoined : NodeRecord}
    (h : exec (rejoinNodeIfClusterPolicy env update) store = (.ok rejoined, store')) :
    store'.holding id = store.holding id := by
  rw [rejoinNodeIfClusterPolicy] at h
  simp only [exec_bind_eq_ok, exec_ensureClusterPolicy_eq_ok, exec_getNodeMut_eq_ok,
    exec_check_eq_ok] at h
  obtain ⟨_, _, ⟨-, rfl⟩, _, _, hcatalog, node, _, ⟨hnode, rfl⟩, _, _, ⟨-, rfl⟩, _, _, ⟨-, rfl⟩, h⟩ := h
  obtain rfl := exec_ensureRouteCatalog hcatalog
  split_ifs at h with hroutes
  · simp only [exec_bind_eq_ok, exec_advance_eq_ok, exec_setNode_eq_ok, exec_pure_eq_ok] at h
    obtain ⟨_, _, ⟨-, rfl⟩, _, _, rfl, -, rfl⟩ := h
    exact holding_of_node hnode rfl rfl rfl rfl
  · simp only [exec_bind_eq_ok, exec_setNode_eq_ok, exec_pure_eq_ok] at h
    obtain ⟨_, _, rfl, -, rfl⟩ := h
    exact holding_of_node hnode rfl rfl rfl rfl

lemma holding_rotateNodeWireguardPublicKey {current next : String}
    (h : exec (rotateNodeWireguardPublicKey nodeId current next) store = (.ok node', store')) :
    store'.holding id = store.holding id := by
  rw [rotateNodeWireguardPublicKey] at h
  simp only [exec_bind_eq_ok, exec_getNodeMut_eq_ok, exec_check_eq_ok] at h
  obtain ⟨node, _, ⟨hnode, rfl⟩, _, _, ⟨-, rfl⟩, h⟩ := h
  split_ifs at h with hsame
  · rw [(exec_pure_eq_ok.mp h).2]
  · simp only [exec_bind_eq_ok, exec_advance_eq_ok, exec_setNode_eq_ok, exec_pure_eq_ok] at h
    obtain ⟨_, _, ⟨-, rfl⟩, _, _, rfl, -, rfl⟩ := h
    exact holding_of_node hnode rfl rfl rfl rfl

/-! ### Methods that change one -/

lemma exec_insertNode (h : exec (insertNode node) store = (.ok u, store')) :
    node.nodeId ∉ store.nodes ∧ store' = { store.advanced node.clusterId with
      nodes := store.nodes.insert node.nodeId node } := by
  rw [insertNode, exec_get_bind] at h
  simp only [exec_bind_eq_ok, exec_check_eq_ok, rejectIf_eq_ok, exec_advance_eq_ok,
    exec_setNode_eq_ok] at h
  obtain ⟨_, _, ⟨habsent, rfl⟩, _, _, ⟨-, rfl⟩, rfl⟩ := h
  exact ⟨habsent, rfl⟩

lemma exec_insertNodeIfClusterPolicy {policy : Option ClusterPolicy} {catalog : Option UInt64}
    (h : exec (insertNodeIfClusterPolicy env node policy catalog) store = (.ok u, store')) :
    exec (insertNode node) store = (.ok u, store') := by
  simp only [insertNodeIfClusterPolicy, exec_bind_eq_ok, exec_ensureClusterPolicy_eq_ok] at h
  obtain ⟨_, _, ⟨-, rfl⟩, _, _, hcatalog, h⟩ := h
  obtain rfl := exec_ensureRouteCatalog hcatalog
  exact h

structure Removal (nodeId : NodeId) (store store' : InMemoryStore Classification Snapshot) : Prop where
  nodes : store'.nodes = store.nodes.erase nodeId
  signed : store'.heartbeatSignatureTimestamps = store.heartbeatSignatureTimestamps.erase nodeId
  paths : store'.paths = store.paths.filter fun path =>
    path.key.localNode ≠ nodeId ∧ path.key.remoteNode ≠ nodeId

lemma exec_removeNode {removed : RemovedNode}
    (h : exec (removeNode nodeId) store = (.ok removed, store')) : Removal nodeId store store' := by
  simp only [removeNode, exec_bind_eq_ok, exec_getNodeMut_eq_ok, exec_advance_eq_ok, exec_get_eq_ok,
    exec_modify_eq_ok, exec_pure_eq_ok] at h
  obtain ⟨node, _, ⟨-, rfl⟩, _, _, ⟨-, rfl⟩, _, _, ⟨rfl, rfl⟩, _, _, rfl, -, rfl⟩ := h
  exact ⟨rfl, rfl, rfl⟩

structure Application (update : HeartbeatStoreUpdate Classification)
    (store store' : InMemoryStore Classification Snapshot) : Prop where
  generation : store.nodes[update.nodeId]?.map NodeRecord.generation = some update.generation
  newer : ∀ t ∈ update.acceptedSignatureAt,
    ∀ t' ∈ store.heartbeatSignatureTimestamps[update.nodeId]?, t' < t
  nodes : ∀ id : NodeId,
    store'.nodes[id]?.map NodeRecord.generation = store.nodes[id]?.map NodeRecord.generation
  signed : ∀ id : NodeId, store'.heartbeatSignatureTimestamps[id]? =
    if update.nodeId = id then
      update.acceptedSignatureAt.or store.heartbeatSignatureTimestamps[id]?
    else store.heartbeatSignatureTimestamps[id]?
  paths : store'.paths =
    store.paths.filter (fun path => path.key.localNode ≠ update.nodeId) ++ update.paths

variable {update : HeartbeatStoreUpdate Classification}

lemma ensureMatchesNodeGeneration_eq_ok (h : update.ensureMatchesNodeGeneration node = .ok u) :
    node.generation = update.generation := by
  simp only [HeartbeatStoreUpdate.ensureMatchesNodeGeneration, bind_eq_ok, rejectIf_eq_ok, not_or,
    not_not] at h
  obtain ⟨_, -, hkey, hregistered⟩ := h
  rw [NodeRecord.generation, hkey, hregistered, HeartbeatStoreUpdate.generation]

lemma ensureHeartbeatIsNewer_eq_ok {previous : Option Timestamp} {health : Option NodeHealth}
    (h : ensureHeartbeatIsNewer env update previous health = .ok u) :
    ∀ t ∈ update.acceptedSignatureAt, ∀ t' ∈ previous, t' < t := by
  rintro t ht t' ht'
  rw [mem_def] at ht ht'
  rw [ensureHeartbeatIsNewer, ht, ht', rejectIf_eq_ok] at h
  exact not_le.mp h

lemma application_of_fields (hnode : store.nodes[update.nodeId]? = some node)
    (hgeneration : node.generation = update.generation)
    (hnewer : ∀ t ∈ update.acceptedSignatureAt,
      ∀ t' ∈ store.heartbeatSignatureTimestamps[update.nodeId]?, t' < t)
    (hnodes : store'.nodes = store.nodes.insert update.nodeId (update.applyTo node))
    (hsigned : store'.heartbeatSignatureTimestamps = match update.acceptedSignatureAt with
      | some t => store.heartbeatSignatureTimestamps.insert update.nodeId t
      | none => store.heartbeatSignatureTimestamps) (hpaths : store'.paths =
      store.paths.filter (fun path => path.key.localNode ≠ update.nodeId) ++ update.paths) :
    Application update store store' where
  generation := by rw [hnode, map_some, hgeneration]
  newer := hnewer
  nodes id := by
    rw [hnodes]
    exact generation_insert hnode rfl
  signed id := by
    rw [hsigned]
    cases update.acceptedSignatureAt with
    | none => rw [none_or, ite_self]
    | some t =>
      by_cases hid : update.nodeId = id
      · subst hid
        rw [if_pos rfl, Std.TreeMap.getElem?_insert_self, some_or]
      · rw [if_neg hid, getElem?_insert_ne hid]
  paths := hpaths

lemma exec_applyHeartbeat (h : exec (applyHeartbeat env update) store = (.ok u, store')) :
    Application update store store' := by
  rw [applyHeartbeat] at h
  simp only [exec_bind_eq_ok, exec_ensureClusterPolicy_eq_ok, exec_getNodeMut_eq_ok, exec_get_eq_ok,
    exec_check_eq_ok] at h
  obtain ⟨_, _, ⟨-, rfl⟩, _, _, hcatalog, node, _, ⟨hnode, rfl⟩, _, _, ⟨hgeneration, rfl⟩, _, _, ⟨rfl, rfl⟩,
    _, _, ⟨hnewer, rfl⟩, h⟩ := h
  obtain rfl := exec_ensureRouteCatalog hcatalog
  have hgeneration := ensureMatchesNodeGeneration_eq_ok hgeneration
  have hnewer := ensureHeartbeatIsNewer_eq_ok hnewer
  split_ifs at h with hroutes
  · simp only [exec_bind_eq_ok, exec_check_eq_ok, exec_advance_eq_ok, exec_setNode_eq_ok,
      exec_modify_eq_ok] at h
    obtain ⟨_, _, ⟨-, rfl⟩, _, _, ⟨-, rfl⟩, _, _, rfl, rfl⟩ := h
    exact application_of_fields hnode hgeneration hnewer rfl rfl rfl
  · simp only [exec_bind_eq_ok, exec_setNode_eq_ok, exec_modify_eq_ok] at h
    obtain ⟨_, _, rfl, rfl⟩ := h
    exact application_of_fields hnode hgeneration hnewer rfl rfl rfl

end Methods

/-! ## What a call leaves behind -/

section Paths

variable {id nodeId : NodeId} {paths : List PathRecord}

lemma pathsOf_removed :
    pathsOf id (paths.filter fun path => path.key.localNode ≠ nodeId ∧ path.key.remoteNode ≠ nodeId) =
      if nodeId = id then [] else (pathsOf id paths).filter fun path => path.key.remoteNode ≠ nodeId := by
  rw [pathsOf, List.filter_filter]
  split_ifs with hid
  · subst hid
    refine List.filter_eq_nil_iff.mpr fun path _ h => ?_
    simp only [ne_eq, Bool.and_eq_true, decide_eq_true_eq] at h
    exact h.2.1 h.1
  · rw [pathsOf, List.filter_filter]
    refine List.filter_congr fun path _ => ?_
    by_cases hlocal : path.key.localNode = id
    · simp [hlocal, Ne.symm hid]
    · simp [hlocal]

lemma pathsOf_replaced (replacements : List PathRecord) :
    pathsOf id (paths.filter (fun path => path.key.localNode ≠ nodeId) ++ replacements) =
      if nodeId = id then pathsOf id replacements else pathsOf id paths ++ pathsOf id replacements := by
  rw [pathsOf, List.filter_append, List.filter_filter]
  split_ifs with hid
  · subst hid
    simp [pathsOf]
  · rw [pathsOf, pathsOf]
    refine congrArg (· ++ _) (List.filter_congr fun path _ => ?_)
    by_cases hlocal : path.key.localNode = id
    · simp [hlocal, Ne.symm hid]
    · simp [hlocal]

lemma pathsOf_cons (path : PathRecord) :
    pathsOf id (path :: paths) =
      if path.key.localNode = id then path :: pathsOf id paths else pathsOf id paths := by
  rw [pathsOf, List.filter_cons]
  simp only [decide_eq_true_eq, pathsOf]

lemma pathsOf_replacePath (path : PathRecord) :
    pathsOf id (replacePath path paths) =
      if path.key.localNode = id then replacePath path (pathsOf id paths) else pathsOf id paths := by
  induction paths with
  | nil =>
    rw [replacePath, pathsOf_cons]
    rfl
  | cons existing rest ih =>
    rw [replacePath, pathsOf_cons]
    by_cases hkey : existing.key = path.key
    · -- the record that is replaced has the local end of the path
      rw [if_pos hkey, pathsOf_cons, hkey]
      split_ifs
      · rw [replacePath, if_pos hkey]
      · rfl
    · rw [if_neg hkey, pathsOf_cons, ih]
      split_ifs
      · rw [replacePath, if_neg hkey]
      · rfl
      · rfl
      · rfl

end Paths

open InMemoryStore (holding)
open StoreOp (effect removed inserted heartbeat pathsAfter)

section Calls

variable {env : StorePrimitives} {store store' : InMemoryStore Classification Snapshot}
  {op : StoreOp Classification} {answer : StoreAnswer}

lemma exec_map_eq_ok {α : Type} {g : α → StoreAnswer} {x : StoreM Classification Snapshot α}
    (h : exec (g <$> x) store = (.ok answer, store')) : ∃ a, exec x store = (.ok a, store') := by
  rw [map_eq_pure_bind, exec_bind_eq_ok] at h
  obtain ⟨a, _, hx, h⟩ := h
  obtain ⟨-, rfl⟩ := exec_pure_eq_ok.mp h
  exact ⟨a, hx⟩

variable (id : NodeId)

lemma holding_insertNode {node : NodeRecord} {u : Unit}
    (h : exec (insertNode node) store = (.ok u, store')) :
    store'.holding id = effect id (.insertNode node : StoreOp Classification) (store.holding id) := by
  obtain ⟨-, rfl⟩ := exec_insertNode h
  by_cases hid : node.nodeId = id
  · subst hid
    simp [holding, effect, removed, inserted, heartbeat,
      pathsAfter, InMemoryStore.advanced]
  · simp [holding, effect, removed, inserted, heartbeat,
      pathsAfter, InMemoryStore.advanced, hid, getElem?_insert_ne hid]

lemma holding_removeNode {nodeId : NodeId} (h : Removal nodeId store store') :
    store'.holding id = effect id (.removeNode nodeId : StoreOp Classification) (store.holding id) := by
  rw [holding, h.nodes, h.signed, h.paths, pathsOf_removed]
  by_cases hid : nodeId = id
  · subst hid
    simp [effect, removed, pathsAfter]
  · simp [holding, effect, removed, inserted, heartbeat,
      pathsAfter, hid, getElem?_erase_ne hid]

lemma holding_applyHeartbeat {update : HeartbeatStoreUpdate Classification}
    (h : Application update store store') :
    store'.holding id = effect id (.applyHeartbeat update) (store.holding id) := by
  rw [holding, h.nodes, h.signed, h.paths, pathsOf_replaced]
  by_cases hid : update.nodeId = id
  · simp [holding, effect, removed, inserted, heartbeat,
      pathsAfter, hid]
  · simp [holding, effect, removed, inserted, heartbeat,
      pathsAfter, hid]

/-- A call that succeeds changes the holding of a node as its effect says. -/
theorem holding_apply (h : store.apply env op = (.ok answer, store')) :
    store'.holding id = op.effect id (store.holding id) := by
  rw [InMemoryStore.apply] at h
  cases op with (obtain ⟨_, h⟩ := exec_map_eq_ok h)
  | initializeClusterPolicyIfAbsent clusterId policy =>
    exact holding_initializeClusterPolicyIfAbsent h
  | upsertClusterPolicy clusterId policy =>
    exact holding_upsertClusterPolicy h
  | upsertClusterPolicyIfRouteCatalogEpoch clusterId policy expected =>
    exact holding_upsertClusterPolicyIfRouteCatalogEpoch h
  | insertNode node =>
    exact holding_insertNode id h
  | insertNodeIfClusterPolicy node policy catalog =>
    exact holding_insertNode id (exec_insertNodeIfClusterPolicy h)
  | removeNode nodeId =>
    exact holding_removeNode id (exec_removeNode h)
  | updateNodeCandidates nodeId candidates =>
    simp only [updateNodeCandidates, exec_bind_eq_ok, exec_getNodeMut_eq_ok, exec_setNode_eq_ok] at h
    obtain ⟨node, _, ⟨hnode, rfl⟩, rfl⟩ := h
    exact holding_of_node hnode rfl rfl rfl rfl
  | updateNodeDisplayName nodeId displayName =>
    simp only [updateNodeDisplayName, exec_bind_eq_ok, exec_getNodeMut_eq_ok, exec_setNode_eq_ok,
      exec_pure_eq_ok] at h
    obtain ⟨node, _, ⟨hnode, rfl⟩, _, _, rfl, -, rfl⟩ := h
    exact holding_of_node hnode rfl rfl rfl rfl
  | updateNodeRelayCapability nodeId relayCapability =>
    simp only [updateNodeRelayCapability, exec_bind_eq_ok, exec_getNodeMut_eq_ok, exec_setNode_eq_ok] at h
    obtain ⟨node, _, ⟨hnode, rfl⟩, rfl⟩ := h
    exact holding_of_node hnode rfl rfl rfl rfl
  | updateNodeRoutes nodeId routes =>
    exact holding_updateNodeRoutes h
  | updateNodeRoutesIfClusterPolicy clusterId nodeId routes policy catalog =>
    exact holding_updateNodeRoutesIfClusterPolicy h
  | rejoinNodeIfClusterPolicy update =>
    exact holding_rejoinNodeIfClusterPolicy h
  | rotateNodeWireguardPublicKey nodeId current next =>
    exact holding_rotateNodeWireguardPublicKey h
  | applyHeartbeat update =>
    exact holding_applyHeartbeat id (exec_applyHeartbeat h)
  | upsertHealth | upsertNatClassification =>
    obtain rfl := exec_modify_eq_ok.mp h
    rfl
  | upsertPath path =>
    obtain rfl := exec_modify_eq_ok.mp h
    exact congrArg (Holding.mk _ _) (pathsOf_replacePath path)
  | replaceNodePaths nodeId paths =>
    obtain rfl := exec_modify_eq_ok.mp h
    exact congrArg (Holding.mk _ _) (pathsOf_replaced paths)

lemma apply_of_not_isOk (h : (store.apply env op).1.isOk = false) :
    ∃ error, store.apply env op = (.error error, store) := by
  have hstep := storeStep_apply env store op
  generalize store.apply env op = result at hstep h ⊢
  cases hstep with
  | failed error => exact ⟨error, rfl⟩
  | quiet | bumped => cases h

lemma apply_of_isOk (h : (store.apply env op).1.isOk = true) :
    ∃ answer, store.apply env op = (.ok answer, (store.apply env op).2) := by
  generalize store.apply env op = result at h ⊢
  obtain ⟨error | answer, store'⟩ := result
  · cases h
  · exact ⟨answer, rfl⟩

lemma absent_of_inserted {node : NodeRecord} (hop : op.inserted = some node)
    (h : (store.apply env op).1.isOk = true) : (store.holding node.nodeId).generation = none := by
  obtain ⟨answer, h⟩ := apply_of_isOk h
  rw [InMemoryStore.apply] at h
  have habsent : node.nodeId ∉ store.nodes := by
    cases op with
    | insertNode inserted =>
      obtain rfl := some.inj hop
      obtain ⟨_, h⟩ := exec_map_eq_ok h
      exact (exec_insertNode h).1
    | insertNodeIfClusterPolicy inserted policy catalog =>
      obtain rfl := some.inj hop
      obtain ⟨_, h⟩ := exec_map_eq_ok h
      exact (exec_insertNode (exec_insertNodeIfClusterPolicy h)).1
    | _ => cases hop
  rw [holding, Std.TreeMap.getElem?_eq_none habsent, map_none]

lemma application_of_applied {update : HeartbeatStoreUpdate Classification}
    (h : (store.apply env (.applyHeartbeat update)).1.isOk = true) :
    Application update store (store.apply env (.applyHeartbeat update)).2 := by
  obtain ⟨answer, h⟩ := apply_of_isOk h
  rw [InMemoryStore.apply] at h
  obtain ⟨_, h⟩ := exec_map_eq_ok h
  exact exec_applyHeartbeat h

end Calls

/-! ## Runs -/

abbrev StoreCall (Classification : Type) := StoreOp Classification × Except ControlPlaneError StoreAnswer

namespace StoreCall

variable (id : NodeId) (call : StoreCall Classification)

def applied : Option (HeartbeatStoreUpdate Classification) :=
  if call.2.isOk then call.1.heartbeat id else none

def signature : Option Timestamp := (call.applied id).bind HeartbeatStoreUpdate.acceptedSignatureAt

def Removes : Prop := call.2.isOk = true ∧ call.1.removed = some id

instance : Decidable (call.Removes id) := inferInstanceAs (Decidable (_ ∧ _))

def pathsAfter (paths : List PathRecord) : List PathRecord :=
  if call.2.isOk then call.1.pathsAfter id paths else paths

end StoreCall

section Runs

variable {env : StorePrimitives} {store : InMemoryStore Classification Snapshot}
  {op : StoreOp Classification} {id : NodeId}

lemma paths_apply : ((store.apply env op).2.holding id).paths =
    StoreCall.pathsAfter id (op, (store.apply env op).1) (store.holding id).paths := by
  cases hok : (store.apply env op).1.isOk with
  | false =>
    obtain ⟨error, herror⟩ := apply_of_not_isOk hok
    rw [herror]
    rfl
  | true =>
    obtain ⟨answer, happly⟩ := apply_of_isOk hok
    rw [holding_apply id happly, StoreCall.pathsAfter, if_pos hok]
    rfl

lemma generation_apply {generation : Generation}
    (hstays : ¬StoreCall.Removes id (op, (store.apply env op).1))
    (h : (store.holding id).generation = some generation) :
    ((store.apply env op).2.holding id).generation = some generation := by
  cases hok : (store.apply env op).1.isOk with
  | false =>
    obtain ⟨error, herror⟩ := apply_of_not_isOk hok
    rw [herror]
    exact h
  | true =>
    obtain ⟨answer, happly⟩ := apply_of_isOk hok
    rw [holding_apply id happly, effect, if_neg fun hremoved => hstays ⟨hok, hremoved⟩]
    cases hinserted : op.inserted with
    | none => exact h
    | some node =>
      have hid : node.nodeId ≠ id := by
        rintro rfl
        rw [absent_of_inserted hinserted hok] at h
        cases h
      simp only [if_neg hid, h]

lemma generation_of_inserted {node : NodeRecord} (hop : op.inserted = some node)
    (h : (store.apply env op).1.isOk = true) :
    ((store.apply env op).2.holding node.nodeId).generation = some node.generation := by
  obtain ⟨answer, happly⟩ := apply_of_isOk h
  have hremoved : ¬op.removed = some node.nodeId := by
    cases op with
    | removeNode => cases hop
    | _ => exact fun h => (nomatch h)
  rw [holding_apply node.nodeId happly]
  simp only [effect, if_neg hremoved, hop, if_true]

lemma heartbeat_eq_some {update : HeartbeatStoreUpdate Classification}
    (h : op.heartbeat id = some update) : op = .applyHeartbeat update ∧ update.nodeId = id := by
  cases op with
  | applyHeartbeat found =>
    rw [heartbeat, ite_none_right_eq_some] at h
    obtain ⟨hid, hfound⟩ := h
    obtain rfl := some.inj hfound
    exact ⟨rfl, hid⟩
  | _ => cases h

lemma applied_eq_some {update : HeartbeatStoreUpdate Classification}
    (h : StoreCall.applied id (op, (store.apply env op).1) = some update) :
    op = .applyHeartbeat update ∧ update.nodeId = id ∧ Application update store (store.apply env op).2 := by
  rw [StoreCall.applied, ite_none_right_eq_some] at h
  obtain ⟨rfl, hid⟩ := heartbeat_eq_some h.2
  exact ⟨rfl, hid, application_of_applied h.1⟩

lemma signedAt_of_signature {t : Timestamp}
    (h : StoreCall.signature id (op, (store.apply env op).1) = some t) :
    (∀ t' ∈ (store.holding id).signedAt, t' < t) ∧
      ((store.apply env op).2.holding id).signedAt = some t := by
  obtain ⟨update, happlied, ht⟩ := bind_eq_some_iff.mp h
  obtain ⟨rfl, rfl, happlication⟩ := applied_eq_some happlied
  refine ⟨happlication.newer t ht, ?_⟩
  rw [holding, happlication.signed, if_pos rfl, ht, some_or]

lemma signedAt_apply (hstays : ¬StoreCall.Removes id (op, (store.apply env op).1))
    (h : StoreCall.signature id (op, (store.apply env op).1) = none) :
    ((store.apply env op).2.holding id).signedAt = (store.holding id).signedAt := by
  cases hok : (store.apply env op).1.isOk with
  | false =>
    obtain ⟨error, herror⟩ := apply_of_not_isOk hok
    rw [herror]
  | true =>
    obtain ⟨answer, happly⟩ := apply_of_isOk hok
    have hremoved : ¬op.removed = some id := fun hremoved => hstays ⟨hok, hremoved⟩
    rw [StoreCall.signature, StoreCall.applied, if_pos hok] at h
    rw [holding_apply id happly]
    simp only [effect, if_neg hremoved, h, none_or]

end Runs

/-- **A registration and its heartbeats.**  As long as a node is not removed, the times of its signed
heartbeats increase, one that was validated against another registration is turned down, and the paths of
the node are those of the last heartbeat, as changed by the calls since. -/
theorem heartbeats_of_registration (env : StorePrimitives)
    (start : InMemoryStore Classification Snapshot) (before during : List (StoreOp Classification))
    (insertion : StoreOp Classification) (node : NodeRecord)
    (hinsertion : insertion.inserted = some node)
    (hinserted : ((Runs.exec (InMemoryStore.apply env) start before).apply env insertion).1.isOk = true)
    (hstays : ∀ call ∈ Runs.trace (InMemoryStore.apply env)
      (Runs.exec (InMemoryStore.apply env) start (before ++ [insertion])) during,
        ¬StoreCall.Removes node.nodeId call) :
    let registered := Runs.exec (InMemoryStore.apply env) start (before ++ [insertion])
    let store := Runs.exec (InMemoryStore.apply env) registered
    let calls := Runs.trace (InMemoryStore.apply env) registered during
    (calls.filterMap (StoreCall.signature node.nodeId)).Pairwise (· < ·) ∧
    (∀ call ∈ calls, ∀ update ∈ StoreCall.applied node.nodeId call, update.generation = node.generation) ∧
    (∀ update : HeartbeatStoreUpdate Classification, update.nodeId = node.nodeId →
      update.generation ≠ node.generation →
      ∃ error, (store during).apply env (.applyHeartbeat update) = (.error error, store during)) ∧
    ∀ earlier update later, during = earlier ++ .applyHeartbeat update :: later →
      update.nodeId = node.nodeId →
      ((store earlier).apply env (.applyHeartbeat update)).1.isOk = true →
      pathsOf node.nodeId (store during).paths =
        (Runs.trace (InMemoryStore.apply env) (store (earlier ++ [.applyHeartbeat update])) later).foldl
          (fun paths call => StoreCall.pathsAfter node.nodeId call paths)
          (pathsOf node.nodeId update.paths) := by
  intro registered store calls
  have hregistered : (registered.holding node.nodeId).generation = some node.generation := by
    rw [show registered = _ from exec_append]
    exact generation_of_inserted hinsertion hinserted
  have hgeneration : ∀ earlier later, during = earlier ++ later →
      ((store earlier).holding node.nodeId).generation = some node.generation := by
    rintro earlier later rfl
    rw [trace_append] at hstays
    exact exec_invariant_of_trace
      (fun store => (store.holding node.nodeId).generation = some node.generation)
      (fun _ _ => generation_apply) (fun call hcall => hstays call (List.mem_append_left _ hcall))
      hregistered
  refine ⟨?_, ?_, ?_, ?_⟩
  · exact (pairwise_emitted (fun _ _ _ => signedAt_of_signature) (fun _ _ => signedAt_apply) hstays).1
  · intro call hcall update hupdate
    obtain ⟨earlier, op, later, hduring, rfl⟩ := mem_trace.mp hcall
    obtain ⟨rfl, hid, happlication⟩ := applied_eq_some hupdate
    have hfound := hgeneration earlier _ hduring
    rw [InMemoryStore.holding, ← hid, happlication.generation] at hfound
    exact Option.some.inj hfound
  · intro update hid hother
    refine apply_of_not_isOk (Bool.eq_false_iff.mpr fun hok => hother ?_)
    have hfound := hgeneration during [] (List.append_nil _).symm
    rw [InMemoryStore.holding, ← hid, (application_of_applied hok).generation] at hfound
    exact Option.some.inj hfound
  · rintro earlier update later rfl hid hok
    have happlied : pathsOf node.nodeId (store (earlier ++ [.applyHeartbeat update])).paths =
        pathsOf node.nodeId update.paths := by
      rw [show store (earlier ++ [.applyHeartbeat update]) = _ from exec_append, exec_cons,
        exec_nil, (application_of_applied hok).paths, pathsOf_replaced, if_pos hid]
    rw [List.append_cons, show store (_ ++ later) = _ from exec_append, ← happlied]
    exact exec_view (fun store : InMemoryStore Classification Snapshot => pathsOf node.nodeId store.paths)
      (fun paths call => StoreCall.pathsAfter node.nodeId call paths) fun _ _ => paths_apply

namespace SampleStore

def peer : NodeRecord := { sampleNode with nodeId := ⟨"m"⟩ }

def path : PathRecord where
  key := ⟨⟨"n"⟩, ⟨"m"⟩⟩
  selectedState := .directPublic
  selectedCandidate := none
  relayNode := none
  score := ⟨1, []⟩
  updatedAt := 1
  pinned := false

def heartbeat (identityPublicKey : String) (signedAt : Timestamp) : HeartbeatStoreUpdate Unit where
  clusterId := ⟨"lab"⟩
  expectedClusterPolicy := none
  expectedRouteCatalogEpoch := none
  nodeId := ⟨"n"⟩
  expectedIdentityPublicKey := identityPublicKey
  expectedRegisteredAt := 0
  acceptedSignatureAt := some signedAt
  hostname := none
  candidates := []
  natClassification := none
  relayCapability := none
  routes := none
  health := ⟨.healthy, signedAt, none, none, none⟩
  paths := [path]

/-- The path of `n` goes with the node at its other end, although `n` has sent no other heartbeat and nobody
has changed a path. -/
theorem removal_drops_paths :
    ((state [.insertNode sampleNode, .insertNode peer]).apply env
      (.applyHeartbeat (heartbeat "key" 1))).1 = .ok .done ∧
    pathsOf ⟨"n"⟩ (state [.insertNode sampleNode, .insertNode peer, .applyHeartbeat (heartbeat "key" 1),
      .removeNode ⟨"m"⟩]).paths ≠ (heartbeat "key" 1).paths := by
  refine ⟨by decide +kernel, by decide +kernel⟩

theorem heartbeats_of_registration_again :
    let again := state [.insertNode { sampleNode with identityPublicKey := "old" },
      .applyHeartbeat (heartbeat "old" 5), .removeNode ⟨"n"⟩, .insertNode sampleNode]
    let during := [.applyHeartbeat (heartbeat "key" 1), .applyHeartbeat (heartbeat "key" 2)]
    ((Runs.trace (InMemoryStore.apply env) again during).filterMap
      (StoreCall.signature ⟨"n"⟩)).Pairwise (· < ·) ∧
    ∃ error, (Runs.exec (InMemoryStore.apply env) again during).apply env
      (.applyHeartbeat (heartbeat "old" 6)) =
        (.error error, Runs.exec (InMemoryStore.apply env) again during) := by
  intro again during
  obtain ⟨htimes, -, hstale, -⟩ := heartbeats_of_registration env (.empty Unit Unit)
    [.insertNode { sampleNode with identityPublicKey := "old" }, .applyHeartbeat (heartbeat "old" 5),
      .removeNode ⟨"n"⟩] during (.insertNode sampleNode) sampleNode rfl (by decide +kernel)
    (by decide +kernel)
  exact ⟨htimes, hstale (heartbeat "old" 6) rfl (by decide)⟩

end SampleStore

end ControlPlane

end HeteroNetwork
