import HeteroNetwork.ControlPlane.Store

/-!
# The routing epoch versions the routes

Routes are computed from a cluster's policy and routing catalog, and are cached as long as its routing epoch
has not moved.  So every writer that changes one of the two has to advance the epoch, which must never come
back to an old value.
-/

namespace HeteroNetwork

open Checked OrderedMap Function

namespace ControlPlane

variable {Classification Snapshot : Type}

namespace InMemoryStore

variable (store : InMemoryStore Classification Snapshot)

/-- What routing knows of a node, if the node is one of the cluster. -/
def routingCatalog (clusterId : ClusterId) (nodeId : NodeId) : Option CatalogEntry :=
  (store.nodes[nodeId]?.filter fun node => node.clusterId = clusterId).map NodeRecord.catalogEntry

def routing (clusterId : ClusterId) : Option ClusterPolicy × (NodeId → Option CatalogEntry) :=
  (store.clusterPolicies[clusterId]?, store.routingCatalog clusterId)

def advanced (clusterId : ClusterId) : InMemoryStore Classification Snapshot :=
  { store with overlayRoutingEpochs :=
      store.overlayRoutingEpochs.insert clusterId (store.overlayRoutingEpoch clusterId + 1) }

end InMemoryStore

/-! ## What a call can do -/

/-- No epoch moves, and neither does what it stands for. -/
def Quiet (store store' : InMemoryStore Classification Snapshot) : Prop :=
  ∀ c, store'.overlayRoutingEpoch c = store.overlayRoutingEpoch c ∧ store'.routing c = store.routing c

/-- The epoch of one cluster advances; the other clusters see nothing. -/
structure Bumped (clusterId : ClusterId) (store store' : InMemoryStore Classification Snapshot) :
    Prop where
  advances : store.overlayRoutingEpoch clusterId < store'.overlayRoutingEpoch clusterId
  epoch_other : ∀ c ≠ clusterId, store'.overlayRoutingEpoch c = store.overlayRoutingEpoch c
  routing_other : ∀ c ≠ clusterId, store'.routing c = store.routing c

/-- A call fails and changes nothing, or it succeeds with `cond` and keeps the epochs honest. -/
inductive StoreStep {α : Type} (cond : α → Prop) (store : InMemoryStore Classification Snapshot) :
    Except ControlPlaneError α × InMemoryStore Classification Snapshot → Prop
  | failed (error : ControlPlaneError) : StoreStep cond store (.error error, store)
  | quiet {a store'} (hcond : cond a) (h : Quiet store store') : StoreStep cond store (.ok a, store')
  | bumped {a store' clusterId} (hcond : cond a) (h : Bumped clusterId store store') :
      StoreStep cond store (.ok a, store')

section Steps

variable {store store' : InMemoryStore Classification Snapshot} {clusterId : ClusterId}
  {nodeId : NodeId} {node node' : NodeRecord}

lemma overlayRoutingEpoch_congr (h : store'.overlayRoutingEpochs = store.overlayRoutingEpochs)
    (c : ClusterId) : store'.overlayRoutingEpoch c = store.overlayRoutingEpoch c := by
  rw [InMemoryStore.overlayRoutingEpoch, h, InMemoryStore.overlayRoutingEpoch]

variable {c : ClusterId}

lemma overlayRoutingEpoch_insert {epoch : UInt64}
    (h : store'.overlayRoutingEpochs = store.overlayRoutingEpochs.insert clusterId epoch) :
    store'.overlayRoutingEpoch c = if c = clusterId then epoch else store.overlayRoutingEpoch c := by
  rw [InMemoryStore.overlayRoutingEpoch, h, Std.TreeMap.getD_insert]
  by_cases hc : c = clusterId
  · rw [if_pos hc, if_pos (by rw [hc]; exact Std.ReflCmp.compare_self)]
  · rw [if_neg hc, if_neg fun heq => hc (Std.LawfulEqOrd.eq_of_compare heq).symm]
    rfl

lemma routingCatalog_insert (h : store'.nodes = store.nodes.insert nodeId node') :
    store'.routingCatalog c = update (store.routingCatalog c) nodeId
      (((some node').filter fun node => node.clusterId = c).map NodeRecord.catalogEntry) := by
  funext id
  rw [InMemoryStore.routingCatalog, h]
  by_cases hid : id = nodeId
  · subst hid
    rw [Std.TreeMap.getElem?_insert_self, update_self]
  · rw [getElem?_insert_ne (Ne.symm hid), update_of_ne hid]
    rfl

lemma routingCatalog_eq_none (h : ∀ node, store.nodes[nodeId]? = some node → node.clusterId ≠ c) :
    store.routingCatalog c nodeId = none := by
  rw [InMemoryStore.routingCatalog]
  cases hnode : store.nodes[nodeId]? with
  | none => rfl
  | some node => simp [h node hnode]

lemma routing_congr (hpolicies : store'.clusterPolicies = store.clusterPolicies)
    (hcatalog : store'.routingCatalog c = store.routingCatalog c) :
    store'.routing c = store.routing c := by
  rw [InMemoryStore.routing, hpolicies, hcatalog, InMemoryStore.routing]

section

variable (hepochs : store'.overlayRoutingEpochs = store.overlayRoutingEpochs)
    (hpolicies : store'.clusterPolicies = store.clusterPolicies)
include hepochs hpolicies

lemma quiet_of_eq (hnodes : store'.nodes = store.nodes) : Quiet store store' := by
  refine fun c => ⟨overlayRoutingEpoch_congr hepochs c, routing_congr hpolicies ?_⟩
  funext id
  rw [InMemoryStore.routingCatalog, hnodes, InMemoryStore.routingCatalog]

lemma quiet_of_node
    (hnodes : store'.nodes = store.nodes.insert nodeId node') (hnode : store.nodes[nodeId]? = some node)
    (hcluster : node'.clusterId = node.clusterId) (hentry : node'.catalogEntry = node.catalogEntry) :
    Quiet store store' := by
  refine fun c => ⟨overlayRoutingEpoch_congr hepochs c, routing_congr hpolicies ?_⟩
  rw [routingCatalog_insert hnodes, update_eq_self_iff, InMemoryStore.routingCatalog, hnode]
  simp only [Option.filter_some, hcluster]
  split_ifs
  · rw [Option.map_some, Option.map_some, hentry]
  · rfl

end

section

variable (hlt : store.overlayRoutingEpoch clusterId < store.overlayRoutingEpoch clusterId + 1)
include hlt

lemma bumped_of_advanced
    (hepochs : store'.overlayRoutingEpochs = (store.advanced clusterId).overlayRoutingEpochs)
    (hrouting : ∀ c ≠ clusterId, store'.routing c = store.routing c) :
    Bumped clusterId store store' := by
  refine ⟨?_, fun c hc => ?_, hrouting⟩
  · rw [overlayRoutingEpoch_insert hepochs, if_pos rfl]
    exact hlt
  · rw [overlayRoutingEpoch_insert hepochs, if_neg hc]

lemma bumped_of_policy {policy : ClusterPolicy} :
    Bumped clusterId store { store.advanced clusterId with
      clusterPolicies := store.clusterPolicies.insert clusterId policy } :=
  bumped_of_advanced hlt rfl fun _ hc => Prod.ext (getElem?_insert_ne (Ne.symm hc)) rfl

end

section

variable (hlt : store.overlayRoutingEpoch clusterId < store.overlayRoutingEpoch clusterId + 1)
    (hepochs : store'.overlayRoutingEpochs = (store.advanced clusterId).overlayRoutingEpochs)
    (hpolicies : store'.clusterPolicies = store.clusterPolicies)
include hlt hepochs hpolicies

lemma bumped_of_node (hnodes : store'.nodes = store.nodes.insert nodeId node')
    (hold : ∀ node, store.nodes[nodeId]? = some node → node.clusterId = clusterId)
    (hnew : node'.clusterId = clusterId) : Bumped clusterId store store' := by
  refine bumped_of_advanced hlt hepochs fun c hc => routing_congr hpolicies ?_
  have hnone : store.routingCatalog c nodeId = none :=
    routingCatalog_eq_none fun node hnode h => hc (h.symm.trans (hold node hnode))
  rw [routingCatalog_insert hnodes, update_eq_self_iff, hnone]
  simp [hnew, Ne.symm hc]

lemma bumped_of_erase (hnodes : store'.nodes = store.nodes.erase nodeId)
    (hold : ∀ node, store.nodes[nodeId]? = some node → node.clusterId = clusterId) :
    Bumped clusterId store store' := by
  refine bumped_of_advanced hlt hepochs fun c hc => routing_congr hpolicies ?_
  have hnone : store.routingCatalog c nodeId = none :=
    routingCatalog_eq_none fun node hnode h => hc (h.symm.trans (hold node hnode))
  funext id
  by_cases hid : id = nodeId
  · rw [hid, hnone, InMemoryStore.routingCatalog, hnodes, Std.TreeMap.getElem?_erase_self]
    rfl
  · rw [InMemoryStore.routingCatalog, hnodes, Std.TreeMap.getElem?_erase,
      if_neg fun heq => hid (Std.LawfulEqOrd.eq_of_compare heq).symm]
    rfl

end

/-! ## Peeling a method apart -/

variable {α β : Type} {cond : α → Prop}

lemma storeStep_map {cond' : β → Prop} (g : α → β) {x : StoreM Classification Snapshot α}
    (hcond : ∀ a, cond a → cond' (g a)) (h : StoreStep cond store (exec x store)) :
    StoreStep cond' store (exec (g <$> x) store) := by
  rw [exec_map]
  generalize exec x store = result at h ⊢
  cases h with
  | failed error => exact .failed error
  | quiet ha hquiet => exact .quiet (hcond _ ha) hquiet
  | bumped ha hbumped => exact .bumped (hcond _ ha) hbumped

lemma storeStep_check {x : Except ControlPlaneError β} {f : β → StoreM Classification Snapshot α}
    (h : ∀ b, x = .ok b → StoreStep cond store (exec (f b) store)) :
    StoreStep cond store (exec (check x >>= f) store) := by
  cases x with
  | error error => exact .failed error
  | ok b => exact h b rfl

lemma storeStep_getNodeMut {f : NodeRecord → StoreM Classification Snapshot α}
    (h : ∀ node, store.nodes[nodeId]? = some node → StoreStep cond store (exec (f node) store)) :
    StoreStep cond store (exec (getNodeMut nodeId >>= f) store) := by
  rw [getNodeMut, bind_assoc, exec_get_bind]
  cases hnode : store.nodes[nodeId]? with
  | none => exact .failed _
  | some node => exact h node hnode

variable {f : Unit → StoreM Classification Snapshot α}

lemma storeStep_advance
    (h : store.overlayRoutingEpoch clusterId < store.overlayRoutingEpoch clusterId + 1 →
      StoreStep cond store (exec (f ()) (store.advanced clusterId))) :
    StoreStep cond store (exec (advanceInMemoryOverlayRoutingEpoch clusterId >>= f) store) := by
  rw [advanceInMemoryOverlayRoutingEpoch, bind_assoc, exec_get_bind, bind_assoc]
  refine storeStep_check fun _ hroom => h ?_
  simp only [rejectIf_eq_ok, ge_iff_le, not_le] at hroom
  rw [UInt64.lt_iff_toNat_lt, UInt64.toNat_add]
  change _ < (_ + 1) % 2 ^ 64
  rw [Nat.mod_eq_of_lt hroom]
  exact Nat.lt_succ_self _

lemma storeStep_ensureClusterPolicy {expected : Option ClusterPolicy}
    (h : store.clusterPolicies[clusterId]? = expected → StoreStep cond store (exec (f ()) store)) :
    StoreStep cond store (exec (ensureClusterPolicy clusterId expected >>= f) store) := by
  rw [ensureClusterPolicy, bind_assoc, exec_get_bind]
  exact storeStep_check fun _ hpolicy => h (by simpa using hpolicy)

lemma storeStep_ensureRouteCatalog {env : StorePrimitives} {expected : Option UInt64}
    (h : (∀ digest, expected = some digest →
        overlayRouteCatalogEpoch env (store.catalog clusterId) = .ok digest) →
      StoreStep cond store (exec (f ()) store)) :
    StoreStep cond store (exec (ensureRouteCatalog env clusterId expected >>= f) store) := by
  rw [ensureRouteCatalog, bind_assoc, exec_get_bind]
  cases expected with
  | none => exact h fun _ hnone => by cases hnone
  | some expected =>
    simp only [bind_assoc]
    refine storeStep_check fun epoch hepoch => ?_
    refine storeStep_check fun _ heq => h ?_
    rintro digest ⟨⟩
    rw [hepoch, not_not.mp (rejectIf_eq_ok.mp heq)]

/-! ## Every method -/

def ConditionMet (env : StorePrimitives) (store : InMemoryStore Classification Snapshot)
    (clusterId : ClusterId) (policy : Option ClusterPolicy) (catalog : Option UInt64) : Prop :=
  store.clusterPolicies[clusterId]? = policy ∧
    ∀ digest, catalog = some digest →
      overlayRouteCatalogEpoch env (store.catalog clusterId) = .ok digest

variable {env : StorePrimitives} {policy : ClusterPolicy}

lemma storeStep_initializeClusterPolicyIfAbsent :
    StoreStep (fun _ => True) store (exec (initializeClusterPolicyIfAbsent clusterId policy) store) := by
  rw [initializeClusterPolicyIfAbsent, exec_get_bind]
  cases store.clusterPolicies[clusterId]? with
  | some stored => exact .quiet trivial (quiet_of_eq rfl rfl rfl)
  | none => exact storeStep_advance fun hlt => .bumped trivial (bumped_of_policy hlt)

lemma storeStep_upsertClusterPolicy :
    StoreStep (fun _ => True) store (exec (upsertClusterPolicy clusterId policy) store) := by
  rw [upsertClusterPolicy, exec_get_bind]
  split_ifs with hsame
  · exact .quiet trivial (quiet_of_eq rfl rfl rfl)
  · exact storeStep_advance fun hlt => .bumped trivial (bumped_of_policy hlt)

lemma storeStep_upsertClusterPolicyIfRouteCatalogEpoch {expected : UInt64} :
    StoreStep (fun flag => flag = true →
        overlayRouteCatalogEpoch env (store.catalog clusterId) = .ok expected) store
      (exec (upsertClusterPolicyIfRouteCatalogEpoch env clusterId policy expected) store) := by
  rw [upsertClusterPolicyIfRouteCatalogEpoch, exec_get_bind]
  refine storeStep_check fun epoch hepoch => ?_
  by_cases heq : epoch = expected
  · have hcond : overlayRouteCatalogEpoch env (store.catalog clusterId) = .ok expected := heq ▸ hepoch
    rw [if_neg (not_not.mpr heq)]
    split_ifs with hsame
    · exact .quiet (fun _ => hcond) (quiet_of_eq rfl rfl rfl)
    · exact storeStep_advance fun hlt => .bumped (fun _ => hcond) (bumped_of_policy hlt)
  · rw [if_pos heq]
    exact .quiet (fun hflag => by cases hflag) (quiet_of_eq rfl rfl rfl)

lemma storeStep_insertNode {cond : Unit → Prop} (hcond : cond ()) :
    StoreStep cond store (exec (insertNode node) store) := by
  rw [insertNode, exec_get_bind]
  refine storeStep_check fun _ habsent => ?_
  refine storeStep_advance fun hlt => .bumped hcond (bumped_of_node hlt rfl rfl rfl ?_ rfl)
  exact fun old hold => absurd (mem_of_getElem? hold) (rejectIf_eq_ok.mp habsent)

lemma storeStep_insertNodeIfClusterPolicy {policy : Option ClusterPolicy} {catalog : Option UInt64} :
    StoreStep (fun _ => ConditionMet env store node.clusterId policy catalog) store
      (exec (insertNodeIfClusterPolicy env node policy catalog) store) := by
  rw [insertNodeIfClusterPolicy]
  refine storeStep_ensureClusterPolicy fun hpolicy => ?_
  refine storeStep_ensureRouteCatalog fun hcatalog => ?_
  exact storeStep_insertNode ⟨hpolicy, hcatalog⟩

lemma storeStep_removeNode : StoreStep (fun _ => True) store (exec (removeNode nodeId) store) := by
  rw [removeNode]
  refine storeStep_getNodeMut fun node hnode => ?_
  refine storeStep_advance fun hlt => .bumped trivial (bumped_of_erase hlt rfl rfl rfl ?_)
  rintro old hold
  rw [Option.some.inj (hold.symm.trans hnode)]

lemma storeStep_setNode {f : NodeRecord → NodeRecord} {g : NodeRecord → α}
    (hcluster : ∀ node, (f node).clusterId = node.clusterId)
    (hentry : ∀ node, (f node).catalogEntry = node.catalogEntry) :
    StoreStep (fun _ => True) store (exec (do
      let node ← getNodeMut nodeId
      setNode nodeId (f node)
      pure (g node)) store) := by
  refine storeStep_getNodeMut fun node hnode => ?_
  exact .quiet trivial (quiet_of_node rfl rfl rfl hnode (hcluster node) (hentry node))

lemma storeStep_updateNodeCandidates {candidates : List EndpointCandidate} :
    StoreStep (fun _ => True) store (exec (updateNodeCandidates nodeId candidates) store) :=
  storeStep_setNode (f := fun node => { node with endpointCandidates := candidates })
    (fun _ => rfl) (fun _ => rfl)

lemma storeStep_updateNodeDisplayName {displayName : Option String} :
    StoreStep (fun _ => True) store (exec (updateNodeDisplayName nodeId displayName) store) :=
  storeStep_setNode (fun _ => rfl) (fun _ => rfl)

lemma storeStep_updateNodeRelayCapability {relayCapability : Option RelayCapability} :
    StoreStep (fun _ => True) store (exec (updateNodeRelayCapability nodeId relayCapability) store) :=
  storeStep_setNode (f := fun node => { node with relayCapability := relayCapability })
    (fun _ => rfl) (fun _ => rfl)

variable {routes : List Route}

lemma storeStep_replaceRoutes {cond : Unit → Prop} (hcond : cond ())
    (hnode : store.nodes[nodeId]? = some node) (hcluster : node.clusterId = clusterId) :
    StoreStep cond store (exec (replaceRoutes nodeId node clusterId routes) store) := by
  rw [replaceRoutes]
  split_ifs with hsame
  · exact .quiet hcond (quiet_of_eq rfl rfl rfl)
  · refine storeStep_advance fun hlt => .bumped hcond (bumped_of_node hlt rfl rfl rfl ?_ hcluster)
    exact fun old hold => (Option.some.inj (hold.symm.trans hnode)) ▸ hcluster

lemma storeStep_updateNodeRoutes :
    StoreStep (fun _ => True) store (exec (updateNodeRoutes nodeId routes) store) := by
  rw [updateNodeRoutes]
  exact storeStep_getNodeMut fun node hnode => storeStep_replaceRoutes trivial hnode rfl

lemma storeStep_updateNodeRoutesIfClusterPolicy {policy : Option ClusterPolicy}
    {catalog : Option UInt64} :
    StoreStep (fun _ => ConditionMet env store clusterId policy catalog) store
      (exec (updateNodeRoutesIfClusterPolicy env clusterId nodeId routes policy catalog) store) := by
  rw [updateNodeRoutesIfClusterPolicy]
  refine storeStep_ensureClusterPolicy fun hpolicy => ?_
  refine storeStep_ensureRouteCatalog fun hcatalog => ?_
  refine storeStep_getNodeMut fun node hnode => ?_
  refine storeStep_check fun _ hcluster => ?_
  exact storeStep_replaceRoutes ⟨hpolicy, hcatalog⟩ hnode (not_not.mp (rejectIf_eq_ok.mp hcluster))

lemma storeStep_rejoinNodeIfClusterPolicy {update : RejoinNodeStoreUpdate} :
    StoreStep (fun _ => ConditionMet env store update.clusterId update.expectedClusterPolicy
        update.expectedRouteCatalogEpoch) store
      (exec (rejoinNodeIfClusterPolicy env update) store) := by
  rw [rejoinNodeIfClusterPolicy]
  refine storeStep_ensureClusterPolicy fun hpolicy => ?_
  refine storeStep_ensureRouteCatalog fun hcatalog => ?_
  refine storeStep_getNodeMut fun node hnode => ?_
  refine storeStep_check fun _ hcluster => ?_
  refine storeStep_check fun _ hexpected => ?_
  have hcluster : node.clusterId = update.clusterId := not_not.mp (rejectIf_eq_ok.mp hcluster)
  by_cases hroutes : node.routes = update.routes
  · rw [if_neg (not_not.mpr hroutes)]
    refine .quiet ⟨hpolicy, hcatalog⟩ (quiet_of_node rfl rfl rfl hnode rfl ?_)
    simp only [NodeRecord.catalogEntry, hroutes]
  · rw [if_pos hroutes]
    refine storeStep_advance fun hlt => .bumped ⟨hpolicy, hcatalog⟩
      (bumped_of_node hlt rfl rfl rfl ?_ hcluster)
    exact fun old hold => (Option.some.inj (hold.symm.trans hnode)) ▸ hcluster

lemma storeStep_rotateNodeWireguardPublicKey {current next : String} :
    StoreStep (fun _ => True) store (exec (rotateNodeWireguardPublicKey nodeId current next) store) := by
  rw [rotateNodeWireguardPublicKey]
  refine storeStep_getNodeMut fun node hnode => ?_
  refine storeStep_check fun _ _ => ?_
  split_ifs with hsame
  · exact .quiet trivial (quiet_of_eq rfl rfl rfl)
  · refine storeStep_advance fun hlt => .bumped trivial (bumped_of_node hlt rfl rfl rfl ?_ rfl)
    exact fun old hold => (Option.some.inj (hold.symm.trans hnode)) ▸ rfl

lemma storeStep_applyHeartbeat {update : HeartbeatStoreUpdate Classification} :
    StoreStep (fun _ => ConditionMet env store update.clusterId update.expectedClusterPolicy
        update.expectedRouteCatalogEpoch) store (exec (applyHeartbeat env update) store) := by
  rw [applyHeartbeat]
  refine storeStep_ensureClusterPolicy fun hpolicy => ?_
  refine storeStep_ensureRouteCatalog fun hcatalog => ?_
  refine storeStep_getNodeMut fun node hnode => ?_
  refine storeStep_check fun _ hgeneration => ?_
  rw [exec_get_bind]
  refine storeStep_check fun _ _ => ?_
  have hcluster : node.clusterId = update.clusterId := by
    simp only [HeartbeatStoreUpdate.ensureMatchesNodeGeneration, bind_eq_ok, rejectIf_eq_ok, not_or,
      not_not] at hgeneration
    obtain ⟨_, ⟨_, h⟩, _⟩ := hgeneration
    exact h
  by_cases hroutes : update.routes.any fun routes => routes ≠ node.routes
  · rw [if_pos hroutes]
    refine storeStep_check fun _ _ => ?_
    refine storeStep_advance fun hlt => .bumped ⟨hpolicy, hcatalog⟩
      (bumped_of_node hlt rfl rfl rfl ?_ hcluster)
    exact fun old hold => (Option.some.inj (hold.symm.trans hnode)) ▸ hcluster
  · rw [if_neg hroutes]
    refine .quiet ⟨hpolicy, hcatalog⟩ (quiet_of_node rfl rfl rfl hnode rfl ?_)
    -- without a change, the routes of the update are those of the node
    have hsame : update.routes.getD node.routes = node.routes := by
      cases hupdate : update.routes with
      | none => rfl
      | some routes => simpa [hupdate] using hroutes
    simp only [NodeRecord.catalogEntry, HeartbeatStoreUpdate.applyTo, hsame]

end Steps

/-! ## Runs -/

section Conditions

def StoreOp.expectedPolicy : StoreOp Classification → Option (ClusterId × Option ClusterPolicy)
  | insertNodeIfClusterPolicy node policy _ => some (node.clusterId, policy)
  | updateNodeRoutesIfClusterPolicy clusterId _ _ policy _ => some (clusterId, policy)
  | rejoinNodeIfClusterPolicy update => some (update.clusterId, update.expectedClusterPolicy)
  | applyHeartbeat update => some (update.clusterId, update.expectedClusterPolicy)
  | _ => none

def StoreOp.expectedCatalog : StoreOp Classification → Option (ClusterId × UInt64)
  | upsertClusterPolicyIfRouteCatalogEpoch clusterId _ expected => some (clusterId, expected)
  | insertNodeIfClusterPolicy node _ catalog => catalog.map (node.clusterId, ·)
  | updateNodeRoutesIfClusterPolicy clusterId _ _ _ catalog => catalog.map (clusterId, ·)
  | rejoinNodeIfClusterPolicy update => update.expectedRouteCatalogEpoch.map (update.clusterId, ·)
  | applyHeartbeat update => update.expectedRouteCatalogEpoch.map (update.clusterId, ·)
  | _ => none

structure StoreOp.Expected (env : StorePrimitives) (store : InMemoryStore Classification Snapshot)
    (op : StoreOp Classification) : Prop where
  policy : ∀ clusterId policy, op.expectedPolicy = some (clusterId, policy) →
    store.clusterPolicies[clusterId]? = policy
  catalog : ∀ clusterId digest, op.expectedCatalog = some (clusterId, digest) →
    overlayRouteCatalogEpoch env (store.catalog clusterId) = .ok digest

variable {env : StorePrimitives} {store : InMemoryStore Classification Snapshot}
  {op : StoreOp Classification}

lemma expected_of_unconditional (hpolicy : op.expectedPolicy = none)
    (hcatalog : op.expectedCatalog = none) : op.Expected env store where
  policy _ _ h := by
    rw [hpolicy] at h
    cases h
  catalog _ _ h := by
    rw [hcatalog] at h
    cases h

lemma expected_of_conditionMet {clusterId : ClusterId} {policy : Option ClusterPolicy}
    {catalog : Option UInt64} (hpolicy : op.expectedPolicy = some (clusterId, policy))
    (hcatalog : op.expectedCatalog = catalog.map (clusterId, ·))
    (h : ConditionMet env store clusterId policy catalog) : op.Expected env store := by
  refine ⟨fun c p hp => ?_, fun c d hd => ?_⟩
  · obtain ⟨rfl, rfl⟩ := Prod.mk.inj (Option.some.inj (hpolicy.symm.trans hp))
    exact h.1
  · obtain ⟨digest, hdigest, heq⟩ := Option.map_eq_some_iff.mp (hcatalog.symm.trans hd)
    obtain ⟨rfl, rfl⟩ := Prod.mk.inj heq
    exact h.2 digest hdigest

variable (env : StorePrimitives)

/-- What one call does, whatever it is. -/
theorem storeStep_apply (store : InMemoryStore Classification Snapshot) (op : StoreOp Classification) :
    StoreStep (fun answer => answer ≠ .committed false → op.Expected env store) store
      (store.apply env op) := by
  have hquiet {a : StoreAnswer} {store' : InMemoryStore Classification Snapshot}
      (hop : op.Expected env store) (h : Quiet store store') :
      StoreStep (fun answer => answer ≠ .committed false → op.Expected env store) store
        (.ok a, store') := .quiet (fun _ => hop) h
  cases op with
  | initializeClusterPolicyIfAbsent clusterId policy =>
    exact storeStep_map _ (fun _ _ _ => expected_of_unconditional rfl rfl)
      storeStep_initializeClusterPolicyIfAbsent
  | upsertClusterPolicy clusterId policy =>
    exact storeStep_map _ (fun _ _ _ => expected_of_unconditional rfl rfl)
      storeStep_upsertClusterPolicy
  | upsertClusterPolicyIfRouteCatalogEpoch clusterId policy expected =>
    refine storeStep_map _ (fun flag hflag hanswer => ?_)
      storeStep_upsertClusterPolicyIfRouteCatalogEpoch
    refine ⟨?_, ?_⟩ <;> rintro _ _ ⟨⟩
    exact hflag ((Bool.not_eq_false _).mp fun h => hanswer (congrArg _ h))
  | insertNode node =>
    exact storeStep_map _ (fun _ _ _ => expected_of_unconditional rfl rfl)
      (storeStep_insertNode trivial : StoreStep (fun _ => True) _ _)
  | insertNodeIfClusterPolicy node policy catalog =>
    exact storeStep_map _ (fun _ h _ => expected_of_conditionMet rfl rfl h)
      storeStep_insertNodeIfClusterPolicy
  | removeNode nodeId =>
    exact storeStep_map _ (fun _ _ _ => expected_of_unconditional rfl rfl) storeStep_removeNode
  | updateNodeCandidates nodeId candidates =>
    exact storeStep_map _ (fun _ _ _ => expected_of_unconditional rfl rfl)
      storeStep_updateNodeCandidates
  | updateNodeDisplayName nodeId displayName =>
    exact storeStep_map _ (fun _ _ _ => expected_of_unconditional rfl rfl)
      storeStep_updateNodeDisplayName
  | updateNodeRelayCapability nodeId relayCapability =>
    exact storeStep_map _ (fun _ _ _ => expected_of_unconditional rfl rfl)
      storeStep_updateNodeRelayCapability
  | updateNodeRoutes nodeId routes =>
    exact storeStep_map _ (fun _ _ _ => expected_of_unconditional rfl rfl)
      storeStep_updateNodeRoutes
  | updateNodeRoutesIfClusterPolicy clusterId nodeId routes policy catalog =>
    exact storeStep_map _ (fun _ h _ => expected_of_conditionMet rfl rfl h)
      storeStep_updateNodeRoutesIfClusterPolicy
  | rejoinNodeIfClusterPolicy update =>
    exact storeStep_map _ (fun _ h _ => expected_of_conditionMet rfl rfl h)
      storeStep_rejoinNodeIfClusterPolicy
  | rotateNodeWireguardPublicKey nodeId current next =>
    exact storeStep_map _ (fun _ _ _ => expected_of_unconditional rfl rfl)
      storeStep_rotateNodeWireguardPublicKey
  | applyHeartbeat update =>
    exact storeStep_map _ (fun _ h _ => expected_of_conditionMet rfl rfl h)
      storeStep_applyHeartbeat
  | upsertHealth | upsertNatClassification | replaceNodePaths =>
    exact hquiet (expected_of_unconditional rfl rfl) (quiet_of_eq rfl rfl rfl)
  | upsertPath path => exact hquiet (expected_of_unconditional rfl rfl) (quiet_of_eq rfl rfl rfl)

/-- `store'` comes after `store`: its epoch is no smaller, and equal only if nothing has changed. -/
def Follows (clusterId : ClusterId) (store store' : InMemoryStore Classification Snapshot) : Prop :=
  store.overlayRoutingEpoch clusterId ≤ store'.overlayRoutingEpoch clusterId ∧
    (store.overlayRoutingEpoch clusterId = store'.overlayRoutingEpoch clusterId →
      store.routing clusterId = store'.routing clusterId)

lemma Follows.trans {clusterId : ClusterId} {a b c : InMemoryStore Classification Snapshot}
    (hab : Follows clusterId a b) (hbc : Follows clusterId b c) : Follows clusterId a c := by
  refine ⟨UInt64.le_trans hab.1 hbc.1, fun heq => ?_⟩
  have hmiddle : a.overlayRoutingEpoch clusterId = b.overlayRoutingEpoch clusterId :=
    UInt64.le_antisymm hab.1 (heq ▸ hbc.1)
  exact (hab.2 hmiddle).trans (hbc.2 (hmiddle.symm.trans heq))

lemma follows_apply (store : InMemoryStore Classification Snapshot) (op : StoreOp Classification)
    (clusterId : ClusterId) : Follows clusterId store (store.apply env op).2 := by
  have hstep := storeStep_apply env store op
  generalize store.apply env op = result at hstep ⊢
  cases hstep with
  | failed error => exact ⟨UInt64.le_refl _, fun _ => rfl⟩
  | quiet hcond h =>
    obtain ⟨hepoch, hrouting⟩ := h clusterId
    exact ⟨UInt64.le_of_eq hepoch.symm, fun _ => hrouting.symm⟩
  | @bumped a store' bumped hcond h =>
    by_cases hc : clusterId = bumped
    · subst hc
      exact ⟨UInt64.le_of_lt h.advances, fun heq => absurd heq (UInt64.ne_of_lt h.advances)⟩
    · exact ⟨UInt64.le_of_eq (h.epoch_other clusterId hc).symm,
        fun _ => (h.routing_other clusterId hc).symm⟩

lemma follows_run (ops : List (StoreOp Classification))
    (store : InMemoryStore Classification Snapshot) (clusterId : ClusterId) :
    Follows clusterId store (Runs.exec (InMemoryStore.apply env) store ops) := by
  induction ops generalizing store with
  | nil => exact ⟨UInt64.le_refl _, fun _ => rfl⟩
  | cons op ops ih => exact (follows_apply env store op clusterId).trans (ih _)

/-- In every run of the store: a cluster's routing epoch never decreases, and at two points with the same
epoch the policy and the routing catalog are the same; a conditional operation takes effect only if it finds
what it expects; and a failed operation changes nothing. -/
theorem routing_epoch_versions (env : StorePrimitives)
    (start : InMemoryStore Classification Snapshot) (ops : List (StoreOp Classification)) :
    let state := Runs.exec (InMemoryStore.apply env) start
    (∀ before between after clusterId, ops = before ++ between ++ after →
      (state before).overlayRoutingEpoch clusterId ≤
          (state (before ++ between)).overlayRoutingEpoch clusterId ∧
        ((state before).overlayRoutingEpoch clusterId =
            (state (before ++ between)).overlayRoutingEpoch clusterId →
          (state before).clusterPolicies[clusterId]? =
              (state (before ++ between)).clusterPolicies[clusterId]? ∧
            (state before).routingCatalog clusterId =
              (state (before ++ between)).routingCatalog clusterId)) ∧
    (∀ before op after answer, ops = before ++ op :: after →
      ((state before).apply env op).1 = .ok answer → answer ≠ .committed false →
      op.Expected env (state before)) ∧
    (∀ before op after error, ops = before ++ op :: after →
      ((state before).apply env op).1 = .error error →
      ((state before).apply env op).2 = state before) := by
  intro state
  refine ⟨?_, ?_, ?_⟩
  · intro before between after clusterId _
    have hfollows := follows_run env between (state before) clusterId
    rw [← Runs.exec_append] at hfollows
    exact ⟨hfollows.1, fun heq => Prod.mk.inj (hfollows.2 heq)⟩
  · intro before op after answer _ hok hanswer
    have hstep := storeStep_apply env (state before) op
    generalize (state before).apply env op = result at hstep hok
    cases hstep with
    | failed error => cases hok
    | quiet hcond h | bumped hcond h =>
      obtain rfl := Except.ok.inj hok
      exact hcond hanswer
  · intro before op after error _ herror
    have hstep := storeStep_apply env (state before) op
    generalize (state before).apply env op = result at hstep herror ⊢
    cases hstep with
    | failed error => rfl
    | quiet hcond h | bumped hcond h => cases herror

end Conditions

namespace SampleStore

def env : StorePrimitives where
  encodeCatalog entries := .ok (entries.flatMap fun entry => utf8 entry.nodeId.asStr)
  sha256 bytes := bytes ++ List.replicate 32 0
  displayTime _ := ""

def ops : List (StoreOp Unit) :=
  [.insertNodeIfClusterPolicy sampleNode none none, .updateNodeDisplayName ⟨"n"⟩ (some "gateway"),
    .insertNode sampleNode]

def state : List (StoreOp Unit) → InMemoryStore Unit Unit :=
  Runs.exec (InMemoryStore.apply env) (.empty Unit Unit)

theorem routing_epoch_versions_renamed :
    (state (ops.take 1)).overlayRoutingEpoch ⟨"lab"⟩ = 1 ∧
      (state (ops.take 1)).routingCatalog ⟨"lab"⟩ = (state (ops.take 2)).routingCatalog ⟨"lab"⟩ ∧
      ((state (ops.take 2)).apply env (.insertNode sampleNode)).1 = .error (.nodeAlreadyExists ⟨"n"⟩) ∧
      ((state (ops.take 2)).apply env (.insertNode sampleNode)).2 = state (ops.take 2) := by
  obtain ⟨hversions, -, hfailed⟩ := routing_epoch_versions env (.empty Unit Unit) ops
  have herror : ((state (ops.take 2)).apply env (.insertNode sampleNode)).1 =
      .error (.nodeAlreadyExists ⟨"n"⟩) := by decide +kernel
  refine ⟨by decide +kernel, ?_, herror, hfailed (ops.take 2) (.insertNode sampleNode) [] _ rfl herror⟩
  exact ((hversions (ops.take 1) [.updateNodeDisplayName ⟨"n"⟩ (some "gateway")] (ops.drop 2) ⟨"lab"⟩
    rfl).2 (by decide +kernel)).2

end SampleStore

end ControlPlane

end HeteroNetwork
