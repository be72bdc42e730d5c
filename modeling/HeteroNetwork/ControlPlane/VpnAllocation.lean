import HeteroNetwork.Lib.Exclusive
import HeteroNetwork.ControlPlane.Store

/-!
# Addresses of registered nodes

`insert_node_with_fresh_vpn_ip` chooses an address and then stores the node under it.  In between, and between
reading the stored nodes and locking the allocator, other registrations and removals run.  A registration is
a thread that takes one step from one lock to the next (`vpnStep`).
-/

namespace HeteroNetwork

open Std (TreeMap)

open Checked OrderedMap Function

namespace ControlPlane

/-! ## The allocator -/

def isHost (pool : Ipv4Net) : IpAddr → Bool
  | .v4 bits => pool.network < bits && bits < pool.broadcast
  | .v6 _ => false

structure VpnAllocator where
  pool : Ipv4Net
  nextHostOffset : ℕ

def VpnAllocator.new (pool : Ipv4Net) : VpnAllocator := ⟨pool, 1⟩

/-- The loop ends at the broadcast address, a `u32`, so a sum that saturates ends it as well. -/
def VpnAllocator.allocateNext (allocator : VpnAllocator) (reserved : Finset (BitVec 32)) :
    Except ControlPlaneError IpAddr × VpnAllocator :=
  if allocator.pool.network.toNat + allocator.nextHostOffset < allocator.pool.broadcast.toNat then
    let candidate := BitVec.ofNat 32 (allocator.pool.network.toNat + allocator.nextHostOffset)
    let advanced := { allocator with nextHostOffset := allocator.nextHostOffset + 1 }
    if candidate ∈ reserved then advanced.allocateNext reserved
    else (.ok (.v4 candidate), advanced)
  else (.error .vpnPoolExhausted, allocator)
termination_by allocator.pool.broadcast.toNat - allocator.nextHostOffset

def assignedIpv4VpnIps (nodes : List NodeRecord) : Finset (BitVec 32) :=
  (nodes.filterMap fun node =>
    match node.vpnIp with
    | .v4 ip => some ip
    | .v6 _ => none).toFinset

/-- The address that a sparse registration draws; `random` is the low half of a fresh UUID. -/
def drawSparse (pool : Ipv4Net) (random : UInt64) : Except ControlPlaneError IpAddr :=
  if pool.size ≤ 2 then .error .vpnPoolExhausted
  else .ok (.v4 (BitVec.ofNat 32 (pool.network.toNat + (1 + random.toNat % (pool.size - 2)))))

/-! ## A registration as a thread -/

structure RegisterNodeRequest where
  nodeId : NodeId
  identityPublicKey : String
  wireguardPublicKey : String
  candidates : List EndpointCandidate
  requestedRoutes : List Route
deriving DecidableEq

structure NodeRegistrationAllocation where
  registeredAt : Timestamp
  expectedClusterPolicy : Option ClusterPolicy
  expectedRouteCatalogEpoch : Option UInt64
  sparse : Bool
deriving DecidableEq

structure NodeRegistration where
  claims : JoinTokenClaims
  request : RegisterNodeRequest
  relayCapability : Option RelayCapability
  allocation : NodeRegistrationAllocation
deriving DecidableEq

def NodeRegistration.node (registration : NodeRegistration) (vpnIp : IpAddr) : NodeRecord where
  nodeId := registration.request.nodeId
  displayName := none
  hostname := none
  clusterId := registration.claims.clusterId
  vpnIp := vpnIp
  identityPublicKey := registration.request.identityPublicKey
  wireguardPublicKey := registration.request.wireguardPublicKey
  role := registration.claims.role
  tags := registration.claims.tags
  endpointCandidates := registration.request.candidates
  relayCapability := registration.relayCapability
  tokenPolicy := registration.claims.policy
  routes := registration.request.requestedRoutes
  registeredAt := registration.allocation.registeredAt

/-- Before an attempt, between `list_nodes` and the allocator's lock, between the address and
`insert_node_if_cluster_policy`, or returned. -/
inductive Phase where
  | attempting (attempts : ℕ)
  | listed (attempts : ℕ) (reserved : Finset (BitVec 32))
  | chosen (attempts : ℕ) (vpnIp : IpAddr)
  | returned (result : Except ControlPlaneError NodeRecord)
deriving DecidableEq

def Phase.vpnIp : Phase → Option IpAddr
  | chosen _ vpnIp => some vpnIp
  | _ => none

def Phase.ofChoice (attempts : ℕ) : Except ControlPlaneError IpAddr → Phase
  | .ok vpnIp => chosen attempts vpnIp
  | .error error => returned (.error error)

def Phase.ofInsertion (attempts : ℕ) (node : NodeRecord) : Except ControlPlaneError Unit → Phase
  | .ok _ => returned (.ok node)
  | .error (.vpnIpAlreadyAllocated _) => attempting attempts
  | .error error => returned (.error error)

/-! ## The control plane -/

/-- `pendingResets` counts the removals that have removed their node and not reset the allocator yet. -/
structure VpnState (Classification Snapshot : Type) where
  store : InMemoryStore Classification Snapshot
  allocator : VpnAllocator
  registrations : TreeMap ℕ (NodeRegistration × Phase)
  pendingResets : ℕ

def VpnState.start {Classification Snapshot : Type} (pool : Ipv4Net)
    (store : InMemoryStore Classification Snapshot) : VpnState Classification Snapshot :=
  ⟨store, .new pool, ∅, 0⟩

inductive VpnAction where
  /-- A registration is requested. -/
  | register (thread : ℕ) (registration : NodeRegistration)
  /-- A registration goes on to its next lock, with a UUID at hand if it draws one. -/
  | proceed (thread : ℕ) (random : UInt64)
  /-- `remove_client` or `remove_node` reaches the store. -/
  | removeNode (nodeId : NodeId)
  /-- A removal reaches the allocator. -/
  | resetAllocator
deriving DecidableEq

section Steps

variable {Classification Snapshot : Type} (env : StorePrimitives) (pool : Ipv4Net)

def NodeRegistration.draws (registration : NodeRegistration) (attempts : ℕ) : Bool :=
  registration.allocation.sparse && attempts ≤ 64

def VpnState.proceed (state : VpnState Classification Snapshot) (thread : ℕ)
    (registration : NodeRegistration) (random : UInt64) : Phase → VpnState Classification Snapshot
  | .attempting attempts =>
    let phase := if registration.draws (attempts + 1) then
        .ofChoice (attempts + 1) (drawSparse pool random)
      else .listed (attempts + 1) (assignedIpv4VpnIps state.store.nodes.values)
    { state with registrations := state.registrations.insert thread (registration, phase) }
  | .listed attempts reserved =>
    let (choice, allocator) := state.allocator.allocateNext reserved
    { state with
      allocator := allocator
      registrations :=
        state.registrations.insert thread (registration, .ofChoice attempts choice) }
  | .chosen attempts vpnIp =>
    let node := registration.node vpnIp
    let (result, store) := exec (insertNodeIfClusterPolicy env node
      registration.allocation.expectedClusterPolicy
      registration.allocation.expectedRouteCatalogEpoch) state.store
    { state with
      store := store
      registrations :=
        state.registrations.insert thread (registration, .ofInsertion attempts node result) }
  | .returned _ => state

/-- The store's part of a removal; it is over if the node is unknown. -/
def VpnState.removeNode (state : VpnState Classification Snapshot) (nodeId : NodeId) :
    VpnState Classification Snapshot :=
  match exec (ControlPlane.removeNode nodeId) state.store with
  | (.ok _, store) => { state with store := store, pendingResets := state.pendingResets + 1 }
  | (.error _, store) => { state with store := store }

def vpnStep (state : VpnState Classification Snapshot) :
    VpnAction → Unit × VpnState Classification Snapshot
  | .register thread registration =>
    ((), if thread ∈ state.registrations then state
      else { state with
        registrations := state.registrations.insert thread (registration, .attempting 0) })
  | .proceed thread random =>
    ((), match state.registrations[thread]? with
      | some (registration, phase) => state.proceed env pool thread registration random phase
      | none => state)
  | .removeNode nodeId => ((), state.removeNode nodeId)
  | .resetAllocator =>
    ((), if state.pendingResets = 0 then state
      else { state with allocator := .new pool, pendingResets := state.pendingResets - 1 })

end Steps

/-- A stored node holds its address, and so does a registration that has chosen one. -/
inductive Holder where
  | node (nodeId : NodeId)
  | registration (thread : ℕ)
deriving DecidableEq

namespace VpnState

variable {Classification Snapshot : Type} (state : VpnState Classification Snapshot)

def held : Holder → Option IpAddr
  | .node nodeId => state.store.nodes[nodeId]?.map NodeRecord.vpnIp
  | .registration thread => state.registrations[thread]?.bind fun e => e.2.vpnIp

def inUse : List IpAddr :=
  state.store.nodes.values.map NodeRecord.vpnIp ++
    state.registrations.values.filterMap fun e => e.2.vpnIp

/-- The allocator is past the address, the registration has seen it in the store, or an address that it has
not seen comes first. -/
def bypasses (pool : Ipv4Net) (reserved : Finset (BitVec 32)) : IpAddr → Bool
  | .v4 bits =>
    let cursor := pool.network.toNat + state.allocator.nextHostOffset
    bits.toNat < cursor || bits ∈ reserved ||
      (List.range' cursor (bits.toNat - cursor)).any fun host => BitVec.ofNat 32 host ∉ reserved
  | .v6 _ => true

/-- No registration takes an address that is in use: a sparse one does not draw it, and the allocator
does not run into it. -/
def uncontended (pool : Ipv4Net) : VpnAction → Bool
  | .proceed thread random =>
    match state.registrations[thread]? with
    | some (registration, .attempting attempts) => !registration.draws (attempts + 1) ||
        state.inUse.all fun ip => drawSparse pool random ≠ .ok ip
    | some (_, .listed _ reserved) => state.inUse.all (state.bypasses pool reserved)
    | _ => true
  | _ => true

end VpnState

/-! ## What is chosen -/

lemma isHost_ofNat {pool : Ipv4Net} {offset : ℕ} (hpos : 1 ≤ offset)
    (hlt : pool.network.toNat + offset < pool.broadcast.toNat) :
    isHost pool (.v4 (BitVec.ofNat 32 (pool.network.toNat + offset))) = true := by
  have hbits : (BitVec.ofNat 32 (pool.network.toNat + offset)).toNat = pool.network.toNat + offset := by
    rw [BitVec.toNat_ofNat, Nat.mod_eq_of_lt (hlt.trans pool.broadcast.isLt)]
  simp only [isHost, BitVec.lt_def, hbits, Bool.and_eq_true, decide_eq_true_eq]
  exact ⟨Nat.lt_add_of_pos_right hpos, hlt⟩

lemma isHost_drawSparse {pool : Ipv4Net} {random : UInt64} {ip : IpAddr}
    (h : drawSparse pool random = .ok ip) : isHost pool ip = true := by
  rw [drawSparse] at h
  split_ifs at h with hsize
  obtain rfl := Except.ok.inj h
  have hmod := Nat.mod_lt random.toNat (show 0 < pool.size - 2 by omega)
  refine isHost_ofNat (by omega) ?_
  rw [Cidr.Net.toNat_broadcast]
  omega

lemma allocateNext_eq_ok {allocator advanced : VpnAllocator} {reserved : Finset (BitVec 32)}
    {ip : IpAddr} (hpos : 1 ≤ allocator.nextHostOffset)
    (h : allocator.allocateNext reserved = (.ok ip, advanced)) :
    isHost allocator.pool ip = true ∧ ∃ bits, ip = .v4 bits ∧ bits ∉ reserved ∧
      allocator.pool.network.toNat + allocator.nextHostOffset ≤ bits.toNat ∧
      ∀ host, allocator.pool.network.toNat + allocator.nextHostOffset ≤ host → host < bits.toNat →
        BitVec.ofNat 32 host ∈ reserved := by
  fun_induction VpnAllocator.allocateNext allocator reserved with
  | case1 allocator hlt candidate next hmem ih =>
    obtain ⟨hhost, bits, hip, hreserved, hle, hskipped⟩ := ih (Nat.le_add_left 1 _) h
    refine ⟨hhost, bits, hip, hreserved, Nat.le_of_succ_le hle, fun host hfrom hto => ?_⟩
    rcases hfrom.eq_or_lt with heq | hlt'
    · exact heq ▸ hmem
    · exact hskipped host hlt' hto
  | case2 allocator hlt candidate next hmem =>
    obtain rfl := Except.ok.inj (Prod.ext_iff.mp h).1
    have hbits : candidate.toNat = allocator.pool.network.toNat + allocator.nextHostOffset := by
      rw [BitVec.toNat_ofNat, Nat.mod_eq_of_lt (hlt.trans allocator.pool.broadcast.isLt)]
    refine ⟨isHost_ofNat hpos hlt, candidate, rfl, hmem, hbits.ge, ?_⟩
    intro host hfrom hto
    omega
  | case3 allocator hlt => cases h

/-- The allocator keeps its pool, and its cursor never points to the network address. -/
structure VpnAllocator.Serves (allocator : VpnAllocator) (pool : Ipv4Net) : Prop where
  pool_eq : allocator.pool = pool
  offset_pos : 1 ≤ allocator.nextHostOffset

lemma VpnAllocator.serves_new (pool : Ipv4Net) : (VpnAllocator.new pool).Serves pool :=
  ⟨rfl, le_refl 1⟩

lemma VpnAllocator.Serves.allocateNext {allocator : VpnAllocator} {pool : Ipv4Net}
    (h : allocator.Serves pool) (reserved : Finset (BitVec 32)) :
    (allocator.allocateNext reserved).2.Serves pool := by
  fun_induction VpnAllocator.allocateNext allocator reserved with
  | case1 allocator hlt candidate next hmem ih => exact ih ⟨h.pool_eq, Nat.le_add_left 1 _⟩
  | case2 allocator hlt candidate next hmem => exact ⟨h.pool_eq, Nat.le_add_left 1 _⟩
  | case3 allocator hlt => exact h

/-! ## What the store does to its nodes -/

section Nodes

variable {Classification Snapshot : Type} (env : StorePrimitives) {nodes : TreeMap NodeId NodeRecord}

abbrev HasNodes (nodes : TreeMap NodeId NodeRecord)
    (store : InMemoryStore Classification Snapshot) : Prop := store.nodes = nodes

lemma triple_ensureClusterPolicy (clusterId : ClusterId) (policy : Option ClusterPolicy) :
    Triple (HasNodes nodes) (ensureClusterPolicy clusterId policy : StoreM Classification Snapshot Unit)
      (fun _ => HasNodes nodes) (fun _ => HasNodes nodes) := by
  exact Triple.read_bind fun store => Triple.check (fun _ _ _ h => h) fun _ _ _ h => h

lemma triple_ensureRouteCatalog (clusterId : ClusterId) (catalog : Option UInt64) :
    Triple (HasNodes nodes)
      (ensureRouteCatalog env clusterId catalog : StoreM Classification Snapshot Unit)
      (fun _ => HasNodes nodes) (fun _ => HasNodes nodes) := by
  refine Triple.read_bind fun store => ?_
  cases catalog with
  | none => exact Triple.pure fun _ h => h
  | some expected =>
    exact Triple.check_bind (fun epoch _ => Triple.check (fun _ _ _ h => h) fun _ _ _ h => h) fun _ _ _ h => h

lemma triple_advance (clusterId : ClusterId) :
    Triple (HasNodes nodes)
      (advanceInMemoryOverlayRoutingEpoch clusterId : StoreM Classification Snapshot Unit)
      (fun _ => HasNodes nodes) (fun _ => HasNodes nodes) := by
  exact Triple.read_bind fun store => Triple.check_bind (fun _ _ _ h => h) fun _ _ _ h => h

lemma triple_insertNode (node : NodeRecord) :
    Triple (HasNodes nodes) (insertNode node : StoreM Classification Snapshot Unit)
      (fun _ => HasNodes (nodes.insert node.nodeId node)) (fun _ => HasNodes nodes) := by
  refine Triple.read_bind fun store => Triple.check_bind (fun _ _ => ?_) fun _ _ _ h => h
  refine (triple_advance node.clusterId).bind fun _ => ?_
  rintro store rfl
  rfl

lemma triple_insertNodeIfClusterPolicy (node : NodeRecord) (policy : Option ClusterPolicy)
    (catalog : Option UInt64) :
    Triple (HasNodes nodes)
      (insertNodeIfClusterPolicy env node policy catalog : StoreM Classification Snapshot Unit)
      (fun _ => HasNodes (nodes.insert node.nodeId node)) (fun _ => HasNodes nodes) :=
  (triple_ensureClusterPolicy node.clusterId policy).bind fun _ =>
    (triple_ensureRouteCatalog env node.clusterId catalog).bind fun _ => triple_insertNode node

lemma triple_removeNode (nodeId : NodeId) :
    Triple (HasNodes nodes) (removeNode nodeId : StoreM Classification Snapshot RemovedNode)
      (fun _ => HasNodes (nodes.erase nodeId)) (fun _ => HasNodes nodes) := by
  have hget : Triple (HasNodes nodes) (getNodeMut nodeId : StoreM Classification Snapshot NodeRecord)
      (fun _ => HasNodes nodes) (fun _ => HasNodes nodes) := by
    intro store hstore
    rw [getNodeMut, exec_get_bind]
    cases store.nodes[nodeId]? with
    | none | some => exact hstore
  refine hget.bind fun node => (triple_advance node.clusterId).bind fun _ => ?_
  rintro store rfl
  rfl

end Nodes

/-! ## Steps -/

section Steps

variable {Classification Snapshot : Type} {env : StorePrimitives} {pool : Ipv4Net}
  {state : VpnState Classification Snapshot}

namespace VpnState

lemma mem_inUse {ip : IpAddr} : ip ∈ state.inUse ↔ ∃ holder, state.held holder = some ip := by
  rw [inUse, List.mem_append, List.mem_map, List.mem_filterMap]
  constructor
  · rintro (⟨node, hnode, rfl⟩ | ⟨e, he, hip⟩)
    · obtain ⟨nodeId, hget⟩ := mem_values.mp hnode
      exact ⟨.node nodeId, by rw [held, hget, Option.map_some]⟩
    · obtain ⟨thread, hget⟩ := mem_values.mp he
      exact ⟨.registration thread, by rw [held, hget, Option.bind_some, hip]⟩
  · rintro ⟨nodeId | thread, hheld⟩
    · obtain ⟨node, hget, hip⟩ := Option.map_eq_some_iff.mp hheld
      exact .inl ⟨node, mem_values.mpr ⟨nodeId, hget⟩, hip⟩
    · obtain ⟨e, hget, hip⟩ := Option.bind_eq_some_iff.mp hheld
      exact .inr ⟨e, mem_values.mpr ⟨thread, hget⟩, hip⟩

section

variable (state) {state' : VpnState Classification Snapshot}

lemma held_setPhase {thread : ℕ}
    {registration : NodeRegistration} {phase : Phase} (hnodes : state'.store.nodes = state.store.nodes)
    (hregistrations : state'.registrations = state.registrations.insert thread (registration, phase)) :
    state'.held = update state.held (.registration thread) phase.vpnIp := by
  refine eq_update_iff.mpr ⟨?_, fun holder hother => ?_⟩
  · rw [held, hregistrations, TreeMap.getElem?_insert_self]
    rfl
  · cases holder with
    | node nodeId => rw [held, hnodes, held]
    | registration => rw [held, hregistrations, getElem?_insert_ne fun h => hother (congrArg _ h.symm), held]

lemma held_insertNode {node : NodeRecord}
    (hnodes : state'.store.nodes = state.store.nodes.insert node.nodeId node)
    (hregistrations : state'.registrations = state.registrations) :
    state'.held = update state.held (.node node.nodeId) (some node.vpnIp) := by
  refine eq_update_iff.mpr ⟨?_, fun holder hother => ?_⟩
  · rw [held, hnodes, TreeMap.getElem?_insert_self]
    rfl
  · cases holder with
    | node nodeId => rw [held, hnodes, getElem?_insert_ne fun h => hother (congrArg _ h.symm), held]
    | registration => rw [held, hregistrations, held]

lemma held_eraseNode {nodeId : NodeId} (hnodes : state'.store.nodes = state.store.nodes.erase nodeId)
    (hregistrations : state'.registrations = state.registrations) :
    state'.held = update state.held (.node nodeId) none := by
  refine eq_update_iff.mpr ⟨?_, fun holder hother => ?_⟩
  · rw [held, hnodes, TreeMap.getElem?_erase_self]
    rfl
  · cases holder with
    | node nodeId' => rw [held, hnodes, getElem?_erase_ne fun h => hother (congrArg _ h.symm), held]
    | registration => rw [held, hregistrations, held]

lemma held_congr (hnodes : state'.store.nodes = state.store.nodes)
    (hregistrations : state'.registrations = state.registrations) : state'.held = state.held := by
  funext holder
  cases holder with
  | node nodeId => rw [held, hnodes, held]
  | registration thread => rw [held, hregistrations, held]

end

end VpnState

/-- What a step does to the addresses in use.  An address that is taken is a host address of the pool,
and free if the step is uncontended. -/
inductive HoldStep (pool : Ipv4Net) (state : VpnState Classification Snapshot) (action : VpnAction) :
    (Holder → Option IpAddr) → Prop
  | keep : HoldStep pool state action state.held
  | take {thread ip} (hhost : isHost pool ip = true)
      (hfree : state.uncontended pool action = true → ∀ holder, state.held holder ≠ some ip) :
      HoldStep pool state action (Function.update state.held (.registration thread) (some ip))
  | drop (holder : Holder) : HoldStep pool state action (Function.update state.held holder none)
  | move {thread nodeId ip} (hheld : state.held (.registration thread) = some ip) :
      HoldStep pool state action (Function.update (Function.update state.held (.registration thread)
        none) (.node nodeId) (some ip))

variable {action : VpnAction}

lemma HoldStep.of_eq {held held' : Holder → Option IpAddr} (h : held' = held)
    (hstep : HoldStep pool state action held) : HoldStep pool state action held' := by
  rwa [h]

lemma holdStep_choice {thread attempts : ℕ}
    {choice : Except ControlPlaneError IpAddr} (hhost : ∀ ip, choice = .ok ip → isHost pool ip = true)
    (hfree : ∀ ip, choice = .ok ip → state.uncontended pool action = true →
      ∀ holder, state.held holder ≠ some ip) :
    HoldStep pool state action (update state.held (.registration thread)
      (Phase.ofChoice attempts choice).vpnIp) := by
  cases choice with
  | ok ip => exact .take (hhost ip rfl) (hfree ip rfl)
  | error error => exact .drop _

section

variable (env) {registration : NodeRegistration} {thread attempts : ℕ} {random : UInt64}

lemma holdStep_attempting
    (hphase : state.registrations[thread]? = some (registration, .attempting attempts)) :
    HoldStep pool state (.proceed thread random)
      (state.proceed env pool thread registration random (.attempting attempts)).held := by
  refine .of_eq (state.held_setPhase rfl rfl) ?_
  split_ifs with hdraws
  · refine holdStep_choice (fun ip hip => isHost_drawSparse hip) fun ip hip hfree holder hheld => ?_
    simp only [VpnState.uncontended, hphase, hdraws, Bool.not_true, Bool.false_or, List.all_eq_true,
      decide_eq_true_eq] at hfree
    exact hfree ip (VpnState.mem_inUse.mpr ⟨holder, hheld⟩) hip
  · exact .drop _

lemma holdStep_listed (hserves : state.allocator.Serves pool) {reserved : Finset (BitVec 32)}
    (hphase : state.registrations[thread]? = some (registration, .listed attempts reserved)) :
    HoldStep pool state (.proceed thread random)
      (state.proceed env pool thread registration random (.listed attempts reserved)).held := by
  refine .of_eq (state.held_setPhase rfl rfl) ?_
  have hchoice : ∀ ip, (state.allocator.allocateNext reserved).1 = .ok ip →
      isHost pool ip = true ∧ state.bypasses pool reserved ip = false := by
    intro ip hip
    obtain ⟨rfl, hpos⟩ := hserves
    obtain ⟨hhost, bits, rfl, hreserved, hle, hskipped⟩ :=
      allocateNext_eq_ok hpos (Prod.ext hip rfl)
    refine ⟨hhost, ?_⟩
    simp only [VpnState.bypasses, Bool.or_eq_false_iff, decide_eq_false_iff_not, List.any_eq_false,
      List.mem_range'_1, decide_eq_true_eq, not_not]
    exact ⟨⟨not_lt.mpr hle, hreserved⟩, fun host hhost => hskipped host hhost.1 (by omega)⟩
  refine holdStep_choice (fun ip hip => (hchoice ip hip).1) fun ip hip hfree holder hheld => ?_
  simp only [VpnState.uncontended, hphase, List.all_eq_true] at hfree
  have hbypassed := hfree _ (VpnState.mem_inUse.mpr ⟨holder, hheld⟩)
  rw [(hchoice ip hip).2] at hbypassed
  cases hbypassed

lemma holdStep_chosen {vpnIp : IpAddr}
    (hphase : state.registrations[thread]? = some (registration, .chosen attempts vpnIp)) :
    HoldStep pool state (.proceed thread random)
      (state.proceed env pool thread registration random (.chosen attempts vpnIp)).held := by
  have hheld : state.held (.registration thread) = some vpnIp := by
    rw [VpnState.held, hphase]
    rfl
  have hinsert := triple_insertNodeIfClusterPolicy env (registration.node vpnIp)
    registration.allocation.expectedClusterPolicy registration.allocation.expectedRouteCatalogEpoch
    state.store rfl
  rw [VpnState.proceed]
  generalize exec _ state.store = result at hinsert ⊢
  obtain ⟨error | _, store⟩ := result
  · -- the registration fails or starts over, without an address
    refine .of_eq (state.held_setPhase hinsert rfl) ?_
    have hnone : (Phase.ofInsertion attempts (registration.node vpnIp) (.error error)).vpnIp = none := by
      cases error <;> rfl
    rw [hnone]
    exact .drop _
  · -- the address goes from the registration to the node
    let dropped : VpnState Classification Snapshot :=
      { state with
        registrations := state.registrations.insert thread
          (registration, .ofInsertion attempts (registration.node vpnIp) (.ok ())) }
    have hdropped : dropped.held = update state.held (.registration thread) none :=
      @VpnState.held_setPhase _ _ state dropped _ _ _ rfl rfl
    refine .of_eq (dropped.held_insertNode hinsert rfl) ?_
    rw [hdropped]
    exact .move hheld

theorem holdStep_vpnStep (hserves : state.allocator.Serves pool) (action : VpnAction) :
    HoldStep pool state action (vpnStep env pool state action).2.held := by
  cases action with
  | register thread registration =>
    rw [vpnStep]
    split_ifs
    · exact .keep
    · exact .of_eq (state.held_setPhase rfl rfl) (.drop _)
  | proceed thread random =>
    rw [vpnStep]
    cases hphase : state.registrations[thread]? with
    | none => exact .keep
    | some e =>
      obtain ⟨registration, attempts | ⟨attempts, reserved⟩ | ⟨attempts, vpnIp⟩ | result⟩ := e
      · exact holdStep_attempting env hphase
      · exact holdStep_listed env hserves hphase
      · exact holdStep_chosen env hphase
      · exact .keep
  | removeNode nodeId =>
    have hremove := triple_removeNode nodeId state.store rfl
    rw [vpnStep, VpnState.removeNode]
    generalize exec _ state.store = result at hremove ⊢
    obtain ⟨error | removed, store⟩ := result
    · exact .of_eq (state.held_congr hremove rfl) .keep
    · exact .of_eq (state.held_eraseNode hremove rfl) (.drop _)
  | resetAllocator =>
    rw [vpnStep]
    split_ifs
    · exact .keep
    · exact .of_eq (state.held_congr rfl rfl) .keep

end

lemma serves_vpnStep (hserves : state.allocator.Serves pool) (action : VpnAction) :
    (vpnStep env pool state action).2.allocator.Serves pool := by
  cases action with
  | register thread registration =>
    rw [vpnStep]
    split_ifs
    · exact hserves
    · exact hserves
  | proceed thread random =>
    rw [vpnStep]
    cases state.registrations[thread]? with
    | none => exact hserves
    | some e =>
      obtain ⟨registration, attempts | ⟨attempts, reserved⟩ | ⟨attempts, vpnIp⟩ | result⟩ := e
      · exact hserves
      · exact hserves.allocateNext reserved
      · exact hserves
      · exact hserves
  | removeNode nodeId =>
    rw [vpnStep, VpnState.removeNode]
    rcases exec (removeNode nodeId) state.store with ⟨error | removed, store⟩
    · exact hserves
    · exact hserves
  | resetAllocator =>
    rw [vpnStep]
    split_ifs
    · exact hserves
    · exact VpnAllocator.serves_new pool

/-! ## Runs -/

/-- What holds at every point: the allocator serves the pool, and addresses in use are host
addresses. -/
structure Placed (pool : Ipv4Net) (state : VpnState Classification Snapshot) : Prop where
  serves : state.allocator.Serves pool
  hosts : ∀ holder ip, state.held holder = some ip → isHost pool ip = true

lemma placed_vpnStep (h : Placed pool state) (action : VpnAction) :
    Placed pool (vpnStep env pool state action).2 := by
  refine ⟨serves_vpnStep h.serves action, ?_⟩
  have hupdate : ∀ {held : Holder → Option IpAddr} {holder o},
      (∀ holder ip, held holder = some ip → isHost pool ip = true) →
      (∀ ip, o = some ip → isHost pool ip = true) →
      ∀ holder' ip, update held holder o holder' = some ip → isHost pool ip = true := fun hheld ho =>
    (forall_update_iff _ fun _ o => ∀ ip, o = some ip → isHost pool ip = true).mpr
      ⟨ho, fun holder' _ => hheld holder'⟩
  have hstep := holdStep_vpnStep env h.serves action
  generalize (vpnStep env pool state action).2.held = held' at hstep ⊢
  cases hstep with
  | keep => exact h.hosts
  | take hhost _ => exact hupdate h.hosts fun _ hip => Option.some.inj hip ▸ hhost
  | drop holder => exact hupdate h.hosts nofun
  | move hheld => exact hupdate (hupdate h.hosts nofun) fun ip hip => h.hosts _ ip (hheld.trans hip)

lemma exclusive_vpnStep (hserves : state.allocator.Serves pool)
    (hfree : state.uncontended pool action = true) (h : Exclusive state.held) :
    Exclusive (vpnStep env pool state action).2.held := by
  have hstep := holdStep_vpnStep env hserves action
  generalize (vpnStep env pool state action).2.held = held' at hstep ⊢
  cases hstep with
  | keep => exact h
  | take _ hunheld => exact h.take (hunheld hfree)
  | drop holder => exact h.release holder
  | move hheld => exact h.move hheld

def DistinctAddresses (store : InMemoryStore Classification Snapshot) : Prop :=
  ∀ (id id' : NodeId) (node node' : NodeRecord), store.nodes[id]? = some node →
    store.nodes[id']? = some node' → node.vpnIp = node'.vpnIp → id = id'

lemma held_start {store : InMemoryStore Classification Snapshot} {holder : Holder} {ip : IpAddr}
    (h : (VpnState.start pool store).held holder = some ip) :
    ∃ id node, holder = .node id ∧ store.nodes[id]? = some node ∧ node.vpnIp = ip := by
  cases holder with
  | node id =>
    obtain ⟨node, hget, hip⟩ := Option.map_eq_some_iff.mp h
    exact ⟨id, node, rfl, hget, hip⟩
  | registration thread =>
    have hnone : (VpnState.start pool store).held (.registration thread) = none := by
      rw [VpnState.held, VpnState.start, TreeMap.getElem?_emptyc, Option.bind_none]
    rw [hnone] at h
    cases h

lemma distinctAddresses_of_exclusive (h : Exclusive state.held) : DistinctAddresses state.store := by
  intro id id' node node' hid hid' hip
  have hholder := @h (.node id) (.node id') node.vpnIp (by rw [VpnState.held, hid, Option.map_some])
    (by rw [VpnState.held, hid', Option.map_some, hip])
  exact Holder.node.inj hholder

/-- Every registration gives out host addresses of the pool, and stored nodes have different ones in every
run that takes no address in use. -/
theorem vpn_addresses_exclusive (env : StorePrimitives) (pool : Ipv4Net)
    (store : InMemoryStore Classification Snapshot)
    (hhosts : ∀ (id : NodeId) (node : NodeRecord), store.nodes[id]? = some node →
      isHost pool node.vpnIp = true)
    (hdistinct : DistinctAddresses store) (actions : List VpnAction) :
    (∀ before after, actions = before ++ after →
      ∀ ip ∈ (Runs.exec (vpnStep env pool) (.start pool store) before).inUse,
        isHost pool ip = true) ∧
    ((∀ before action after, actions = before ++ action :: after →
        (Runs.exec (vpnStep env pool) (.start pool store) before).uncontended pool action = true) →
      ∀ before after, actions = before ++ after →
        DistinctAddresses (Runs.exec (vpnStep env pool) (.start pool store) before).store) := by
  have hstart : Placed pool (VpnState.start pool store) := by
    refine ⟨VpnAllocator.serves_new pool, fun holder ip h => ?_⟩
    obtain ⟨id, node, -, hget, rfl⟩ := held_start h
    exact hhosts id node hget
  have hplaced : ∀ before, Placed pool (Runs.exec (vpnStep env pool) (.start pool store) before) :=
    fun before => Runs.exec_invariant (Placed pool) (fun action _ _ h => placed_vpnStep h action) hstart
  constructor
  · rintro before after - ip hip
    obtain ⟨holder, hheld⟩ := VpnState.mem_inUse.mp hip
    exact (hplaced before).hosts holder ip hheld
  · intro hfree before after hactions
    apply distinctAddresses_of_exclusive
    -- by induction on the steps taken, each of which meets the condition
    induction before using List.reverseRecOn generalizing after with
    | nil =>
      intro holder holder' ip h h'
      obtain ⟨id, node, rfl, hget, rfl⟩ := held_start h
      obtain ⟨id', node', rfl, hget', hip⟩ := held_start h'
      rw [hdistinct id id' node node' hget hget' hip.symm]
    | append_singleton before action ih =>
      rw [List.append_assoc, List.singleton_append] at hactions
      rw [Runs.exec_append]
      exact exclusive_vpnStep (hplaced before).serves (hfree before action after hactions)
        (ih _ hactions)

end Steps

namespace SampleVpn

def env : StorePrimitives := ⟨fun _ => .ok [], fun _ => [], fun _ => ""⟩

def pool : Ipv4Net := ⟨0x0a000000#32, 29⟩

def registration (name : String) (sparse : Bool) : NodeRegistration where
  claims := ⟨⟨"lab"⟩, [], 10, 0, ⟨"node"⟩, ∅, ⟨"issuer"⟩, ⟨"key"⟩, ⟨true, true, [], ∅, none⟩, "nonce"⟩
  request := ⟨⟨name⟩, "identity", "wireguard", [], []⟩
  relayCapability := none
  allocation := ⟨0, none, none, sparse⟩

def state (actions : List VpnAction) : VpnState Unit Unit :=
  Runs.exec (vpnStep env pool) (.start pool (.empty Unit Unit)) actions

def registered (thread : ℕ) (name : String) (sparse : Bool) (random : UInt64) : List VpnAction :=
  .register thread (registration name sparse) ::
    List.replicate (if sparse then 2 else 3) (.proceed thread random)

/-- Two sparse registrations draw the same address. -/
def sameDraw : List VpnAction := registered 0 "a" true 0 ++ registered 1 "b" true 0

/-- A removal resets the allocator while a registration holds the second address without having stored
its node. -/
def resetCursor : List VpnAction :=
  registered 0 "a" false 0 ++
    [.register 1 (registration "b" false), .proceed 1 0, .proceed 1 0, .removeNode ⟨"a"⟩,
      .resetAllocator] ++
    registered 2 "c" false 0 ++ registered 3 "d" false 0 ++ [.proceed 1 0]

/-- The in-memory store takes a second node with the same address. -/
theorem addresses_shared :
    ¬DistinctAddresses (state sameDraw).store ∧ ¬DistinctAddresses (state resetCursor).store := by
  constructor
  · intro h
    have hsame := h ⟨"a"⟩ ⟨"b"⟩ ((registration "a" true).node (.v4 0x0a000001#32))
      ((registration "b" true).node (.v4 0x0a000001#32)) (by decide +kernel) (by decide +kernel) rfl
    exact absurd hsame (by decide)
  · intro h
    have hsame := h ⟨"b"⟩ ⟨"d"⟩ ((registration "b" false).node (.v4 0x0a000002#32))
      ((registration "d" false).node (.v4 0x0a000002#32)) (by decide +kernel) (by decide +kernel) rfl
    exact absurd hsame (by decide)

def actions : List VpnAction :=
  [.register 0 (registration "a" true), .register 1 (registration "b" false), .proceed 0 4,
    .proceed 1 0, .proceed 1 0, .proceed 0 0, .proceed 1 0, .removeNode ⟨"a"⟩, .resetAllocator] ++
    registered 2 "c" false 0

theorem vpn_addresses_exclusive_interleaved :
    (∀ ip ∈ (state actions).inUse, isHost pool ip = true) ∧ DistinctAddresses (state actions).store ∧
    (state actions).store.nodes.values.map NodeRecord.vpnIp =
      [.v4 0x0a000001#32, .v4 0x0a000002#32] := by
  have hempty : ∀ (id : NodeId) (node : NodeRecord),
      (InMemoryStore.empty Unit Unit).nodes[id]? = some node → False := by
    intro id node h
    rw [InMemoryStore.empty, TreeMap.getElem?_emptyc] at h
    cases h
  obtain ⟨hhosts, hdistinct⟩ := vpn_addresses_exclusive env pool (.empty Unit Unit)
    (fun id node h => (hempty id node h).elim) (fun id _ node _ h => (hempty id node h).elim) actions
  exact ⟨hhosts actions [] (by simp), hdistinct (Runs.forall_step (by decide +kernel)) actions [] (by simp),
    by decide +kernel⟩

end SampleVpn

end ControlPlane

end HeteroNetwork
