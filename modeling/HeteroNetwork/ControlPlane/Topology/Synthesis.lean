import HeteroNetwork.ControlPlane.Topology.Biconnected
import HeteroNetwork.ControlPlane.Topology.Inspection

/-!
# Synthesizing the backbone

`BoundedTopology::synthesize` puts the membership in order, builds the hierarchy, wires it, and
refuses to return a graph that fails one of its checks.
-/

namespace HeteroNetwork

open Std (TreeMap)

open Checked List Adjacency

/-- `canonical_node_ids`: sorted, and the first id that stands twice is an error. -/
def canonicalNodeIds (nodes : List NodeRecord) : Synthesis (List NodeId) :=
  let nodeIds := (nodes.map (·.nodeId)).insertionSort (· ≤ ·)
  match (nodeIds.zip nodeIds.tail).find? (fun adjacent => adjacent.1 = adjacent.2) with
  | some adjacent => reject (.duplicateNodeId adjacent.1)
  | none => .ok nodeIds

structure TopologyGroup where
  groupId : String
  nodeIds : List NodeId
  parentGroupId : Option String
  childGroupIds : List String
  depth : ℕ
  representatives : List TopologyRepresentative
deriving DecidableEq

def HierarchyGroup.intoGroup (group : HierarchyGroup) : TopologyGroup where
  groupId := group.blockId
  nodeIds := group.nodeIds
  parentGroupId := group.parentBlockId
  childGroupIds := group.childBlockIds
  depth := group.depth
  representatives := group.representatives

structure BoundedTopology where
  topologyEpoch : UInt64
  maxDegree : ℕ
  fanout : ℕ
  groups : List TopologyGroup
  edgePlacements : TreeMap TopologyEdge (Std.TreeSet TopologyEdgePlacement)
  adjacency : Adjacency
  invariants : TopologyInvariants
  diameterLowerBound : Option ℕ
  routingNodeIds : List NodeId
  routingNodeIndexes : TreeMap NodeId ℕ
  indexedAdjacency : List (List ℕ)

def routingIndexes (routingNodeIds : List NodeId) : TreeMap NodeId ℕ :=
  TreeMap.ofList routingNodeIds.zipIdx

def indexAdjacency (adjacency : Adjacency) (routingNodeIds : List NodeId)
    (routingNodeIndexes : TreeMap NodeId ℕ) : List (List ℕ) :=
  routingNodeIds.map fun nodeId =>
    (adjacency.neighbors nodeId).filterMap fun neighbor => routingNodeIndexes[neighbor]?

def synthesize (hashes : TopologyHashes) (nodes : List NodeRecord)
    (config : BoundedTopologyConfig) : Synthesis BoundedTopology := do
  Checked.rejectIf (config.maxDegree ∉ supportedMaxDegrees)
    (.returned (.unsupportedMaxDegree config.maxDegree))
  let minimumBlockSize := max minOverlayBlockSize minHierarchicalBlockSize
  let maximumBlockSize := maxOverlayBlockSize
  Checked.rejectIf (¬(minimumBlockSize ≤ config.blockSize ∧ config.blockSize ≤ maximumBlockSize))
    (.returned (.invalidBlockSize config.blockSize minimumBlockSize maximumBlockSize))
  let nodeIds ← canonicalNodeIds nodes
  let hierarchy ← buildHierarchy hashes config nodeIds
  let (hierarchy, layout) ← layOut hashes config nodeIds hierarchy
  let invariants := inspectInvariants layout.adjacency config.maxDegree
  Checked.rejectIf (invariants.connected = false)
    (.returned (.invariantViolation "graph is disconnected"))
  Checked.rejectIf (invariants.symmetric = false)
    (.returned (.invariantViolation "adjacency is asymmetric"))
  Checked.rejectIf (invariants.noSelfLoops = false)
    (.returned (.invariantViolation "graph contains a self-loop"))
  Checked.rejectIf (invariants.withinDegreeBound = false)
    (.returned (.invariantViolation "graph exceeds the configured maximum degree"))
  Checked.rejectIf (graphHasNoArticulationPoints layout.adjacency = false)
    (.returned (.invariantViolation "a single node failure disconnects the remaining graph"))
  .ok
    { topologyEpoch := hashes.topologyEpoch nodeIds
      maxDegree := config.maxDegree
      fanout := config.blockSize
      groups := hierarchy.map HierarchyGroup.intoGroup
      edgePlacements := layout.edgePlacements
      adjacency := layout.adjacency
      invariants
      diameterLowerBound := calculateDiameterLowerBound layout.adjacency
      routingNodeIds := nodeIds
      routingNodeIndexes := routingIndexes nodeIds
      indexedAdjacency := indexAdjacency layout.adjacency nodeIds (routingIndexes nodeIds) }

/-! ## The membership -/

section Membership

variable {nodes : List NodeRecord} {nodeIds : List NodeId}

def sortedNodeIds (nodes : List NodeRecord) : List NodeId :=
  (nodes.map (·.nodeId)).insertionSort (· ≤ ·)

lemma sortedNodeIds_perm (nodes : List NodeRecord) :
    (sortedNodeIds nodes).Perm (nodes.map (·.nodeId)) := perm_insertionSort _ _

lemma nodup_of_adjacent {l : List NodeId} (hsorted : l.Pairwise (· ≤ ·))
    (hadjacent : ∀ e ∈ l.zip l.tail, e.1 ≠ e.2) : l.Pairwise (· < ·) := by
  induction l with
  | nil => exact .nil
  | cons a l ih =>
    rw [pairwise_cons] at hsorted
    have htail : l.Pairwise (· < ·) := by
      refine ih hsorted.2 (fun e he => hadjacent e ?_)
      cases l with
      | nil => exact absurd he not_mem_nil
      | cons b l => exact mem_cons_of_mem _ he
    refine pairwise_cons.mpr ⟨fun b hb => ?_, htail⟩
    cases l with
    | nil => exact absurd hb not_mem_nil
    | cons c l =>
      have hac : a < c :=
        lt_of_le_of_ne (hsorted.1 c (by simp)) (hadjacent (a, c) mem_cons_self)
      rcases mem_cons.mp hb with rfl | hb
      · exact hac
      · exact hac.trans ((pairwise_cons.mp htail).1 b hb)

lemma canonicalNodeIds_eq_ok : canonicalNodeIds nodes = .ok nodeIds ↔
    nodeIds = sortedNodeIds nodes ∧ nodeIds.Pairwise (· < ·) := by
  have hsorted : (sortedNodeIds nodes).Pairwise (· ≤ ·) := pairwise_insertionSort _ _
  have hcanonical : canonicalNodeIds nodes =
      match ((sortedNodeIds nodes).zip (sortedNodeIds nodes).tail).find?
          (fun adjacent => adjacent.1 = adjacent.2) with
      | some adjacent => reject (.duplicateNodeId adjacent.1)
      | none => .ok (sortedNodeIds nodes) := rfl
  rw [hcanonical]
  cases hfind : ((sortedNodeIds nodes).zip (sortedNodeIds nodes).tail).find?
      (fun adjacent => adjacent.1 = adjacent.2) with
  | none =>
    have hlt : (sortedNodeIds nodes).Pairwise (· < ·) := by
      refine nodup_of_adjacent hsorted (fun e he => ?_)
      simpa using find?_eq_none.mp hfind e he
    constructor
    · rintro h
      obtain rfl := Except.ok.inj h
      exact ⟨rfl, hlt⟩
    · rintro ⟨rfl, -⟩
      rfl
  | some adjacent =>
    refine ⟨fun h => ?_, ?_⟩
    · cases h
    · rintro ⟨rfl, hlt⟩
      -- neighbours in a strictly sorted list differ
      have heq : adjacent.1 = adjacent.2 := by simpa using find?_some hfind
      obtain ⟨i, hi, hadjacent⟩ := mem_iff_getElem.mp (mem_of_find?_eq_some hfind)
      simp only [length_zip, length_tail, lt_min_iff] at hi
      rw [getElem_zip, getElem_tail] at hadjacent
      have := pairwise_iff_getElem.mp hlt i (i + 1) hi.1 (by omega) (Nat.lt_succ_self i)
      rw [← hadjacent] at heq
      exact absurd heq this.ne

lemma canonicalNodeIds_of_nodup (hnodup : (nodes.map (·.nodeId)).Nodup) :
    canonicalNodeIds nodes = .ok (sortedNodeIds nodes) := by
  refine canonicalNodeIds_eq_ok.mpr ⟨rfl, ?_⟩
  have hdistinct := (sortedNodeIds_perm nodes).nodup_iff.mpr hnodup
  have hsorted : (sortedNodeIds nodes).Pairwise (· ≤ ·) := pairwise_insertionSort _ _
  exact (hsorted.and (nodup_iff_pairwise_ne.mp hdistinct)).imp fun h => lt_of_le_of_ne h.1 h.2

end Membership

/-! ## What the checks guarantee -/

section Checks

variable {hashes : TopologyHashes} {config : BoundedTopologyConfig} {nodes : List NodeRecord}
  {nodeIds : List NodeId} {hierarchy groups : List HierarchyGroup} {layout : Layout}
  {t : BoundedTopology}

lemma Layout.mem_place {n : NodeId} (layout : Layout) (placement : TopologyEdgePlacement)
    (ends : NodeId × NodeId) : n ∈ (layout.place placement ends).adjacency ↔ n ∈ layout.adjacency :=
  mem_addUndirectedEdge

lemma mem_layOut (hnodup : nodeIds.Nodup)
    (h : layOut hashes config nodeIds hierarchy = .ok (groups, layout)) (n : NodeId) :
    n ∈ layout.adjacency ↔ n ∈ nodeIds := by
  have hstart : n ∈ (addLeafCycles hierarchy (emptyLayout nodeIds)).adjacency ↔ n ∈ nodeIds := by
    rw [addLeafCycles_adjacency, mem_addEdges, mem_emptyLayout hnodup]
  rw [layOut, allocateRepresentativesAndHierarchyEdges] at h
  obtain ⟨⟨withPorts, reserved⟩, -, h⟩ := bind_eq_ok.mp h
  obtain ⟨layout', hrings, h⟩ := bind_eq_ok.mp h
  obtain ⟨-, rfl⟩ := Prod.mk.inj (Except.ok.inj h)
  refine foldlM_invariant (fun layout => n ∈ layout.adjacency ↔ n ∈ nodeIds) ?_ hstart hrings
  intro parentId _ layout layout' hlayout hturn
  obtain ⟨parent, -, hring⟩ := bind_eq_ok.mp hturn
  refine foldlM_invariant (fun layout => n ∈ layout.adjacency ↔ n ∈ nodeIds) ?_ hlayout hring
  rintro ⟨sourceId, targetId⟩ _ layout layout' hlayout hturn
  simp only [bind_eq_ok] at hturn
  obtain ⟨_, -, _, -, source, -, target, -, hplace⟩ := hturn
  rw [← Except.ok.inj hplace, Layout.mem_place, hlayout]

structure Synthesized (nodes : List NodeRecord) (config : BoundedTopologyConfig)
    (t : BoundedTopology) : Prop where
  accepted : config.Accepted
  routingNodeIds : t.routingNodeIds = sortedNodeIds nodes
  sorted : t.routingNodeIds.Pairwise (· < ·)
  members : ∀ n, n ∈ t.adjacency ↔ n ∈ t.routingNodeIds
  undirected : t.adjacency.Undirected
  connected : ∀ a ∈ t.adjacency, ∀ b ∈ t.adjacency, t.adjacency.graph.Reachable a b
  survives : 3 ≤ nodes.length →
    ∀ z, (t.adjacency.graph.induce (t.adjacency.nodes \ {z})).Preconnected
  routingNodeIndexes : t.routingNodeIndexes = routingIndexes t.routingNodeIds
  indexedAdjacency :
    t.indexedAdjacency = indexAdjacency t.adjacency t.routingNodeIds t.routingNodeIndexes

lemma nodup_of_sorted {l : List NodeId} (h : l.Pairwise (· < ·)) : l.Nodup :=
  nodup_iff_pairwise_ne.mpr (h.imp fun hlt => hlt.ne)

lemma size_eq_length {adjacency : Adjacency} (hnodup : nodeIds.Nodup)
    (hkeys : ∀ n, n ∈ adjacency ↔ n ∈ nodeIds) : adjacency.size = nodeIds.length := by
  rw [← TreeMap.length_keys]
  refine ((perm_ext_iff_of_nodup (OrderedMap.nodup_keys adjacency) hnodup).mpr ?_).length_eq
  intro n
  rw [TreeMap.mem_keys, hkeys]

theorem synthesized (h : synthesize hashes nodes config = .ok t) : Synthesized nodes config t := by
  simp only [synthesize, bind_eq_ok, rejectIf_eq_ok, Bool.not_eq_false,
    not_not] at h
  obtain ⟨_, hdegree, _, hblock, nodeIds, hnodeIds, hierarchy, -, ⟨groups, layout⟩, hlayOut, _,
    hconnected, _, hsymmetric, _, hloopless, _, -, _, harticulation, ht⟩ := h
  obtain rfl := Except.ok.inj ht
  obtain ⟨rfl, hsorted⟩ := canonicalNodeIds_eq_ok.mp hnodeIds
  have hnodup := nodup_of_sorted hsorted
  have hmembers := mem_layOut hnodup hlayOut
  have hundirected : layout.adjacency.Undirected :=
    ⟨noSelfLoops_iff.mp hloopless, symmetric_iff.mp hsymmetric⟩
  refine { accepted := ⟨hdegree, hblock.1, hblock.2⟩, routingNodeIds := rfl, sorted := hsorted,
           members := hmembers, undirected := hundirected,
           connected := (graphIsConnected_iff hundirected).mp hconnected,
           survives := ?_, routingNodeIndexes := rfl, indexedAdjacency := rfl }
  intro hthree
  refine (graphHasNoArticulationPoints_iff hundirected ?_).mp harticulation
  rw [size_eq_length hnodup hmembers, (sortedNodeIds_perm nodes).length_eq, length_map]
  exact hthree

end Checks

/-! ## The checks never fail -/

namespace Block

variable {hashes : TopologyHashes} {config : BoundedTopologyConfig} {nodeIds : List NodeId}
  {nodes : List NodeRecord} {ports : Block → List TopologyRepresentative}

variable (hashes config nodeIds) in
def wiring (ports : Block → List TopologyRepresentative) : Adjacency :=
  (leafAdjacency hashes config nodeIds).addEdges (allRingEdges hashes config nodeIds ports)

lemma mem_wiring (hnodup : nodeIds.Nodup) {n : NodeId} :
    n ∈ wiring hashes config nodeIds ports ↔ n ∈ nodeIds := by
  rw [wiring, mem_addEdges, mem_leafAdjacency hnodup]

lemma undirected_wiring (hnodup : nodeIds.Nodup)
    (hchosen : ∀ b ∈ below hashes config (root nodeIds),
      Chosen hashes config (leafAdjacency hashes config nodeIds) ports b) :
    (wiring hashes config nodeIds ports).Undirected := by
  have hempty : ∀ a b, b ∉ (emptyLayout nodeIds).adjacency.neighbors a := by
    intro a b
    rw [neighbors_emptyLayout hnodup]
    exact not_mem_nil
  have hleaf : ∀ e ∈ leafEdges hashes config nodeIds, e.1 ∈ nodeIds ∧ e.2 ∈ nodeIds := by
    rintro ⟨n, m⟩ he
    obtain ⟨b, hb, -, hcycle⟩ := mem_leafEdges.mp he
    obtain ⟨hn, hm⟩ := mem_aroundTheRing (cycleEdges_subset hcycle)
    exact ⟨mem_root.mp (mem_of_mem_blocks hb hn), mem_root.mp (mem_of_mem_blocks hb hm)⟩
  have hring : ∀ e ∈ allRingEdges hashes config nodeIds ports, e.1 ∈ nodeIds ∧ e.2 ∈ nodeIds := by
    intro e he
    obtain ⟨b, hb, he⟩ := mem_flatMap.mp he
    obtain ⟨⟨c, d⟩, hcd, rfl⟩ := mem_map.mp he
    obtain ⟨hc, hd⟩ := mem_aroundTheRing hcd
    have hmember : ∀ c ∈ children hashes config b, ∀ n ∈ c.members, n ∈ nodeIds := by
      intro c hc n hn
      have hblock := blocks_trans (mem_blocks_of_mem_children hc)
        (mem_inOrder.mp (mem_of_mem_filter hb))
      exact mem_root.mp (mem_of_mem_blocks hblock hn)
    have hport : ∀ c ∈ children hashes config b,
        Chosen hashes config (leafAdjacency hashes config nodeIds) ports c := fun c hc =>
      hchosen c (below_of_mem_children hc (mem_inOrder.mp (mem_of_mem_filter hb)))
    exact ⟨hmember c hc _ (hport c hc).portFor_mem.2, hmember d hd _ (hport d hd).portFor_mem.1⟩
  constructor
  · intro a ha
    rw [wiring, leafAdjacency, mem_neighbors_addEdges,
      mem_neighbors_addEdges] at ha
    rcases ha with (ha | ⟨hne, -⟩) | ⟨hne, -⟩
    · exact hempty a a ha
    · exact hne rfl
    · exact hne rfl
  · refine symmetric_addEdges ?_ (symmetric_addEdges ?_ ?_)
    · intro e he
      rw [mem_leafAdjacency hnodup, mem_leafAdjacency hnodup]
      exact hring e he
    · intro e he
      rw [mem_emptyLayout hnodup, mem_emptyLayout hnodup]
      exact hleaf e he
    · exact fun a b hb => absurd hb (hempty a b)

lemma robust_wiring (hnodup : nodeIds.Nodup) (hne : nodeIds ≠ [])
    (hchosen : ∀ b ∈ below hashes config (root nodeIds),
      Chosen hashes config (leafAdjacency hashes config nodeIds) ports b) :
    BlockRing.Robust (wiring hashes config nodeIds ports).graph
      (wiring hashes config nodeIds ports).nodes := by
  have hnodes : (wiring hashes config nodeIds ports).nodes = (root nodeIds).carrier := by
    ext n
    rw [mem_nodes, mem_wiring hnodup]
    exact mem_root.symm
  have hroot : (root nodeIds).members ≠ [] := by
    obtain ⟨n, hn⟩ := exists_mem_of_ne_nil _ hne
    exact ne_nil_of_mem (mem_root.mpr hn)
  rw [hnodes]
  exact robust_block hnodup hchosen (self_mem_blocks _) hroot

structure Wired (config : BoundedTopologyConfig) (nodeIds : List NodeId) (adjacency : Adjacency) :
    Prop where
  members : ∀ n, n ∈ adjacency ↔ n ∈ nodeIds
  undirected : adjacency.Undirected
  degree : ∀ n, adjacency.degree n ≤ config.maxDegree
  robust : nodeIds ≠ [] → BlockRing.Robust adjacency.graph adjacency.nodes

lemma exists_wired {hierarchy : List HierarchyGroup} (haccepted : config.Accepted)
    (hnodup : nodeIds.Nodup) (hbuild : buildHierarchy hashes config nodeIds = .ok hierarchy)
    (hids : DistinctGroupIds hashes (groupPrefixes hashes config nodeIds)) :
    ∃ groups layout, layOut hashes config nodeIds hierarchy = .ok (groups, layout) ∧
      Wired config nodeIds layout.adjacency := by
  have hfour := accepted_four haccepted
  by_cases hne : nodeIds = []
  · subst hne
    obtain rfl : [] = hierarchy := Except.ok.inj hbuild
    have hempty : ∀ a b, b ∉ (emptyLayout []).adjacency.neighbors a := by
      intro a b
      rw [neighbors_emptyLayout nodup_nil]
      exact not_mem_nil
    refine ⟨[], emptyLayout [], rfl, fun n => mem_emptyLayout nodup_nil, ⟨?_, ?_⟩, ?_, ?_⟩
    · exact fun a => hempty a a
    · exact fun a b hb => absurd hb (hempty a b)
    · exact fun n => Nat.zero_le _
    · exact fun hne => absurd rfl hne
  · obtain ⟨rfl, -⟩ := buildHierarchy_eq_ok hne hbuild
    obtain ⟨ports, layout, hlayOut, hadjacency, hchosen, -⟩ := exists_layOut hfour hnodup hids
    have hwiring : layout.adjacency = wiring hashes config nodeIds ports := hadjacency
    refine ⟨_, layout, hlayOut, ?_⟩
    rw [hwiring]
    exact ⟨fun n => mem_wiring hnodup, undirected_wiring hnodup hchosen,
      degree_le hfour hnodup hchosen, fun hne => robust_wiring hnodup hne hchosen⟩

variable {adjacency : Adjacency}

lemma Wired.connected (h : Wired config nodeIds adjacency) :
    (inspectInvariants adjacency config.maxDegree).connected = true := by
  refine (graphIsConnected_iff h.undirected).mpr (fun a ha b hb => ?_)
  have hpre := (h.robust (ne_nil_of_mem ((h.members a).mp ha))).connected.preconnected
  exact (hpre ⟨a, ha⟩ ⟨b, hb⟩).map (SimpleGraph.Embedding.induce _).toHom

lemma Wired.noArticulationPoints (h : Wired config nodeIds adjacency) :
    graphHasNoArticulationPoints adjacency = true := by
  by_cases hsize : adjacency.size ≤ 2
  · rw [graphHasNoArticulationPoints, if_pos hsize]
  · obtain ⟨a, ha, -⟩ := exists_third (by omega : 3 ≤ adjacency.size) default default
    refine (graphHasNoArticulationPoints_iff h.undirected (by omega)).mpr ?_
    exact (h.robust (ne_nil_of_mem ((h.members a).mp ha))).survives

/-- None of the checks that `synthesize` makes on the wired graph fails. -/
theorem synthesize_of_wired {groups : List HierarchyGroup} {layout : Layout}
    {hierarchy : List HierarchyGroup} (haccepted : config.Accepted)
    (hcanonical : canonicalNodeIds nodes = .ok nodeIds)
    (hbuild : buildHierarchy hashes config nodeIds = .ok hierarchy)
    (hlayOut : layOut hashes config nodeIds hierarchy = .ok (groups, layout))
    (hwired : Wired config nodeIds layout.adjacency) : (synthesize hashes nodes config).isOk := by
  have hsymmetric : (inspectInvariants layout.adjacency config.maxDegree).symmetric = true :=
    symmetric_iff.mpr hwired.undirected.symmetric
  have hloopless : (inspectInvariants layout.adjacency config.maxDegree).noSelfLoops = true :=
    noSelfLoops_iff.mpr hwired.undirected.loopless
  have hdegree := withinDegreeBound_iff.mpr hwired.degree
  simp only [synthesize, rejectIf, haccepted.maxDegree, haccepted.minimum,
    haccepted.maximum, hcanonical, hbuild, hlayOut, hwired.connected, hsymmetric, hloopless,
    hdegree, hwired.noArticulationPoints, ok_bind, not_true_eq_false, and_self, if_false,
    Bool.true_eq_false]
  rfl

lemma canonicalNodeIds_failsWith (nodes : List NodeRecord) :
    FailsWith (fun e => ∀ reason, e ≠ .returned (.invariantViolation reason))
      (canonicalNodeIds nodes) := by
  intro e he reason
  rw [canonicalNodeIds] at he
  split at he
  · obtain rfl := Except.error.inj he
    simp
  · cases he

lemma buildHierarchy_failsWith (hashes : TopologyHashes) (config : BoundedTopologyConfig)
    (nodeIds : List NodeId) :
    FailsWith (· = SynthesisFailure.returned
        (.invariantViolation "hash-prefix hierarchy could not split an oversized leaf"))
      (buildHierarchy hashes config nodeIds) := by
  rw [buildHierarchy]
  split_ifs
  · exact failsWith_pure _
  · exact .bind (buildHierarchyGroup_failsWith _ _ _ _ _ _ _ _) fun _ _ => failsWith_pure _

lemma synthesize_failsWith
    (hids : DistinctGroupIds hashes (groupPrefixes hashes config (sortedNodeIds nodes))) :
    FailsWith
      (fun e => e ≠ .returned (.invariantViolation "graph is disconnected") ∧ e ≠ .returned
          (.invariantViolation "a single node failure disconnects the remaining graph"))
      (synthesize hashes nodes config) := by
  intro e he
  by_cases hdegree : config.maxDegree ∈ supportedMaxDegrees
  swap
  · simp only [synthesize, rejectIf, hdegree, not_false_eq_true, if_true,
      error_bind] at he
    obtain rfl := Except.error.inj he
    simp
  by_cases hblock : max minOverlayBlockSize minHierarchicalBlockSize ≤ config.blockSize ∧
      config.blockSize ≤ maxOverlayBlockSize
  swap
  · simp only [synthesize, rejectIf, hdegree, hblock, not_true_eq_false, not_false_eq_true,
      if_true, if_false, ok_bind, error_bind] at he
    obtain rfl := Except.error.inj he
    simp
  cases hcanonical : canonicalNodeIds nodes with
  | error e' =>
    simp only [synthesize, rejectIf, hdegree, hblock, hcanonical, not_true_eq_false,
      and_self, if_false, ok_bind, error_bind] at he
    obtain rfl := Except.error.inj he
    have herror := canonicalNodeIds_failsWith nodes _ hcanonical
    exact ⟨herror _, herror _⟩
  | ok nodeIds =>
    cases hbuild : buildHierarchy hashes config nodeIds with
    | error e' =>
      simp only [synthesize, rejectIf, hdegree, hblock, hcanonical, hbuild,
        not_true_eq_false, and_self, if_false, ok_bind, error_bind] at he
      obtain rfl := Except.error.inj he
      rw [buildHierarchy_failsWith hashes config nodeIds _ hbuild]
      simp
    | ok hierarchy =>
      -- from here on nothing can fail
      have haccepted : config.Accepted := ⟨hdegree, hblock.1, hblock.2⟩
      obtain ⟨rfl, hsorted⟩ := canonicalNodeIds_eq_ok.mp hcanonical
      obtain ⟨groups, layout, hlayOut, hwired⟩ :=
        exists_wired haccepted (nodup_of_sorted hsorted) hbuild hids
      have hok := synthesize_of_wired haccepted hcanonical hbuild hlayOut hwired
      rw [he] at hok
      cases hok

/-- **The backbone is 2-connected by construction.**  As long as the groups get distinct ids, the links laid
for three or more nodes connect them, also after any one is gone, and `synthesize` never reports the
contrary. -/
theorem synthesize_biconnected (hashes : TopologyHashes) (config : BoundedTopologyConfig)
    (nodes : List NodeRecord)
    (hids : DistinctGroupIds hashes (groupPrefixes hashes config (sortedNodeIds nodes))) :
    (∀ hierarchy, config.Accepted → (nodes.map (·.nodeId)).Nodup → 3 ≤ nodes.length →
      buildHierarchy hashes config (sortedNodeIds nodes) = .ok hierarchy →
      ∃ groups layout,
        allocateRepresentativesAndHierarchyEdges hashes config hierarchy
          (addLeafCycles hierarchy (emptyLayout (sortedNodeIds nodes))) = .ok (groups, layout) ∧
        (∀ n, n ∈ layout.adjacency ↔ n ∈ nodes.map (·.nodeId)) ∧
        layout.adjacency.Undirected ∧
        (layout.adjacency.graph.induce layout.adjacency.nodes).Connected ∧
        ∀ z, (layout.adjacency.graph.induce (layout.adjacency.nodes \ {z})).Connected) ∧
    synthesize hashes nodes config ≠
      reject (.invariantViolation "graph is disconnected") ∧
    synthesize hashes nodes config ≠
      reject (.invariantViolation "a single node failure disconnects the remaining graph") := by
  refine ⟨?_, ?_, ?_⟩
  · intro hierarchy haccepted hnodup hthree hbuild
    have hsorted := (sortedNodeIds_perm nodes).nodup_iff.mpr hnodup
    have hlength : (sortedNodeIds nodes).length = nodes.length := by
      rw [(sortedNodeIds_perm nodes).length_eq, List.length_map]
    obtain ⟨groups, layout, hlayOut, hwired⟩ := exists_wired haccepted hsorted hbuild hids
    have hne : sortedNodeIds nodes ≠ [] := by
      intro hnil
      rw [hnil, List.length_nil] at hlength
      omega
    have hrobust := hwired.robust hne
    have hsize : 3 ≤ layout.adjacency.size := by
      rw [size_eq_length hsorted hwired.members, hlength]
      exact hthree
    refine ⟨groups, layout, hlayOut, fun n => ?_, hwired.undirected, hrobust.connected, fun z => ?_⟩
    · rw [hwired.members, (sortedNodeIds_perm nodes).mem_iff]
    · obtain ⟨a, ha, haz, -⟩ := exists_third hsize z z
      exact { preconnected := hrobust.survives z, nonempty := ⟨⟨a, ha, haz⟩⟩ }
  · intro herror
    exact (synthesize_failsWith hids _ herror).1 rfl
  · intro herror
    exact (synthesize_failsWith hids _ herror).2 rfl

/-- **`synthesize` succeeds exactly on what the hierarchy can split**: neither the choice of representatives
nor any check on the finished graph ever turns a membership down. -/
theorem synthesize_accepts_exactly (hashes : TopologyHashes) (config : BoundedTopologyConfig)
    (nodes : List NodeRecord)
    (hids : DistinctGroupIds hashes (groupPrefixes hashes config (sortedNodeIds nodes))) :
    (synthesize hashes nodes config).isOk ↔ config.Accepted ∧ (nodes.map (·.nodeId)).Nodup ∧
      (buildHierarchy hashes config (sortedNodeIds nodes)).isOk := by
  constructor
  · intro hok
    cases h : synthesize hashes nodes config with
    | error e =>
      rw [h] at hok
      cases hok
    | ok t =>
      have hsyn := synthesized h
      refine ⟨hsyn.accepted, ?_, ?_⟩
      · rw [← (sortedNodeIds_perm nodes).nodup_iff, ← hsyn.routingNodeIds]
        exact nodup_of_sorted hsyn.sorted
      · simp only [synthesize, bind_eq_ok] at h
        obtain ⟨_, -, _, -, nodeIds, hnodeIds, hierarchy, hbuild, -⟩ := h
        rw [← (canonicalNodeIds_eq_ok.mp hnodeIds).1, hbuild]
        rfl
  · rintro ⟨haccepted, hnodup, hbuild⟩
    cases h : buildHierarchy hashes config (sortedNodeIds nodes) with
    | error e =>
      rw [h] at hbuild
      cases hbuild
    | ok hierarchy =>
      have hsorted := (sortedNodeIds_perm nodes).nodup_iff.mpr hnodup
      obtain ⟨groups, layout, hlayOut, hwired⟩ := exists_wired haccepted hsorted h hids
      exact synthesize_of_wired haccepted (canonicalNodeIds_of_nodup hnodup) h hlayOut hwired

end Block

namespace SampleHierarchy

def record (n : NodeId) : NodeRecord where
  nodeId := n
  clusterId := ⟨"cluster"⟩
  vpnIp := .v4 0
  endpointCandidates := 0
  routes := []

theorem synthesize_biconnected_sample :
    ∃ groups layout,
      allocateRepresentativesAndHierarchyEdges hashes config hierarchy
        (addLeafCycles hierarchy (emptyLayout (sortedNodeIds (nodeIds.map record)))) =
          .ok (groups, layout) ∧
      (∀ n, n ∈ layout.adjacency ↔ n ∈ (nodeIds.map record).map (·.nodeId)) ∧
      layout.adjacency.Undirected ∧
      (layout.adjacency.graph.induce layout.adjacency.nodes).Connected ∧
      ∀ z, (layout.adjacency.graph.induce (layout.adjacency.nodes \ {z})).Connected :=
  (Block.synthesize_biconnected hashes config (nodeIds.map record) (by decide +kernel)).1 hierarchy
    accepted (by decide) (by decide) (by decide +kernel)

theorem synthesize_accepts_exactly_sample : (synthesize hashes (nodeIds.map record) config).isOk :=
  (Block.synthesize_accepts_exactly hashes config (nodeIds.map record) (by decide +kernel)).mpr
    ⟨accepted, by decide, by decide +kernel⟩

end SampleHierarchy

end HeteroNetwork
