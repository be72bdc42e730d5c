import HeteroNetwork.ControlPlane.Topology.Hierarchy

/-!
# Links of the backbone

Every leaf group is wired as a cycle.  Then every group but the root selects two representatives, deepest
groups first, among the nodes that still have a free link; and every parent joins its children in a ring.
-/

namespace HeteroNetwork

open Std (TreeMap TreeSet)

/-! ## Edges -/

structure TopologyEdge where
  first : NodeId
  second : NodeId
deriving DecidableEq

namespace TopologyEdge

def toTuple (edge : TopologyEdge) : NodeId ×ₗ NodeId := toLex (edge.first, edge.second)

/-- The derived order compares the fields in turn. -/
instance : LinearOrder TopologyEdge :=
  LinearOrder.lift' toTuple (by
    rintro ⟨a, b⟩ ⟨c, d⟩ h
    simpa [toTuple] using h)

instance : Std.LawfulEqOrd TopologyEdge := ⟨compare_eq_iff_eq.mp⟩

/-- An undirected edge names its smaller end first; there are no loops. -/
def new (first second : NodeId) : Option TopologyEdge :=
  if first = second then none
  else if first < second then some ⟨first, second⟩
  else some ⟨second, first⟩

end TopologyEdge

inductive TopologyEdgeKind where
  | leafCycle
  | hierarchyLink
deriving DecidableEq

def TopologyEdgeKind.index : TopologyEdgeKind → ℕ
  | leafCycle => 0
  | hierarchyLink => 1

structure TopologyEdgePlacement where
  level : ℕ
  plane : ℕ
  kind : TopologyEdgeKind
  groupId : String
deriving DecidableEq

namespace TopologyEdgePlacement

def toTuple (p : TopologyEdgePlacement) : ℕ ×ₗ ℕ ×ₗ ℕ ×ₗ String :=
  toLex (p.level, toLex (p.plane, toLex (p.kind.index, p.groupId)))

instance : LinearOrder TopologyEdgePlacement :=
  LinearOrder.lift' toTuple (by
    rintro ⟨l, p, k, g⟩ ⟨l', p', k', g'⟩ h
    simp only [toTuple, EmbeddingLike.apply_eq_iff_eq, Prod.mk.injEq] at h
    obtain ⟨rfl, rfl, hkind, rfl⟩ := h
    cases k <;> cases k' <;> first | rfl | simp [TopologyEdgeKind.index] at hkind)

end TopologyEdgePlacement

abbrev Adjacency := TreeMap NodeId (TreeSet NodeId)

def insertNeighbor (adjacency : Adjacency) (node neighbor : NodeId) : Adjacency :=
  adjacency.modify node (·.insert neighbor)

def addUndirectedEdge (adjacency : Adjacency) (first second : NodeId) : Adjacency :=
  if first = second then adjacency
  else insertNeighbor (insertNeighbor adjacency first second) second first

structure Layout where
  adjacency : Adjacency
  edgePlacements : TreeMap TopologyEdge (TreeSet TopologyEdgePlacement)

def Layout.place (layout : Layout) (placement : TopologyEdgePlacement) (ends : NodeId × NodeId) :
    Layout where
  adjacency := addUndirectedEdge layout.adjacency ends.1 ends.2
  edgePlacements :=
    match TopologyEdge.new ends.1 ends.2 with
    | some edge =>
      layout.edgePlacements.insert edge ((layout.edgePlacements.getD edge ∅).insert placement)
    | none => layout.edgePlacements

/-- Each entry of a list with the next one, `list[index]` and `list[(index + 1) % list.len()]`. -/
def aroundTheRing {α : Type} (list : List α) : List (α × α) := list.zip (list.rotate 1)

/-- The edges of `add_placed_cycle`: a pair of nodes gets one edge and not two. -/
def cycleEdges (cycle : List NodeId) : List (NodeId × NodeId) :=
  if cycle.length < 2 then []
  else (aroundTheRing cycle).take (if cycle.length = 2 then 1 else cycle.length)

def addPlacedCycle (layout : Layout) (cycle : List NodeId) (placement : TopologyEdgePlacement) :
    Layout :=
  (cycleEdges cycle).foldl (fun layout ends => layout.place placement ends) layout

def addLeafCycles (hierarchy : List HierarchyGroup) (layout : Layout) : Layout :=
  (hierarchy.filter (·.childBlockIds.isEmpty)).foldl
    (fun layout group =>
      addPlacedCycle layout group.nodeIds
        { level := group.depth, plane := 0, kind := .leafCycle, groupId := group.blockId })
    layout

/-! ## Representatives -/

def Adjacency.degree (adjacency : Adjacency) (nodeId : NodeId) : ℕ :=
  (adjacency[nodeId]?.map TreeSet.size).getD 0

abbrev ReservedDegrees := TreeMap NodeId ℕ

def representativeLoad (adjacency : Adjacency) (reserved : ReservedDegrees) (nodeId : NodeId) : ℕ :=
  adjacency.degree nodeId + reserved.getD nodeId 0

/-- `max_by_key`: of several maxima the last one. -/
def maxByKey {α β : Type} [LE β] [DecidableLE β] (key : α → β) : List α → Option α
  | [] => none
  | a :: rest => some (rest.foldl (fun best b => if key best ≤ key b then b else best) a)

/-- The two filters of the loop over the planes. -/
def admissible (config : BoundedTopologyConfig) (candidates : List NodeId) (roleDegree : ℕ)
    (load : NodeId → ℕ) (selected : List TopologyRepresentative) : List NodeId :=
  candidates.filter fun nodeId =>
    (!selected.any (·.nodeId = nodeId)) && load nodeId + roleDegree ≤ config.maxDegree

def scoreThenId (hashes : TopologyHashes) (groupId : String) (plane : ℕ) (nodeId : NodeId) :
    ℕ ×ₗ NodeId :=
  toLex ((hashes.representativeScore groupId plane nodeId).toNat, nodeId)

def selectForPlane (hashes : TopologyHashes) (config : BoundedTopologyConfig) (groupId : String)
    (candidates : List NodeId) (roleDegree : ℕ) (load : NodeId → ℕ)
    (selected : List TopologyRepresentative) (plane : ℕ) : Synthesis (List TopologyRepresentative) :=
  match maxByKey (scoreThenId hashes groupId plane)
      (admissible config candidates roleDegree load selected) with
  | some nodeId => .ok (selected ++ [⟨nodeId, plane⟩])
  | none => reject (.representativeCapacity groupId)

/-- `select_group_representatives`, where `load` is the degree of a node plus what it has promised
already. -/
def selectGroupRepresentatives (hashes : TopologyHashes) (config : BoundedTopologyConfig)
    (groupId : String) (candidates : List NodeId) (roleDegree : ℕ) (load : NodeId → ℕ) :
    Synthesis (List TopologyRepresentative) :=
  match candidates with
  | [nodeId] =>
    if load nodeId + 2 * roleDegree > config.maxDegree then
      reject (.representativeCapacity groupId)
    else .ok [⟨nodeId, 0⟩, ⟨nodeId, 1⟩]
  | _ =>
    [0, 1].foldlM (selectForPlane hashes config groupId candidates roleDegree load) []

def deepestFirst (left right : HierarchyGroup × ℕ) : Prop :=
  right.1.depth < left.1.depth ∨
    right.1.depth = left.1.depth ∧ left.1.blockId ≤ right.1.blockId

instance : DecidableRel deepestFirst := fun left right => by
  unfold deepestFirst
  infer_instance

def groupOrder (hierarchy : List HierarchyGroup) : List ℕ :=
  ((hierarchy.zipIdx.filter (·.1.parentBlockId.isSome)).insertionSort deepestFirst).map (·.2)

def reserve (roleDegree : ℕ) (reserved : ReservedDegrees) (representative : TopologyRepresentative) :
    ReservedDegrees :=
  reserved.insert representative.nodeId (reserved.getD representative.nodeId 0 + roleDegree)

def allocateGroup (hashes : TopologyHashes) (config : BoundedTopologyConfig)
    (adjacency : Adjacency) (state : List HierarchyGroup × ReservedDegrees) (groupIndex : ℕ) :
    Synthesis (List HierarchyGroup × ReservedDegrees) := do
  let group ← expect state.1[groupIndex]?
  let roleDegree := 1
  let representatives ← selectGroupRepresentatives hashes config group.blockId group.nodeIds
    roleDegree (representativeLoad adjacency state.2)
  .ok (state.1.set groupIndex { group with representatives },
    representatives.foldl (reserve roleDegree) state.2)

def representativeForPlane (group : HierarchyGroup) (plane : ℕ) : Synthesis NodeId :=
  match group.representatives.find? (·.plane = plane) with
  | some representative => .ok representative.nodeId
  | none => reject (.representativeCapacity group.blockId)

def indexById (hierarchy : List HierarchyGroup) : TreeMap String ℕ :=
  TreeMap.ofList (hierarchy.zipIdx.map fun (group, i) => (group.blockId, i))

def groupById (hierarchy : List HierarchyGroup) (index : TreeMap String ℕ) (id : String) :
    Synthesis HierarchyGroup := do
  let i ← expect index[id]?
  expect hierarchy[i]?

def addHierarchyBlockRing (hierarchy : List HierarchyGroup) (index : TreeMap String ℕ)
    (childIds : List String) (placement : TopologyEdgePlacement) (layout : Layout) :
    Synthesis Layout :=
  (aroundTheRing childIds).foldlM
    (fun layout (sourceId, targetId) => do
      let sourceChild ← groupById hierarchy index sourceId
      let targetChild ← groupById hierarchy index targetId
      let source ← representativeForPlane sourceChild 1
      let target ← representativeForPlane targetChild 0
      .ok (layout.place placement (source, target)))
    layout

/-- `allocate_representatives_and_hierarchy_edges`.  The ids are indexed before any representative
is set, which makes no difference: indices do not move. -/
def allocateRepresentativesAndHierarchyEdges (hashes : TopologyHashes)
    (config : BoundedTopologyConfig) (hierarchy : List HierarchyGroup) (layout : Layout) :
    Synthesis (List HierarchyGroup × Layout) := do
  let index := indexById hierarchy
  let (hierarchy, _) ←
    (groupOrder hierarchy).foldlM (allocateGroup hashes config layout.adjacency) (hierarchy, ∅)
  let parentIds := (hierarchy.filter (2 ≤ ·.childBlockIds.length)).map (·.blockId)
  let layout ← parentIds.foldlM
    (fun layout parentId => do
      let parent ← groupById hierarchy index parentId
      addHierarchyBlockRing hierarchy index parent.childBlockIds
        { level := parent.depth, plane := 0, kind := .hierarchyLink, groupId := parentId } layout)
    layout
  .ok (hierarchy, layout)

def emptyLayout (nodeIds : List NodeId) : Layout where
  adjacency := TreeMap.ofList (nodeIds.map fun nodeId => (nodeId, ∅))
  edgePlacements := ∅

/-- The middle of `synthesize`: leaf cycles, representatives and block rings of a hierarchy. -/
def layOut (hashes : TopologyHashes) (config : BoundedTopologyConfig) (nodeIds : List NodeId)
    (hierarchy : List HierarchyGroup) : Synthesis (List HierarchyGroup × Layout) :=
  allocateRepresentativesAndHierarchyEdges hashes config hierarchy
    (addLeafCycles hierarchy (emptyLayout nodeIds))

end HeteroNetwork
