import HeteroNetwork.ControlPlane.Topology.Paths

/-!
# Where the links come from

`synthesize` writes every link twice: into the adjacency map and, with the group that laid it, into the
placements.  Two loops do so, over the leaf cycles and over the block rings.
-/

namespace HeteroNetwork

open Std (TreeMap)

open Checked List TopologyEdge

instance : Std.LawfulEqOrd TopologyEdgePlacement := ⟨compare_eq_iff_eq.mp⟩

namespace TopologyEdge

variable {a b x y : NodeId} {edge : TopologyEdge}

lemma new_eq_some : new a b = some edge ↔
    edge.first < edge.second ∧ (edge = ⟨a, b⟩ ∨ edge = ⟨b, a⟩) := by
  unfold new
  split_ifs with heq hlt
  · subst heq
    constructor
    · exact fun h => nomatch h
    · rintro ⟨hlt, rfl | rfl⟩
      · exact absurd hlt (lt_irrefl _)
      · exact absurd hlt (lt_irrefl _)
  · rw [Option.some.injEq, eq_comm]
    constructor
    · rintro rfl
      exact ⟨hlt, .inl rfl⟩
    · rintro ⟨hlt', rfl | rfl⟩
      · rfl
      · exact absurd hlt' hlt.asymm
  · rw [Option.some.injEq, eq_comm]
    have hgt := lt_of_le_of_ne (not_lt.mp hlt) (Ne.symm heq)
    constructor
    · rintro rfl
      exact ⟨hgt, .inr rfl⟩
    · rintro ⟨hlt', rfl | rfl⟩
      · exact absurd hlt' hgt.asymm
      · rfl

lemma new_comm (a b : NodeId) : new a b = new b a := by
  ext edge
  rw [new_eq_some, new_eq_some, or_comm]

lemma exists_new (h : a ≠ b) : ∃ edge, new a b = some edge := by
  rcases lt_or_gt_of_ne h with hlt | hgt
  · exact ⟨⟨a, b⟩, new_eq_some.mpr ⟨hlt, .inl rfl⟩⟩
  · exact ⟨⟨b, a⟩, new_eq_some.mpr ⟨hgt, .inr rfl⟩⟩

lemma exists_new_eq_iff : (∃ edge, new x y = some edge ∧ new a b = some edge) ↔
    a ≠ b ∧ ((a, b) = (x, y) ∨ (b, a) = (x, y)) := by
  constructor
  · rintro ⟨edge, hxy, hab⟩
    obtain ⟨hlt, hab⟩ := new_eq_some.mp hab
    obtain ⟨-, hxy⟩ := new_eq_some.mp hxy
    rcases hab with rfl | rfl
    · exact ⟨hlt.ne, by simpa [and_comm] using hxy⟩
    · exact ⟨hlt.ne', by simpa [and_comm, or_comm] using hxy⟩
  · rintro ⟨hne, h | h⟩
    · obtain ⟨edge, hedge⟩ := exists_new hne
      obtain ⟨rfl, rfl⟩ := Prod.mk.inj h
      exact ⟨edge, hedge, hedge⟩
    · obtain ⟨edge, hedge⟩ := exists_new hne
      obtain ⟨rfl, rfl⟩ := Prod.mk.inj h
      exact ⟨edge, (new_comm _ _).trans hedge, hedge⟩

end TopologyEdge

/-! ## One link -/

namespace Layout

variable {layout : Layout} {placement other : TopologyEdgePlacement} {ends : NodeId × NodeId}
  {edge : TopologyEdge}

def placementsOf (layout : Layout) (edge : TopologyEdge) : Std.TreeSet TopologyEdgePlacement :=
  layout.edgePlacements.getD edge ∅

lemma mem_edgePlacements_place : edge ∈ (layout.place placement ends).edgePlacements ↔
    edge ∈ layout.edgePlacements ∨ new ends.1 ends.2 = some edge := by
  unfold place
  cases new ends.1 ends.2 with
  | none => simp
  | some new =>
    rw [TreeMap.mem_insert, Std.LawfulEqOrd.compare_eq_iff_eq, Option.some.injEq, or_comm]

lemma mem_placementsOf_place : other ∈ (layout.place placement ends).placementsOf edge ↔
    other ∈ layout.placementsOf edge ∨ new ends.1 ends.2 = some edge ∧ other = placement := by
  unfold place placementsOf
  cases new ends.1 ends.2 with
  | none => simp
  | some new =>
    by_cases h : new = edge
    · subst h
      rw [TreeMap.getD_insert_self, Std.TreeSet.mem_insert, Std.LawfulEqOrd.compare_eq_iff_eq]
      simp [or_comm, eq_comm]
    · simp [TreeMap.getD_insert, h]

end Layout

namespace Block

variable {hashes : TopologyHashes} {config : BoundedTopologyConfig} {nodeIds : List NodeId}
  {b c d : Block} {x y : NodeId} {layout : Layout}

/-! ## Where two nodes part -/

variable (hashes config nodeIds) in
/-- The deepest block that holds both nodes. -/
structure Meet (x y : NodeId) (b : Block) : Prop where
  listed : b ∈ blocks hashes config (root nodeIds)
  left : x ∈ b.members
  right : y ∈ b.members
  deepest : ∀ other ∈ blocks hashes config (root nodeIds), x ∈ other.members → y ∈ other.members →
    b ∈ blocks hashes config other

section

variable (h : Meet hashes config nodeIds x y b)
include h

lemma Meet.symm : Meet hashes config nodeIds y x b :=
  ⟨h.listed, h.right, h.left, fun other hother hy hx => h.deepest other hother hx hy⟩

lemma Meet.depth_lt
    (hd : d ∈ blocks hashes config (root nodeIds)) (hx : x ∈ d.members) (hy : y ∈ d.members)
    (hne : d ≠ b) : d.digits.length < b.digits.length := by
  rcases mem_blocks.mp (h.deepest d hd hx hy) with heq | hbelow
  · exact absurd heq.symm hne
  · exact length_digits_lt hbelow

lemma Meet.unique (h' : Meet hashes config nodeIds x y c) : b = c := by
  by_contra hne
  have hlt := h.depth_lt h'.listed h'.left h'.right (Ne.symm hne)
  have hgt := h'.depth_lt h.listed h.left h.right hne
  omega

end

lemma meet_leaf (hb : b ∈ blocks hashes config (root nodeIds)) (hleaf : children hashes config b = [])
    (hx : x ∈ b.members) (hy : y ∈ b.members) : Meet hashes config nodeIds x y b where
  listed := hb
  left := hx
  right := hy
  deepest other hother hxo _ := by
    rcases comparable_of_mem hb hother hx hxo with h | h
    · exact h
    · simp [below, hleaf] at h

lemma meet_children (hb : b ∈ blocks hashes config (root nodeIds))
    (hc : c ∈ children hashes config b) (hd : d ∈ children hashes config b) (hne : c ≠ d)
    (hx : x ∈ c.members) (hy : y ∈ d.members) : Meet hashes config nodeIds x y b where
  listed := hb
  left := mem_of_mem_child hc hx
  right := mem_of_mem_child hd hy
  deepest other hother hxo hyo := by
    rcases comparable_of_mem hb hother (mem_of_mem_child hc hx) hxo with h | h
    · exact h
    · -- a block below the parent is within one child
      obtain ⟨child, hchild, hin⟩ := mem_below.mp h
      have hleft := children_eq_of_mem hchild hc (mem_of_mem_blocks hin hxo) hx
      have hright := children_eq_of_mem hchild hd (mem_of_mem_blocks hin hyo) hy
      exact absurd (hleft.symm.trans hright) hne

variable (hashes config) in
def placement (b : Block) : TopologyEdgePlacement where
  level := b.digits.length
  plane := 0
  kind := if children hashes config b = [] then .leafCycle else .hierarchyLink
  groupId := groupId hashes b.digits

variable (hashes config nodeIds) in
/-- The two maps agree, and every link is marked by the block in which its ends part. -/
structure Placed (layout : Layout) : Prop where
  members : ∀ n, n ∈ layout.adjacency ↔ n ∈ nodeIds
  links : ∀ x y, y ∈ layout.adjacency.neighbors x ↔
    ∃ edge ∈ layout.edgePlacements, TopologyEdge.new x y = some edge
  marked : ∀ edge ∈ layout.edgePlacements, ∃ b, edge.first < edge.second ∧
    Meet hashes config nodeIds edge.first edge.second b ∧
    ∀ mark, mark ∈ layout.placementsOf edge ↔ mark = placement hashes config b

lemma placed_emptyLayout (hnodup : nodeIds.Nodup) :
    Placed hashes config nodeIds (emptyLayout nodeIds) where
  members _ := mem_emptyLayout hnodup
  links x y := by
    rw [neighbors_emptyLayout hnodup]
    simp [emptyLayout]
  marked edge h := absurd h TreeMap.not_mem_emptyc

lemma Placed.place (h : Placed hashes config nodeIds layout)
    (hmeet : Meet hashes config nodeIds x y b) :
    Placed hashes config nodeIds (layout.place (placement hashes config b) (x, y)) where
  members n := (layout.mem_place _ _).trans (h.members n)
  links u v := by
    have hmember : (u, v) = (x, y) ∨ (v, u) = (x, y) → u ∈ layout.adjacency := by
      rintro (heq | heq)
      · obtain ⟨rfl, rfl⟩ := Prod.mk.inj heq
        exact (h.members _).mpr (mem_root.mp (mem_of_mem_blocks hmeet.listed hmeet.left))
      · obtain ⟨rfl, rfl⟩ := Prod.mk.inj heq
        exact (h.members _).mpr (mem_root.mp (mem_of_mem_blocks hmeet.listed hmeet.right))
    have hadded : (∃ edge ∈ (layout.place (placement hashes config b) (x, y)).edgePlacements,
        new u v = some edge) ↔ (∃ edge ∈ layout.edgePlacements,
          new u v = some edge) ∨
        ∃ edge, new x y = some edge ∧ new u v = some edge := by
      simp only [Layout.mem_edgePlacements_place, or_and_right, exists_or]
    rw [hadded, ← h.links, exists_new_eq_iff]
    refine Adjacency.mem_neighbors_addUndirectedEdge.trans (or_congr_right ?_)
    exact and_congr_right fun _ => and_iff_right_of_imp hmember
  marked edge hedge := by
    -- the block of the link, whether the link is new or was there before
    have hblock : new x y = some edge → edge.first < edge.second ∧
        Meet hashes config nodeIds edge.first edge.second b := by
      intro hnew
      obtain ⟨hlt, rfl | rfl⟩ := new_eq_some.mp hnew
      · exact ⟨hlt, hmeet⟩
      · exact ⟨hlt, hmeet.symm⟩
    by_cases hold : edge ∈ layout.edgePlacements
    · obtain ⟨c, hlt, hc, hmarks⟩ := h.marked edge hold
      refine ⟨c, hlt, hc, fun mark => ?_⟩
      rw [Layout.mem_placementsOf_place, hmarks]
      refine or_iff_left_of_imp ?_
      rintro ⟨hnew, rfl⟩
      rw [(hblock hnew).2.unique hc]
    · have hnew := (Layout.mem_edgePlacements_place.mp hedge).resolve_left hold
      refine ⟨b, (hblock hnew).1, (hblock hnew).2, fun mark => ?_⟩
      have hnone : layout.placementsOf edge = ∅ := TreeMap.getD_eq_fallback hold
      rw [Layout.mem_placementsOf_place, hnone]
      simp [hnew]

lemma Placed.places {edges : List (NodeId × NodeId)} (h : Placed hashes config nodeIds layout)
    (hmeet : ∀ e ∈ edges, Meet hashes config nodeIds e.1 e.2 b) :
    Placed hashes config nodeIds (edges.foldl
      (fun layout ends => layout.place (placement hashes config b) ends) layout) :=
  List.foldlRecOn edges _ h fun _ hlayout e he => hlayout.place (hmeet e he)

/-! ## The loops -/

lemma placed_addLeafCycles (hnodup : nodeIds.Nodup) : Placed hashes config nodeIds
    (addLeafCycles ((inOrder hashes config nodeIds).map (toGroup hashes config)) (emptyLayout nodeIds)) := by
  refine List.foldlRecOn _ _ (placed_emptyLayout hnodup) fun layout hlayout group hgroup => ?_
  obtain ⟨hmem, hleaf⟩ := mem_filter.mp hgroup
  obtain ⟨b, hb, rfl⟩ := mem_map.mp hmem
  have hnil : children hashes config b = [] := by simpa [toGroup] using hleaf
  have hmark : placement hashes config b =
      { level := b.digits.length, plane := 0, kind := .leafCycle, groupId := groupId hashes b.digits } := by
    simp [placement, hnil]
  have hmeet : ∀ e ∈ cycleEdges b.members, Meet hashes config nodeIds e.1 e.2 b := by
    intro e he
    obtain ⟨hx, hy⟩ := mem_aroundTheRing (cycleEdges_subset he)
    exact meet_leaf (mem_inOrder.mp hb) hnil hx hy
  have hcycle := hlayout.places hmeet
  rwa [hmark] at hcycle

lemma ne_of_mem_aroundTheRing (h : (c, d) ∈ aroundTheRing (children hashes config b)) : c ≠ d := by
  obtain ⟨i, hi, heq⟩ := mem_iff_getElem.mp h
  have hlength : i < (children hashes config b).length := by simpa [aroundTheRing] using hi
  have hne := next_ne (children_nodup hashes config b)
    (two_le_children (ne_nil_of_length_pos (by omega))) hlength
  simp only [aroundTheRing, getElem_zip, getElem_rotate, Prod.mk.injEq] at heq
  obtain ⟨rfl, rfl⟩ := heq
  exact hne

/-- **Every link that the wiring leaves is marked by the block in which its ends part.** -/
lemma placed_layOut {groups : List HierarchyGroup} (hnodup : nodeIds.Nodup)
    (hids : DistinctGroupIds hashes (groupPrefixes hashes config nodeIds))
    (h : layOut hashes config nodeIds ((inOrder hashes config nodeIds).map (toGroup hashes config)) =
      .ok (groups, layout)) :
    Placed hashes config nodeIds layout ∧
      ∃ ports, groups = (inOrder hashes config nodeIds).map (withPorts hashes config ports) := by
  rw [layOut, allocateRepresentativesAndHierarchyEdges, addLeafCycles_eq] at h
  obtain ⟨⟨withRepresentatives, reserved⟩, hloop, h⟩ := bind_eq_ok.mp h
  obtain ⟨layout', hrings, h⟩ := bind_eq_ok.mp h
  obtain ⟨rfl, rfl⟩ := Prod.mk.inj (Except.ok.inj h)
  obtain ⟨ports, hgroups, hchosen, -⟩ := allocationLoop_eq_ok hloop
  dsimp only at hgroups hrings
  subst hgroups
  refine ⟨?_, ports, rfl⟩
  refine foldlM_invariant _ (fun parentId hparent layout layout' hlayout hturn => ?_)
    (placed_addLeafCycles hnodup) hrings
  obtain ⟨group, hgroup, rfl⟩ := mem_map.mp hparent
  obtain ⟨hmem, htwo⟩ := mem_filter.mp hgroup
  obtain ⟨b, hb, rfl⟩ := mem_map.mp hmem
  have hsplit : children hashes config b ≠ [] := by
    intro hnil
    simp [withPorts, toGroup, hnil] at htwo
  have hmark : placement hashes config b =
      { level := b.digits.length, plane := 0, kind := .hierarchyLink,
        groupId := groupId hashes b.digits } := by
    simp [placement, hsplit]
  have hblock := mem_inOrder.mp hb
  have hring := addHierarchyBlockRing_eq hids hchosen hblock (placement hashes config b) layout
  rw [show (withPorts hashes config ports b).blockId = groupId hashes b.digits from rfl,
    groupById_eq hids hblock, ok_bind] at hturn
  rw [hmark] at hring
  obtain rfl := Except.ok.inj (hring.symm.trans hturn)
  rw [← hmark]
  refine hlayout.places fun e he => ?_
  obtain ⟨⟨c, d⟩, hcd, rfl⟩ := mem_map.mp he
  obtain ⟨hc, hd⟩ := mem_aroundTheRing hcd
  exact meet_children hblock hc hd (ne_of_mem_aroundTheRing hcd)
    (hchosen c (below_of_mem_children hc hblock)).portFor_mem.2
    (hchosen d (below_of_mem_children hd hblock)).portFor_mem.1

lemma Placed.mem_edgePlacements (h : Placed hashes config nodeIds layout) (edge : TopologyEdge) :
    edge ∈ layout.edgePlacements ↔
      ∃ x y, y ∈ layout.adjacency.neighbors x ∧ new x y = some edge := by
  constructor
  · intro hedge
    obtain ⟨-, hlt, -⟩ := h.marked edge hedge
    have hnew := new_eq_some.mpr ⟨hlt, .inl rfl⟩
    exact ⟨edge.first, edge.second, (h.links _ _).mpr ⟨edge, hedge, hnew⟩, hnew⟩
  · rintro ⟨x, y, hlink, hnew⟩
    obtain ⟨edge', hedge, hnew'⟩ := (h.links x y).mp hlink
    rwa [← Option.some.inj (hnew'.symm.trans hnew)]

end Block

structure DeepestCommon (groups : List TopologyGroup) (edge : TopologyEdge) (group : TopologyGroup) :
    Prop where
  listed : group ∈ groups
  first : edge.first ∈ group.nodeIds
  second : edge.second ∈ group.nodeIds
  deepest : ∀ other ∈ groups, edge.first ∈ other.nodeIds → edge.second ∈ other.nodeIds →
    other ≠ group → other.depth < group.depth

structure PlacedEdges (t : BoundedTopology) : Prop where
  keys : ∀ edge, edge ∈ t.edgePlacements ↔
    ∃ a b, b ∈ t.adjacency.neighbors a ∧ TopologyEdge.new a b = some edge
  linked : ∀ a b, b ∈ t.adjacency.neighbors a → ∃ edge ∈ t.edgePlacements, TopologyEdge.new a b = some edge
  placed : ∀ edge placements, t.edgePlacements[edge]? = some placements →
    ∃ mark group, (∀ other, other ∈ placements ↔ other = mark) ∧ DeepestCommon t.groups edge group ∧
      (∀ other ∈ t.groups, other.groupId = mark.groupId ↔ other = group) ∧ mark.level = group.depth ∧
      mark.kind = if group.childGroupIds = [] then .leafCycle else .hierarchyLink

namespace Block

variable {hashes : TopologyHashes} {config : BoundedTopologyConfig} {nodeIds : List NodeId} {b : Block}
  {ports : Block → List TopologyRepresentative} {edge : TopologyEdge}

variable (hashes config nodeIds) in
def topologyGroups (ports : Block → List TopologyRepresentative) : List TopologyGroup :=
  (inOrder hashes config nodeIds).map fun b => (withPorts hashes config ports b).intoGroup

lemma mem_topologyGroups {group : TopologyGroup} :
    group ∈ topologyGroups hashes config nodeIds ports ↔
      ∃ b ∈ blocks hashes config (root nodeIds), (withPorts hashes config ports b).intoGroup = group := by
  simp only [topologyGroups, mem_map, mem_inOrder]

lemma Meet.deepestCommon (h : Meet hashes config nodeIds edge.first edge.second b) :
    DeepestCommon (topologyGroups hashes config nodeIds ports) edge
      (withPorts hashes config ports b).intoGroup where
  listed := mem_topologyGroups.mpr ⟨b, h.listed, rfl⟩
  first := h.left
  second := h.right
  deepest other hother hfirst hsecond hne := by
    obtain ⟨d, hd, rfl⟩ := mem_topologyGroups.mp hother
    refine h.depth_lt hd hfirst hsecond ?_
    rintro rfl
    exact hne rfl

lemma groupId_intoGroup_iff (hids : DistinctGroupIds hashes (groupPrefixes hashes config nodeIds))
    (hb : b ∈ blocks hashes config (root nodeIds)) {other : TopologyGroup}
    (hother : other ∈ topologyGroups hashes config nodeIds ports) :
    other.groupId = groupId hashes b.digits ↔ other = (withPorts hashes config ports b).intoGroup := by
  obtain ⟨d, hd, rfl⟩ := mem_topologyGroups.mp hother
  constructor
  · intro hid
    rw [eq_of_groupId_eq hids hd hb hid]
  · intro heq
    rw [heq]
    rfl

end Block

/-- **Every link is placed once, in the group where its ends part**, provided that the groups got distinct
ids: its placement names the deepest group that holds both ends and its depth, and says whether that group
is a leaf. -/
theorem synthesize_placements (hashes : TopologyHashes) (nodes : List NodeRecord)
    (config : BoundedTopologyConfig) (t : BoundedTopology)
    (hids : Block.DistinctGroupIds hashes (Block.groupPrefixes hashes config (sortedNodeIds nodes)))
    (h : synthesize hashes nodes config = .ok t) : PlacedEdges t := by
  simp only [synthesize, bind_eq_ok, rejectIf_eq_ok] at h
  obtain ⟨_, -, _, -, nodeIds, hnodeIds, hierarchy, hbuild, ⟨groups, layout⟩, hlayOut, _, -, _, -, _,
    -, _, -, _, -, ht⟩ := h
  obtain rfl := Except.ok.inj ht
  obtain ⟨rfl, hsorted⟩ := canonicalNodeIds_eq_ok.mp hnodeIds
  have hnodup := nodup_of_sorted hsorted
  obtain ⟨hplaced, hgroups⟩ : Block.Placed hashes config (sortedNodeIds nodes) layout ∧
      (sortedNodeIds nodes ≠ [] → ∃ ports, groups.map HierarchyGroup.intoGroup =
        Block.topologyGroups hashes config (sortedNodeIds nodes) ports) := by
    by_cases hne : sortedNodeIds nodes = []
    · rw [hne] at hbuild hlayOut ⊢
      obtain rfl : [] = hierarchy := Except.ok.inj hbuild
      obtain ⟨-, rfl⟩ := Prod.mk.inj (Except.ok.inj hlayOut)
      exact ⟨Block.placed_emptyLayout List.nodup_nil, fun h => absurd rfl h⟩
    · obtain ⟨rfl, -⟩ := Block.buildHierarchy_eq_ok hne hbuild
      obtain ⟨hplaced, ports, rfl⟩ := Block.placed_layOut hnodup hids hlayOut
      exact ⟨hplaced, fun _ => ⟨ports, List.map_map⟩⟩
  refine ⟨hplaced.mem_edgePlacements, fun a b hlink => (hplaced.links a b).mp hlink, ?_⟩
  intro edge placements hplacements
  obtain ⟨b, -, hmeet, hmarks⟩ := hplaced.marked edge (OrderedMap.mem_of_getElem? hplacements)
  obtain ⟨ports, hgroups⟩ := hgroups
    (List.ne_nil_of_mem (Block.mem_root.mp (Block.mem_of_mem_blocks hmeet.listed hmeet.left)))
  have hset : layout.placementsOf edge = placements := by
    rw [Layout.placementsOf, TreeMap.getD_eq_getD_getElem?]
    dsimp only at hplacements
    rw [hplacements]
    rfl
  refine ⟨Block.placement hashes config b, (Block.withPorts hashes config ports b).intoGroup, ?_, ?_, ?_,
    rfl, ?_⟩
  · rwa [hset] at hmarks
  · dsimp only
    rw [hgroups]
    exact hmeet.deepestCommon
  · dsimp only
    rw [hgroups]
    exact fun other hother => Block.groupId_intoGroup_iff hids hmeet.listed hother
  · simp [Block.placement, HierarchyGroup.intoGroup, Block.withPorts, Block.toGroup]

namespace SampleHierarchy

theorem synthesize_placements_sample :
    (topology.edgePlacements.toList.map fun entry =>
      (entry.1.first.asStr, entry.1.second.asStr, entry.2.toList.map (·.level))) =
      [("a", "b", [1]), ("a", "e", [0]), ("b", "d", [0]), ("c", "d", [1]), ("c", "e", [1]),
        ("d", "e", [1])] ∧
    PlacedEdges topology :=
  ⟨by decide +kernel,
    synthesize_placements hashes (nodeIds.map record) config topology (by decide +kernel) topology_eq⟩

end SampleHierarchy

end HeteroNetwork
