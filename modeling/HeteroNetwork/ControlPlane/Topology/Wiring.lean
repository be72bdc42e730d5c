import HeteroNetwork.ControlPlane.Topology.Allocation

/-!
# The links of a hierarchy

The adjacency map that leaf cycles and block rings leave behind, as one list of edges per block: a
leaf contributes its cycle (`leafEdges`), an internal block the ring of its children (`ringEdges`).
-/

namespace HeteroNetwork

open Checked List Adjacency

/-! ## Rings over a list -/

lemma map_fst_aroundTheRing {α : Type} (l : List α) : (aroundTheRing l).map Prod.fst = l := by
  rw [aroundTheRing, map_fst_zip]
  simp

lemma map_snd_aroundTheRing {α : Type} (l : List α) : (aroundTheRing l).map Prod.snd = l.rotate 1 := by
  rw [aroundTheRing, map_snd_zip]
  simp

lemma aroundTheRing_map {α β : Type} (f : α → β) (l : List α) :
    aroundTheRing (l.map f) = (aroundTheRing l).map (Prod.map f f) := by
  rw [aroundTheRing, aroundTheRing, ← map_rotate, zip_map]

lemma mem_aroundTheRing {α : Type} {l : List α} {a b : α} (h : (a, b) ∈ aroundTheRing l) :
    a ∈ l ∧ b ∈ l := by
  obtain ⟨ha, hb⟩ := of_mem_zip h
  exact ⟨ha, mem_rotate.mp hb⟩

lemma getElem_mem_aroundTheRing {α : Type} (l : List α) (i : ℕ) (h : i < l.length) :
    (l.get ⟨i, h⟩, l.get ⟨(i + 1) % l.length, Nat.mod_lt _ (by omega)⟩) ∈ aroundTheRing l := by
  rw [mem_iff_getElem]
  refine ⟨i, by simpa [aroundTheRing] using h, ?_⟩
  simp [aroundTheRing, getElem_rotate]

/-! ## Leaf cycles -/

lemma cycleEdges_subset {cycle : List NodeId} {ends : NodeId × NodeId}
    (h : ends ∈ cycleEdges cycle) : ends ∈ aroundTheRing cycle := by
  unfold cycleEdges at h
  split_ifs at h
  · exact absurd h not_mem_nil
  · exact mem_of_mem_take h
  · exact mem_of_mem_take h

lemma count_cycleEdges_le {cycle : List NodeId} (hnodup : cycle.Nodup) (n : NodeId) :
    ((cycleEdges cycle).map Prod.fst).count n ≤ 1 ∧ ((cycleEdges cycle).map Prod.snd).count n ≤ 1 := by
  have hsublist : (cycleEdges cycle).Sublist (aroundTheRing cycle) := by
    unfold cycleEdges
    split_ifs
    · exact nil_sublist _
    · exact take_sublist _ _
    · exact take_sublist _ _
  constructor
  · refine ((hsublist.map Prod.fst).count_le n).trans ?_
    rw [map_fst_aroundTheRing]
    exact nodup_iff_count_le_one.mp hnodup n
  · refine ((hsublist.map Prod.snd).count_le n).trans ?_
    rw [map_snd_aroundTheRing]
    exact nodup_iff_count_le_one.mp (nodup_rotate.mpr hnodup) n

lemma Adjacency.addEdges_append (adjacency : Adjacency) (s t : List (NodeId × NodeId)) :
    adjacency.addEdges (s ++ t) = (adjacency.addEdges s).addEdges t := foldl_append

lemma addLeafCycles_adjacency (hierarchy : List HierarchyGroup) (layout : Layout) :
    (addLeafCycles hierarchy layout).adjacency = layout.adjacency.addEdges
      ((hierarchy.filter (·.childBlockIds.isEmpty)).flatMap fun group => cycleEdges group.nodeIds) := by
  unfold addLeafCycles
  induction hierarchy.filter (·.childBlockIds.isEmpty) generalizing layout with
  | nil => rfl
  | cons group groups ih =>
    rw [foldl_cons, ih, flatMap_cons, addEdges_append, addPlacedCycle,
      Layout.adjacency_foldl_place]

section EmptyLayout

variable {nodeIds : List NodeId} {n : NodeId}

lemma emptyLayout_getElem? (hnodup : nodeIds.Nodup) (hn : n ∈ nodeIds) :
    (emptyLayout nodeIds).adjacency[n]? = some ∅ := by
  rw [emptyLayout, OrderedMap.getElem?_ofList]
  · exact mem_map.mpr ⟨n, hn, rfl⟩
  · simpa [Function.comp_def] using hnodup

lemma mem_emptyLayout (hnodup : nodeIds.Nodup) : n ∈ (emptyLayout nodeIds).adjacency ↔ n ∈ nodeIds := by
  constructor
  · intro h
    rw [Std.TreeMap.mem_iff_isSome_getElem?, Option.isSome_iff_exists] at h
    obtain ⟨s, hs⟩ := h
    rw [emptyLayout, OrderedMap.getElem?_ofList (by simpa [Function.comp_def] using hnodup)] at hs
    obtain ⟨m, hm, heq⟩ := mem_map.mp hs
    rw [Prod.mk.injEq] at heq
    exact heq.1 ▸ hm
  · intro h
    rw [Std.TreeMap.mem_iff_isSome_getElem?, emptyLayout_getElem? hnodup h]
    rfl

lemma neighbors_emptyLayout (hnodup : nodeIds.Nodup) (n : NodeId) :
    (emptyLayout nodeIds).adjacency.neighbors n = [] := by
  rw [eq_nil_iff_forall_not_mem]
  intro m hm
  have hn := (mem_emptyLayout hnodup).mp (mem_of_mem_neighbors hm)
  rw [neighbors, emptyLayout_getElem? hnodup hn] at hm
  simp at hm

end EmptyLayout

namespace Block

variable {hashes : TopologyHashes} {config : BoundedTopologyConfig} {nodeIds : List NodeId}
  {ports : Block → List TopologyRepresentative} {b c d leaf : Block} {n m : NodeId}

variable (hashes config nodeIds) in
def leafEdges : List (NodeId × NodeId) :=
  ((inOrder hashes config nodeIds).filter fun b => children hashes config b = []).flatMap
    fun b => cycleEdges b.members

variable (hashes config nodeIds) in
def leafAdjacency : Adjacency :=
  (emptyLayout nodeIds).adjacency.addEdges (leafEdges hashes config nodeIds)

lemma addLeafCycles_eq :
    (addLeafCycles ((inOrder hashes config nodeIds).map (toGroup hashes config))
      (emptyLayout nodeIds)).adjacency = leafAdjacency hashes config nodeIds := by
  rw [addLeafCycles_adjacency, leafAdjacency, leafEdges, filter_map, flatMap_map]
  congr 2
  apply filter_congr
  intro b _
  by_cases h : children hashes config b = [] <;> simp [toGroup, h]

lemma leaf_eq_of_mem (hb : b ∈ blocks hashes config (root nodeIds))
    (hd : d ∈ blocks hashes config (root nodeIds)) (hleaf : children hashes config b = [])
    (hleaf' : children hashes config d = []) (hnb : n ∈ b.members) (hnd : n ∈ d.members) : b = d := by
  rcases comparable_of_mem hb hd hnb hnd with h | h
  · simpa [below, hleaf'] using h
  · simp [below, hleaf] at h

lemma mem_leafEdges : (n, m) ∈ leafEdges hashes config nodeIds ↔
    ∃ b ∈ blocks hashes config (root nodeIds), children hashes config b = [] ∧
      (n, m) ∈ cycleEdges b.members := by
  simp only [leafEdges, mem_flatMap, mem_filter, mem_inOrder, decide_eq_true_eq,
    and_assoc]

lemma mem_neighbors_leafAdjacency (hnodup : nodeIds.Nodup)
    (hleaf : leaf ∈ blocks hashes config (root nodeIds)) (hnil : children hashes config leaf = [])
    (hn : n ∈ leaf.members) :
    m ∈ (leafAdjacency hashes config nodeIds).neighbors n ↔
      n ≠ m ∧ ((n, m) ∈ cycleEdges leaf.members ∨ (m, n) ∈ cycleEdges leaf.members) := by
  have hmem : n ∈ (emptyLayout nodeIds).adjacency :=
    (mem_emptyLayout hnodup).mpr (mem_root.mp (mem_of_mem_blocks hleaf hn))
  rw [leafAdjacency, mem_neighbors_addEdges, neighbors_emptyLayout hnodup]
  simp only [not_mem_nil, false_or, mem_leafEdges, hmem, true_and]
  refine and_congr_right fun _ => or_congr ?_ ?_
  · constructor
    · rintro ⟨b, hb, hbnil, hedge⟩
      have hnb := (mem_aroundTheRing (cycleEdges_subset hedge)).1
      rwa [← leaf_eq_of_mem hb hleaf hbnil hnil hnb hn]
    · exact fun hedge => ⟨leaf, hleaf, hnil, hedge⟩
  · constructor
    · rintro ⟨b, hb, hbnil, hedge⟩
      have hnb := (mem_aroundTheRing (cycleEdges_subset hedge)).2
      rwa [← leaf_eq_of_mem hb hleaf hbnil hnil hnb hn]
    · exact fun hedge => ⟨leaf, hleaf, hnil, hedge⟩

variable (hashes config) in
lemma leafDegrees (hnodup : nodeIds.Nodup) :
    LeafDegrees hashes config (leafAdjacency hashes config nodeIds) (root nodeIds) := by
  intro leaf hleaf hnil n hn
  have hmembers := nodup_of_mem_blocks hnodup hleaf
  have hneighbors := fun m => mem_neighbors_leafAdjacency (m := m) hnodup hleaf hnil hn
  rw [le_min_iff]
  constructor
  · -- the cycle of the leaf alone gives the same neighbours
    have hmem : n ∈ (emptyLayout nodeIds).adjacency :=
      (mem_emptyLayout hnodup).mpr (mem_root.mp (mem_of_mem_blocks hleaf hn))
    have hlocal : (leafAdjacency hashes config nodeIds).degree n =
        ((emptyLayout nodeIds).adjacency.addEdges (cycleEdges leaf.members)).degree n :=
      degree_congr fun m => by
        rw [hneighbors m, mem_neighbors_addEdges, neighbors_emptyLayout hnodup]
        simp [hmem]
    have hempty : (emptyLayout nodeIds).adjacency.degree n = 0 := by
      rw [degree_eq_length, neighbors_emptyLayout hnodup, length_nil]
    have hle : ((emptyLayout nodeIds).adjacency.addEdges (cycleEdges leaf.members)).degree n ≤ _ :=
      degree_addEdges_le
    have hcount := count_cycleEdges_le hmembers n
    omega
  · -- and all partners are other members
    have hsubset := degree_le_of_subset (leaf.members.erase n) fun m hm => by
      obtain ⟨hne, hedge⟩ := (hneighbors m).mp hm
      rw [hmembers.mem_erase_iff]
      refine ⟨hne.symm, ?_⟩
      rcases hedge with h | h
      · exact (mem_aroundTheRing (cycleEdges_subset h)).2
      · exact (mem_aroundTheRing (cycleEdges_subset h)).1
    rwa [length_erase_of_mem hn] at hsubset

/-! ## Block rings -/

variable {adjacency : Adjacency}

def portFor (ports : Block → List TopologyRepresentative) (plane : ℕ) (b : Block) : NodeId :=
  ((ports b).find? (·.plane = plane)).elim default (·.nodeId)

section

variable (h : Chosen hashes config adjacency ports b)
include h

lemma Chosen.ports_eq : ports b = [⟨portFor ports 0 b, 0⟩, ⟨portFor ports 1 b, 1⟩] := by
  obtain ⟨entry, -, exit, -, hports, -⟩ := selectGroupRepresentatives_eq_ok h
  have hentry : portFor ports 0 b = entry := by simp [portFor, hports]
  have hexit : portFor ports 1 b = exit := by simp [portFor, hports]
  rw [hentry, hexit, hports]

lemma Chosen.portFor_mem : portFor ports 0 b ∈ b.members ∧ portFor ports 1 b ∈ b.members := by
  constructor
  · exact h.mem_members ⟨portFor ports 0 b, 0⟩ (by rw [h.ports_eq]; simp)
  · exact h.mem_members ⟨portFor ports 1 b, 1⟩ (by rw [h.ports_eq]; simp)

lemma Chosen.single
    (heq : portFor ports 0 b = portFor ports 1 b) : b.members = [portFor ports 0 b] := by
  obtain ⟨entry, -, exit, -, hports, hcases⟩ := selectGroupRepresentatives_eq_ok h
  have hentry : portFor ports 0 b = entry := by simp [portFor, hports]
  have hexit : portFor ports 1 b = exit := by simp [portFor, hports]
  rcases hcases with ⟨hsingle, -, -⟩ | ⟨hne, -, -⟩
  · rw [hsingle, hentry]
  · exact absurd (hentry.symm.trans (heq.trans hexit)) hne

lemma Chosen.representativeForPlane :
    representativeForPlane (withPorts hashes config ports b) 0 = .ok (portFor ports 0 b) ∧
      representativeForPlane (withPorts hashes config ports b) 1 = .ok (portFor ports 1 b) := by
  obtain ⟨entry, -, exit, -, hports, -⟩ := selectGroupRepresentatives_eq_ok h
  constructor <;> simp [HeteroNetwork.representativeForPlane, withPorts, hports, portFor]

end

variable (hashes config) in
def ringEdges (ports : Block → List TopologyRepresentative) (p : Block) : List (NodeId × NodeId) :=
  (aroundTheRing (children hashes config p)).map fun e => (portFor ports 1 e.1, portFor ports 0 e.2)

lemma groupById_eq (hids : DistinctGroupIds hashes (groupPrefixes hashes config nodeIds))
    (hb : b ∈ blocks hashes config (root nodeIds)) :
    groupById ((inOrder hashes config nodeIds).map (withPorts hashes config ports))
      (indexById ((inOrder hashes config nodeIds).map (toGroup hashes config)))
      (groupId hashes b.digits) = .ok (withPorts hashes config ports b) := by
  obtain ⟨i, hi⟩ := mem_iff_getElem?.mp (mem_inOrder.mpr hb)
  have hindex : (indexById ((inOrder hashes config nodeIds).map (toGroup hashes config)))[
      groupId hashes b.digits]? = some i := by
    rw [indexById, OrderedMap.getElem?_ofList]
    · rw [zipIdx_map, map_map, mem_map]
      exact ⟨(b, i), mem_zipIdx_iff_getElem?.mpr hi, rfl⟩
    · have hkeys : (((inOrder hashes config nodeIds).map (toGroup hashes config)).zipIdx.map
          fun p => (p.1.blockId, p.2)).map Prod.fst =
          (inOrder hashes config nodeIds).map fun b => groupId hashes b.digits := by
        rw [zipIdx_map, map_map, map_map]
        conv_rhs => rw [← zipIdx_map_fst (l := inOrder hashes config nodeIds) (i := 0)]
        rw [map_map]
        rfl
      rw [hkeys]
      exact inOrder_nodup.map_on fun b hb d hd h =>
        eq_of_groupId_eq hids (mem_inOrder.mp hb) (mem_inOrder.mp hd) h
  simp only [groupById, hindex, expect, ok_bind, getElem?_map, hi, Option.map_some]

lemma addHierarchyBlockRing_eq (hids : DistinctGroupIds hashes (groupPrefixes hashes config nodeIds))
    (hchosen : ∀ b ∈ below hashes config (root nodeIds), Chosen hashes config adjacency ports b)
    (hb : b ∈ blocks hashes config (root nodeIds)) (placement : TopologyEdgePlacement)
    (layout : Layout) :
    addHierarchyBlockRing ((inOrder hashes config nodeIds).map (withPorts hashes config ports))
      (indexById ((inOrder hashes config nodeIds).map (toGroup hashes config)))
      ((children hashes config b).map fun c => groupId hashes c.digits) placement layout =
    .ok ((ringEdges hashes config ports b).foldl
      (fun layout ends => layout.place placement ends) layout) := by
  have hchild : ∀ c ∈ children hashes config b, c ∈ blocks hashes config (root nodeIds) ∧
      Chosen hashes config adjacency ports c := by
    intro c hc
    exact ⟨blocks_trans (mem_blocks_of_mem_children hc) hb,
      hchosen c (below_of_mem_children hc hb)⟩
  rw [addHierarchyBlockRing, aroundTheRing_map, foldlM_map, ringEdges, foldl_map]
  refine foldlM_eq_ok (fun e he layout => ?_) layout
  obtain ⟨hsource, htarget⟩ := mem_aroundTheRing he
  obtain ⟨hsourceMem, hsourceChosen⟩ := hchild _ hsource
  obtain ⟨htargetMem, htargetChosen⟩ := hchild _ htarget
  simp only [Prod.map, groupById_eq hids hsourceMem, groupById_eq hids htargetMem,
    hsourceChosen.representativeForPlane.2, htargetChosen.representativeForPlane.1,
    ok_bind]

variable (hashes config nodeIds) in
def allRingEdges (ports : Block → List TopologyRepresentative) : List (NodeId × NodeId) :=
  ((inOrder hashes config nodeIds).filter fun b => 2 ≤ (children hashes config b).length).flatMap
    (ringEdges hashes config ports)

/-- **Wiring a hierarchy never fails**: it selects for each block what its subtree determines, and leaves
the leaf cycles and the block rings. -/
theorem exists_layOut (hfour : 4 ≤ config.maxDegree) (hnodup : nodeIds.Nodup)
    (hids : DistinctGroupIds hashes (groupPrefixes hashes config nodeIds)) :
    ∃ ports layout,
      layOut hashes config nodeIds ((inOrder hashes config nodeIds).map (toGroup hashes config)) =
        .ok ((inOrder hashes config nodeIds).map (withPorts hashes config ports), layout) ∧
      layout.adjacency = (leafAdjacency hashes config nodeIds).addEdges
        (allRingEdges hashes config nodeIds ports) ∧
      (∀ b ∈ below hashes config (root nodeIds),
        Chosen hashes config (leafAdjacency hashes config nodeIds) ports b) ∧
      ports (root nodeIds) = [] := by
  obtain ⟨⟨groups, reserved⟩, hloop⟩ :=
    exists_allocationLoop hfour (leafDegrees hashes config hnodup) hnodup
  obtain ⟨ports, rfl, hchosen, hroot⟩ := allocationLoop_eq_ok hloop
  rw [allocationLoop] at hloop
  let start := addLeafCycles ((inOrder hashes config nodeIds).map (toGroup hashes config))
    (emptyLayout nodeIds)
  have hstart : start.adjacency = leafAdjacency hashes config nodeIds := addLeafCycles_eq
  let parents := (inOrder hashes config nodeIds).filter
    fun b => 2 ≤ (children hashes config b).length
  let lay := fun (layout : Layout) (b : Block) =>
    (ringEdges hashes config ports b).foldl (fun layout ends => layout.place
      { level := b.digits.length, plane := 0, kind := .hierarchyLink,
        groupId := groupId hashes b.digits } ends) layout
  have hparents : (((inOrder hashes config nodeIds).map (withPorts hashes config ports)).filter
      (2 ≤ ·.childBlockIds.length)).map (·.blockId) =
        parents.map fun b => groupId hashes b.digits := by
    rw [filter_map, map_map]
    simp [parents, withPorts, toGroup, Function.comp_def]
  refine ⟨ports, parents.foldl lay start, ?_, ?_, hchosen, hroot⟩
  · rw [layOut, allocateRepresentativesAndHierarchyEdges]
    simp only [addLeafCycles_eq, hloop, ok_bind]
    rw [hparents, foldlM_map, foldlM_eq_ok (g := lay), ok_bind]
    intro b hb layout
    have hmem := mem_inOrder.mp (mem_of_mem_filter hb)
    simp only [groupById_eq hids hmem, ok_bind]
    exact addHierarchyBlockRing_eq hids hchosen hmem _ layout
  · have hfold : ∀ (l : List Block) (layout : Layout), (l.foldl lay layout).adjacency =
        layout.adjacency.addEdges (l.flatMap (ringEdges hashes config ports)) := by
      intro l
      induction l with
      | nil => exact fun _ => rfl
      | cons b l ih =>
        intro layout
        rw [foldl_cons, ih, flatMap_cons, addEdges_append,
          Layout.adjacency_foldl_place]
    rw [hfold, hstart]
    rfl

lemma layOut_eq_ok {groups : List HierarchyGroup} {layout : Layout}
    (h : layOut hashes config nodeIds
      ((inOrder hashes config nodeIds).map (toGroup hashes config)) = .ok (groups, layout)) :
    ∃ ports, groups = (inOrder hashes config nodeIds).map (withPorts hashes config ports) ∧
      ∀ b ∈ below hashes config (root nodeIds),
        Chosen hashes config (leafAdjacency hashes config nodeIds) ports b := by
  rw [layOut, allocateRepresentativesAndHierarchyEdges, addLeafCycles_eq] at h
  obtain ⟨state, hloop, h⟩ := bind_eq_ok.mp h
  obtain ⟨layout', -, h⟩ := bind_eq_ok.mp h
  obtain ⟨ports, hgroups, hchosen, -⟩ := allocationLoop_eq_ok hloop
  refine ⟨ports, ?_, hchosen⟩
  rw [← hgroups]
  exact (Prod.mk.inj (Except.ok.inj h)).1.symm

/-! ## Degrees -/

lemma count_ringEdges (hchosen : ∀ c ∈ children hashes config b,
      Chosen hashes config adjacency ports c) (n : NodeId) :
    ((ringEdges hashes config ports b).map Prod.fst).count n +
        ((ringEdges hashes config ports b).map Prod.snd).count n =
      ((children hashes config b).map fun c => (ports c).countP (·.nodeId = n)).sum := by
  have hfst : (ringEdges hashes config ports b).map Prod.fst =
      (children hashes config b).map (portFor ports 1) := by
    conv_rhs => rw [← map_fst_aroundTheRing (children hashes config b), map_map]
    rw [ringEdges, map_map]
    rfl
  have hsnd : ((ringEdges hashes config ports b).map Prod.snd).Perm
      ((children hashes config b).map (portFor ports 0)) := by
    have hrotate : (ringEdges hashes config ports b).map Prod.snd =
        ((children hashes config b).rotate 1).map (portFor ports 0) := by
      rw [← map_snd_aroundTheRing, ringEdges, map_map, map_map]
      rfl
    rw [hrotate]
    exact (rotate_perm _ 1).map _
  rw [hfst, hsnd.count_eq]
  generalize children hashes config b = l at hchosen
  induction l with
  | nil => rfl
  | cons c l ih =>
    have hc := (hchosen c (by simp)).ports_eq
    have hrest := ih fun d hd => hchosen d (by simp [hd])
    have hcount : (ports c).countP (·.nodeId = n) =
        (if portFor ports 0 c = n then 1 else 0) + if portFor ports 1 c = n then 1 else 0 := by
      conv_lhs => rw [hc]
      simp [countP_cons, add_comm]
    simp only [map_cons, count_cons, sum_cons, beq_iff_eq, hcount]
    omega

lemma sum_children (f : Block → ℕ) (b : Block) :
    ((blocks hashes config b).map fun p => ((children hashes config p).map f).sum).sum =
      ((below hashes config b).map f).sum := by
  induction b using tree_induction hashes config with
  | step b ih =>
    rw [blocks_eq, below, map_cons, sum_cons]
    generalize hl : children hashes config b = l at ih ⊢
    clear hl
    induction l with
    | nil => rfl
    | cons c l ihl =>
      have hc := ih c (by simp)
      have hrest := ihl fun d hd => ih d (by simp [hd])
      simp only [map_cons, sum_cons, flatMap_cons, map_append,
        sum_append] at hrest ⊢
      rw [hc, blocks_eq c]
      simp only [map_cons, sum_cons]
      omega

lemma count_allRingEdges_le
    (hchosen : ∀ b ∈ below hashes config (root nodeIds), Chosen hashes config adjacency ports b)
    (n : NodeId) :
    ((allRingEdges hashes config nodeIds ports).map Prod.fst).count n +
        ((allRingEdges hashes config nodeIds ports).map Prod.snd).count n ≤
      promised ports (below hashes config (root nodeIds)).toFinset n := by
  let uses := fun p => ((children hashes config p).map fun c => (ports c).countP (·.nodeId = n)).sum
  have hring : ∀ p ∈ inOrder hashes config nodeIds,
      ((ringEdges hashes config ports p).map Prod.fst).count n +
        ((ringEdges hashes config ports p).map Prod.snd).count n = uses p := by
    intro p hp
    exact count_ringEdges
      (fun c hc => hchosen c (below_of_mem_children hc (mem_inOrder.mp hp))) n
  have hsum : ∀ l : List Block, (∀ p ∈ l, p ∈ inOrder hashes config nodeIds) →
      ((l.flatMap (ringEdges hashes config ports)).map Prod.fst).count n +
        ((l.flatMap (ringEdges hashes config ports)).map Prod.snd).count n = (l.map uses).sum := by
    intro l hl
    induction l with
    | nil => rfl
    | cons p l ih =>
      have hp := hring p (hl p (by simp))
      have hrest := ih fun q hq => hl q (by simp [hq])
      simp only [flatMap_cons, map_append, count_append, map_cons,
        sum_cons]
      omega
  calc _ = _ := hsum _ fun p hp => mem_of_mem_filter hp
    _ ≤ ((inOrder hashes config nodeIds).map uses).sum :=
        (filter_sublist.map uses).sum_le_sum fun _ _ => Nat.zero_le _
    _ = ((blocks hashes config (root nodeIds)).map uses).sum := (inOrder_perm.map uses).sum_eq
    _ = ((below hashes config (root nodeIds)).map fun d => (ports d).countP (·.nodeId = n)).sum :=
        sum_children _ _
    _ = promised ports (below hashes config (root nodeIds)).toFinset n :=
        (sum_toFinset _ (below_nodup hashes config _)).symm

lemma degree_le (hfour : 4 ≤ config.maxDegree) (hnodup : nodeIds.Nodup)
    (hchosen : ∀ b ∈ below hashes config (root nodeIds),
      Chosen hashes config (leafAdjacency hashes config nodeIds) ports b) (n : NodeId) :
    ((leafAdjacency hashes config nodeIds).addEdges
      (allRingEdges hashes config nodeIds ports)).degree n ≤ config.maxDegree := by
  have hadded : ((leafAdjacency hashes config nodeIds).addEdges
      (allRingEdges hashes config nodeIds ports)).degree n ≤ _ := degree_addEdges_le
  have hused := count_allRingEdges_le hchosen n
  refine hadded.trans ((Nat.add_le_add_left hused _).trans ?_)
  by_cases hn : n ∈ nodeIds
  · have hroot : n ∈ (root nodeIds).members := mem_root.mpr hn
    have hdegrees := leafDegrees hashes config hnodup
    by_cases hleaf : children hashes config (root nodeIds) = []
    · have hdegree := hdegrees _ (self_mem_blocks _) hleaf n hroot
      have hnone : promised ports (below hashes config (root nodeIds)).toFinset n = 0 := by
        simp [promised, below, hleaf]
      omega
    · obtain ⟨c, hc, hnc⟩ := exists_child_of_mem hleaf hroot
      rw [← promised_below_child hchosen hc hnc]
      exact load_le (by omega) (hdegrees.mono (mem_blocks_of_mem_children hc))
        (fun d hd => hchosen d (mem_below.mpr ⟨c, hc, hd⟩)) hnc
  · -- a stranger has no links and no promises
    have hdegree : (leafAdjacency hashes config nodeIds).degree n = 0 := by
      have hstranger : n ∉ (leafAdjacency hashes config nodeIds) := by
        rw [leafAdjacency, mem_addEdges, mem_emptyLayout hnodup]
        exact hn
      rw [Std.TreeMap.mem_iff_isSome_getElem?, Bool.not_eq_true, Option.isSome_eq_false_iff,
        Option.isNone_iff_eq_none] at hstranger
      simp [degree, hstranger]
    have hnone : promised ports (below hashes config (root nodeIds)).toFinset n = 0 := by
      refine Finset.sum_eq_zero fun d hd => ?_
      rw [mem_toFinset] at hd
      refine (hchosen d hd).countP_eq_zero fun hnd => hn ?_
      exact mem_root.mp (mem_of_mem_blocks (mem_blocks.mpr (Or.inr hd)) hnd)
    omega

def bare (group : HierarchyGroup) : HierarchyGroup := { group with representatives := [] }

lemma accepted_four (h : config.Accepted) : 4 ≤ config.maxDegree := by
  have hmem := h.maxDegree
  simp only [supportedMaxDegrees, mem_cons, not_mem_nil, or_false] at hmem
  omega

/-- **Representatives never run out.**  Wiring a hierarchy succeeds: every group below the root gets a
representative on either plane, two distinct ones unless the group is a single node, and no node gets more
than `max_degree` neighbours. -/
theorem layOut_capacity (hashes : TopologyHashes) (config : BoundedTopologyConfig)
    (nodeIds : List NodeId) (hierarchy : List HierarchyGroup) (haccepted : config.Accepted)
    (hnodup : nodeIds.Nodup) (hbuild : buildHierarchy hashes config nodeIds = .ok hierarchy)
    (hids : DistinctGroupIds hashes (groupPrefixes hashes config nodeIds)) :
    ∃ groups layout,
      allocateRepresentativesAndHierarchyEdges hashes config hierarchy
        (addLeafCycles hierarchy (emptyLayout nodeIds)) = .ok (groups, layout) ∧
      groups.map bare = hierarchy ∧
      (∀ group ∈ groups, group.parentBlockId.isSome →
        ∃ r ∈ group.nodeIds, ∃ s ∈ group.nodeIds,
          group.representatives = [⟨r, 0⟩, ⟨s, 1⟩] ∧ (r = s → group.nodeIds = [r])) ∧
      ∀ n, layout.adjacency.degree n ≤ config.maxDegree := by
  have hfour := accepted_four haccepted
  by_cases hne : nodeIds = []
  · subst hne
    obtain rfl : [] = hierarchy := Except.ok.inj hbuild
    exact ⟨[], emptyLayout [], rfl, rfl, by simp, fun n => Nat.zero_le _⟩
  · obtain ⟨rfl, -⟩ := buildHierarchy_eq_ok hne hbuild
    obtain ⟨ports, layout, hlayOut, hadjacency, hchosen, hroot⟩ :=
      exists_layOut hfour hnodup hids
    refine ⟨_, layout, hlayOut, ?_, ?_, ?_⟩
    · rw [List.map_map]
      exact List.map_congr_left fun b _ => rfl
    · intro group hgroup hparent
      obtain ⟨b, hb, rfl⟩ := List.mem_map.mp hgroup
      rcases digits_cases (mem_inOrder.mp hb) with ⟨hnil, -⟩ | ⟨-, hbelow, -⟩
      · simp [withPorts, toGroup, parentGroupId, hnil] at hparent
      · have hb := hchosen b hbelow
        exact ⟨_, hb.portFor_mem.1, _, hb.portFor_mem.2, hb.ports_eq, hb.single⟩
    · intro n
      rw [hadjacency]
      exact degree_le hfour hnodup hchosen n

end Block

/-! ## A sample membership -/

namespace SampleHierarchy

def nodeIds : List NodeId := [⟨"a"⟩, ⟨"b"⟩, ⟨"c"⟩, ⟨"d"⟩, ⟨"e"⟩]

def config : BoundedTopologyConfig := { maxDegree := 4, blockSize := 4, permutationSeed := "seed" }

def hashes : TopologyHashes where
  hashPrefixDigit n _ := if n.asStr = "a" ∨ n.asStr = "b" then 0 else 1
  hierarchyGroupHash digits := UInt64.ofNat (digits.map Prod.snd).sum
  representativeScore _ _ n := UInt64.ofNat n.asStr.length
  topologyEpoch ids := UInt64.ofNat ids.length

def hierarchy : List HierarchyGroup :=
  [{ blockId := "group-root", nodeIds := nodeIds, parentBlockId := none,
     childBlockIds := ["group-0000000000000000", "group-0000000000000001"], depth := 0,
     representatives := [] },
   { blockId := "group-0000000000000000", nodeIds := [⟨"a"⟩, ⟨"b"⟩],
     parentBlockId := some "group-root", childBlockIds := [], depth := 1, representatives := [] },
   { blockId := "group-0000000000000001", nodeIds := [⟨"c"⟩, ⟨"d"⟩, ⟨"e"⟩],
     parentBlockId := some "group-root", childBlockIds := [], depth := 1, representatives := [] }]

lemma accepted : config.Accepted := ⟨by decide, by decide, by decide⟩

lemma build_eq : buildHierarchy hashes config nodeIds = .ok hierarchy := by decide +kernel

lemma distinct : Block.DistinctGroupIds hashes (Block.groupPrefixes hashes config nodeIds) := by
  decide +kernel

theorem layOut_capacity_sample :
    ∃ groups layout,
      allocateRepresentativesAndHierarchyEdges hashes config hierarchy
        (addLeafCycles hierarchy (emptyLayout nodeIds)) = .ok (groups, layout) ∧
      groups.map Block.bare = hierarchy ∧
      (∀ group ∈ groups, group.parentBlockId.isSome →
        ∃ r ∈ group.nodeIds, ∃ s ∈ group.nodeIds,
          group.representatives = [⟨r, 0⟩, ⟨s, 1⟩] ∧ (r = s → group.nodeIds = [r])) ∧
      ∀ n, layout.adjacency.degree n ≤ config.maxDegree :=
  Block.layOut_capacity hashes config nodeIds hierarchy accepted (by decide) build_eq distinct

end SampleHierarchy

end HeteroNetwork
