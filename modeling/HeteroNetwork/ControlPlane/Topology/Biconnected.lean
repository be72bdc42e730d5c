import HeteroNetwork.Lib.BlockRing
import HeteroNetwork.ControlPlane.Topology.Wiring

/-!
# The backbone survives every single failure

By induction over the tree of blocks, the members of every block are connected, also without any one of
them: a leaf of three or more nodes is a ring of single nodes, an internal block a ring of its children.
-/

namespace HeteroNetwork

open BlockRing hiding Part
open List

namespace Block

variable {hashes : TopologyHashes} {config : BoundedTopologyConfig} {nodeIds : List NodeId}
  {adjacency : Adjacency} {ports : Block → List TopologyRepresentative} {b c : Block}
  {n m : NodeId}

def carrier (b : Block) : Set NodeId := {n | n ∈ b.members}

variable (hashes config nodeIds) in
def wiredGraph (ports : Block → List TopologyRepresentative) : SimpleGraph NodeId :=
  ((leafAdjacency hashes config nodeIds).addEdges
    (allRingEdges hashes config nodeIds ports)).graph

lemma mem_leafAdjacency (hnodup : nodeIds.Nodup) :
    n ∈ leafAdjacency hashes config nodeIds ↔ n ∈ nodeIds := by
  rw [leafAdjacency, Adjacency.mem_addEdges, mem_emptyLayout hnodup]

lemma adj_of_mem_cycleEdges (hnodup : nodeIds.Nodup) (hb : b ∈ blocks hashes config (root nodeIds))
    (hleaf : children hashes config b = []) (hne : n ≠ m) (h : (n, m) ∈ cycleEdges b.members) :
    (wiredGraph hashes config nodeIds ports).Adj n m := by
  have hn := (mem_aroundTheRing (cycleEdges_subset h)).1
  rw [wiredGraph, Adjacency.graph, SimpleGraph.fromRel_adj]
  refine ⟨hne, Or.inl (Adjacency.mem_neighbors_addEdges.mpr (Or.inl ?_))⟩
  exact (mem_neighbors_leafAdjacency hnodup hb hleaf hn).mpr ⟨hne, Or.inl h⟩

lemma adj_of_mem_ringEdges (hnodup : nodeIds.Nodup) (hb : b ∈ blocks hashes config (root nodeIds))
    (hn : n ∈ nodeIds) (hne : n ≠ m) (h : (n, m) ∈ ringEdges hashes config ports b) :
    (wiredGraph hashes config nodeIds ports).Adj n m := by
  rw [wiredGraph, Adjacency.graph, SimpleGraph.fromRel_adj]
  refine ⟨hne, Or.inl (Adjacency.mem_neighbors_addEdges.mpr (Or.inr ⟨hne, ?_, Or.inl ?_⟩))⟩
  · exact (mem_leafAdjacency hnodup).mpr hn
  · have hsplit : children hashes config b ≠ [] := by
      intro hnil
      simp [ringEdges, hnil, aroundTheRing] at h
    refine mem_flatMap.mpr ⟨b, mem_filter.mpr ⟨mem_inOrder.mpr hb, ?_⟩, h⟩
    simpa using two_le_children hsplit

/-! ## Leaves -/

lemma next_ne {α : Type} {l : List α} (hnodup : l.Nodup) (htwo : 2 ≤ l.length) {i : ℕ}
    (hi : i < l.length) : l.get ⟨i, hi⟩ ≠ l.get ⟨(i + 1) % l.length, Nat.mod_lt _ (by omega)⟩ := by
  intro heq
  have hindex := (hnodup.get_inj_iff).mp heq
  simp only [Fin.mk.injEq] at hindex
  rcases Nat.lt_or_ge (i + 1) l.length with hlt | hge
  · rw [Nat.mod_eq_of_lt hlt] at hindex
    omega
  · have hlast : i + 1 = l.length := by omega
    rw [hlast, Nat.mod_self] at hindex
    omega

def single (n : NodeId) : BlockRing.Part NodeId := ⟨{n}, n, n⟩

lemma carriers_single (l : List NodeId) : carriers (l.map single) = {n | n ∈ l} := by
  ext n
  simp [carriers, single]

section

variable (hnodup : nodeIds.Nodup) (hb : b ∈ blocks hashes config (root nodeIds))
    (hleaf : children hashes config b = [])
include hnodup hb hleaf

lemma robust_cycle (hthree : 3 ≤ b.members.length) :
    Robust (wiredGraph hashes config nodeIds ports) b.carrier := by
  have hmembers := nodup_of_mem_blocks hnodup hb
  have hedges : cycleEdges b.members = aroundTheRing b.members := by
    rw [cycleEdges, if_neg (by omega), if_neg (by omega), take_of_length_le]
    simp [aroundTheRing]
  show Robust _ {n | n ∈ b.members}
  rw [← carriers_single]
  apply robust_of_ring
  · simp only [length_map]
    omega
  · intro p hp
    obtain ⟨n, -, rfl⟩ := mem_map.mp hp
    exact ⟨robust_singleton n, rfl, rfl, fun _ => rfl⟩
  · rw [pairwise_map]
    refine (nodup_iff_pairwise_ne.mp hmembers).imp fun hne => ?_
    exact Set.disjoint_singleton.mpr hne
  · intro i hi
    rw [length_map] at hi
    have hmem := getElem_mem_aroundTheRing b.members i hi
    have hne := next_ne hmembers (by omega) hi
    simp only [get_eq_getElem, getElem_map, length_map, single] at hmem hne ⊢
    rw [← hedges] at hmem
    exact adj_of_mem_cycleEdges hnodup hb hleaf hne hmem

lemma robust_leaf (hne : b.members ≠ []) :
    Robust (wiredGraph hashes config nodeIds ports) b.carrier := by
  match hmembers : b.members, hne with
  | [n], _ =>
    have hcarrier : b.carrier = {n} := by
      ext x
      simp [carrier, hmembers]
    rw [hcarrier]
    exact robust_singleton n
  | [n, m], _ =>
    have hcarrier : b.carrier = {n, m} := by
      ext x
      simp [carrier, hmembers]
    have hdistinct := nodup_of_mem_blocks hnodup hb
    rw [hmembers] at hdistinct
    rw [hcarrier]
    refine robust_pair (adj_of_mem_cycleEdges hnodup hb hleaf (by simpa using hdistinct) ?_)
    rw [hmembers]
    exact mem_cons_self
  | _ :: _ :: _ :: _, _ =>
    exact robust_cycle hnodup hb hleaf (by rw [hmembers]; simp)

end

def part (ports : Block → List TopologyRepresentative) (c : Block) : BlockRing.Part NodeId :=
  ⟨c.carrier, portFor ports 0 c, portFor ports 1 c⟩

lemma carriers_children (ports : Block → List TopologyRepresentative)
    (hsplit : children hashes config b ≠ []) :
    carriers ((children hashes config b).map (part ports)) = b.carrier := by
  ext n
  simp only [carriers, mem_map, Set.mem_ofPred_eq]
  constructor
  · rintro ⟨_, ⟨c, hc, rfl⟩, hn⟩
    exact mem_of_mem_child hc hn
  · intro hn
    obtain ⟨c, hc, hnc⟩ := exists_child_of_mem hsplit hn
    exact ⟨_, ⟨c, hc, rfl⟩, hnc⟩

/-- **Every block of a wired hierarchy survives the loss of any one member.** -/
theorem robust_block (hnodup : nodeIds.Nodup)
    (hchosen : ∀ d ∈ below hashes config (root nodeIds), Chosen hashes config adjacency ports d)
    (hb : b ∈ blocks hashes config (root nodeIds)) (hne : b.members ≠ []) :
    Robust (wiredGraph hashes config nodeIds ports) b.carrier := by
  induction b using tree_induction hashes config with
  | step b ih =>
    by_cases hsplit : children hashes config b = []
    · exact robust_leaf hnodup hb hsplit hne
    · have hchild : ∀ c ∈ children hashes config b,
          c ∈ blocks hashes config (root nodeIds) ∧ Chosen hashes config adjacency ports c := by
        intro c hc
        exact ⟨blocks_trans (mem_blocks_of_mem_children hc) hb,
          hchosen c (below_of_mem_children hc hb)⟩
      rw [← carriers_children ports hsplit]
      apply robust_of_ring
      · rw [length_map]
        exact two_le_children hsplit
      · intro p hp
        obtain ⟨c, hc, rfl⟩ := mem_map.mp hp
        obtain ⟨hmem, hc'⟩ := hchild c hc
        refine ⟨ih c hc hmem (mem_children hc).1, hc'.portFor_mem.1, hc'.portFor_mem.2, ?_⟩
        intro hports
        ext n
        show n ∈ c.members ↔ n ∈ ({portFor ports 0 c} : Set NodeId)
        rw [hc'.single hports]
        simp
      · rw [pairwise_map]
        refine (nodup_iff_pairwise_ne.mp (children_nodup hashes config b)).imp_of_mem ?_
        intro c d hc hd hne
        exact Set.disjoint_left.mpr fun n hnc hnd => hne (children_eq_of_mem hc hd hnc hnd)
      · intro i hi
        rw [length_map] at hi
        have hmem := getElem_mem_aroundTheRing (children hashes config b) i hi
        have hne := next_ne (children_nodup hashes config b) (two_le_children hsplit) hi
        obtain ⟨hsource, htarget⟩ := mem_aroundTheRing hmem
        have hexit := (hchild _ hsource).2.portFor_mem.2
        have hentry := (hchild _ htarget).2.portFor_mem.1
        simp only [get_eq_getElem] at hmem hne hexit hentry hsource htarget
        simp only [get_eq_getElem, getElem_map, length_map, part]
        refine adj_of_mem_ringEdges hnodup hb ?_ ?_ (mem_map.mpr ⟨_, hmem, rfl⟩)
        · exact mem_root.mp (mem_of_mem_blocks (hchild _ hsource).1 hexit)
        · intro heq
          rw [heq] at hexit
          exact hne (children_eq_of_mem hsource htarget hexit hentry)

end Block

end HeteroNetwork
