import HeteroNetwork.Lib.OrderedMap
import HeteroNetwork.ControlPlane.Topology.Layout

/-!
# Adjacency maps as graphs

What the maps of the synthesis say as a graph: the neighbours of a node in iteration order, the
undirected graph, and the effect of adding a list of edges on both and on the degree of a node.
-/

namespace HeteroNetwork

open Std

namespace Adjacency

variable {adjacency : Adjacency} {a b x y : NodeId} {edges : List (NodeId × NodeId)}

/-- `adjacency.get(node)` as the loops read it: in order, and nothing for an unknown node. -/
def neighbors (adjacency : Adjacency) (a : NodeId) : List NodeId :=
  (adjacency[a]?.map TreeSet.toList).getD []

lemma neighbors_nodup (adjacency : Adjacency) (a : NodeId) : (adjacency.neighbors a).Nodup := by
  unfold neighbors
  cases adjacency[a]? with
  | none => exact List.nodup_nil
  | some s => exact OrderedMap.nodup_toList s

lemma degree_eq_length (adjacency : Adjacency) (a : NodeId) :
    adjacency.degree a = (adjacency.neighbors a).length := by
  unfold degree neighbors
  cases adjacency[a]? with
  | none => rfl
  | some s => exact TreeSet.length_toList.symm

lemma mem_neighbors_iff : b ∈ adjacency.neighbors a ↔ ∃ s, adjacency[a]? = some s ∧ b ∈ s := by
  unfold neighbors
  cases adjacency[a]? with
  | none => simp
  | some s => simp [TreeSet.mem_toList]

lemma mem_of_mem_neighbors (h : b ∈ adjacency.neighbors a) : a ∈ adjacency := by
  obtain ⟨s, hs, -⟩ := mem_neighbors_iff.mp h
  rw [TreeMap.mem_iff_isSome_getElem?, hs]
  rfl

lemma degree_le_of_subset (names : List NodeId) (h : ∀ b ∈ adjacency.neighbors a, b ∈ names) :
    adjacency.degree a ≤ names.length := by
  rw [degree_eq_length]
  exact ((adjacency.neighbors_nodup a).subperm h).length_le

lemma degree_congr {other : Adjacency} (h : ∀ b, b ∈ adjacency.neighbors a ↔ b ∈ other.neighbors a) :
    adjacency.degree a = other.degree a := by
  rw [degree_eq_length, degree_eq_length]
  exact ((List.perm_ext_iff_of_nodup (adjacency.neighbors_nodup a)
    (other.neighbors_nodup a)).mpr h).length_eq

def graph (adjacency : Adjacency) : SimpleGraph NodeId :=
  SimpleGraph.fromRel fun a b => b ∈ adjacency.neighbors a

/-! ## Adding edges -/

lemma mem_neighbors_insertNeighbor :
    b ∈ (insertNeighbor adjacency x y).neighbors a ↔
      b ∈ adjacency.neighbors a ∨ a = x ∧ b = y ∧ x ∈ adjacency := by
  simp only [mem_neighbors_iff, insertNeighbor, TreeMap.getElem?_modify,
    LawfulEqOrd.compare_eq_iff_eq]
  by_cases hax : x = a
  · subst hax
    rw [if_pos rfl, TreeMap.mem_iff_isSome_getElem?]
    cases adjacency[x]? with
    | none => simp
    | some s => simp [TreeSet.mem_insert, or_comm, eq_comm (a := b)]
  · simp [hax, Ne.symm hax]

lemma mem_insertNeighbor : a ∈ insertNeighbor adjacency x y ↔ a ∈ adjacency :=
  TreeMap.mem_modify

lemma degree_insertNeighbor_le :
    (insertNeighbor adjacency x y).degree a ≤ adjacency.degree a + if x = a then 1 else 0 := by
  simp only [degree, insertNeighbor, TreeMap.getElem?_modify,
    LawfulEqOrd.compare_eq_iff_eq]
  split_ifs with hax
  · subst hax
    cases adjacency[x]? with
    | none => simp
    | some s => exact TreeSet.size_insert_le
  · exact le_rfl

lemma mem_addUndirectedEdge : a ∈ addUndirectedEdge adjacency x y ↔ a ∈ adjacency := by
  unfold addUndirectedEdge
  split_ifs with hxy
  · exact Iff.rfl
  · rw [mem_insertNeighbor, mem_insertNeighbor]

lemma mem_neighbors_addUndirectedEdge :
    b ∈ (addUndirectedEdge adjacency x y).neighbors a ↔
      b ∈ adjacency.neighbors a ∨ a ≠ b ∧ a ∈ adjacency ∧ ((a, b) = (x, y) ∨ (b, a) = (x, y)) := by
  unfold addUndirectedEdge
  split_ifs with hxy
  · subst hxy
    constructor
    · exact Or.inl
    · rintro (h | ⟨hne, -, heq | heq⟩)
      · exact h
      · simp only [Prod.mk.injEq] at heq
        exact absurd (heq.1.trans heq.2.symm) hne
      · simp only [Prod.mk.injEq] at heq
        exact absurd (heq.2.trans heq.1.symm) hne
  · rw [mem_neighbors_insertNeighbor, mem_neighbors_insertNeighbor, mem_insertNeighbor]
    simp only [Prod.mk.injEq]
    constructor
    · rintro ((h | ⟨rfl, rfl, h⟩) | ⟨rfl, rfl, h⟩)
      · exact Or.inl h
      · exact Or.inr ⟨hxy, h, Or.inl ⟨rfl, rfl⟩⟩
      · exact Or.inr ⟨Ne.symm hxy, h, Or.inr ⟨rfl, rfl⟩⟩
    · rintro (h | ⟨-, h, ⟨rfl, rfl⟩ | ⟨rfl, rfl⟩⟩)
      · exact Or.inl (Or.inl h)
      · exact Or.inl (Or.inr ⟨rfl, rfl, h⟩)
      · exact Or.inr ⟨rfl, rfl, h⟩

lemma degree_addUndirectedEdge_le :
    (addUndirectedEdge adjacency x y).degree a ≤
      adjacency.degree a + ((if x = a then 1 else 0) + if y = a then 1 else 0) := by
  unfold addUndirectedEdge
  by_cases hxy : x = y
  · rw [if_pos hxy]
    exact Nat.le_add_right _ _
  · rw [if_neg hxy]
    have hfirst : (insertNeighbor adjacency x y).degree a ≤ _ := degree_insertNeighbor_le
    have hsecond : (insertNeighbor (insertNeighbor adjacency x y) y x).degree a ≤ _ :=
      degree_insertNeighbor_le
    omega

def addEdges (adjacency : Adjacency) (edges : List (NodeId × NodeId)) : Adjacency :=
  edges.foldl (fun adjacency ends => addUndirectedEdge adjacency ends.1 ends.2) adjacency

lemma addEdges_concat (adjacency : Adjacency) (edges : List (NodeId × NodeId))
    (ends : NodeId × NodeId) :
    adjacency.addEdges (edges ++ [ends]) =
      addUndirectedEdge (adjacency.addEdges edges) ends.1 ends.2 := by
  simp [addEdges]

lemma mem_addEdges : a ∈ adjacency.addEdges edges ↔ a ∈ adjacency := by
  induction edges using List.reverseRecOn with
  | nil => exact Iff.rfl
  | append_singleton edges ends ih => rw [addEdges_concat, mem_addUndirectedEdge, ih]

lemma mem_neighbors_addEdges :
    b ∈ (adjacency.addEdges edges).neighbors a ↔
      b ∈ adjacency.neighbors a ∨ a ≠ b ∧ a ∈ adjacency ∧ ((a, b) ∈ edges ∨ (b, a) ∈ edges) := by
  induction edges using List.reverseRecOn with
  | nil => simp [addEdges]
  | append_singleton edges ends ih =>
    rw [addEdges_concat, mem_neighbors_addUndirectedEdge, ih, mem_addEdges]
    simp only [List.mem_append, List.mem_singleton]
    tauto

lemma degree_addEdges_le :
    (adjacency.addEdges edges).degree a ≤
      adjacency.degree a + ((edges.map Prod.fst).count a + (edges.map Prod.snd).count a) := by
  induction edges using List.reverseRecOn with
  | nil => simp [addEdges]
  | append_singleton edges ends ih =>
    rw [addEdges_concat]
    have hstep : (addUndirectedEdge (adjacency.addEdges edges) ends.1 ends.2).degree a ≤ _ :=
      degree_addUndirectedEdge_le
    simp only [List.map_append, List.map_cons, List.map_nil, List.count_append,
      List.count_singleton, beq_iff_eq]
    omega

lemma symmetric_addEdges (hkeys : ∀ e ∈ edges, e.1 ∈ adjacency ∧ e.2 ∈ adjacency)
    (hsymm : ∀ a b, b ∈ adjacency.neighbors a → a ∈ adjacency.neighbors b) (a b : NodeId)
    (h : b ∈ (adjacency.addEdges edges).neighbors a) : a ∈ (adjacency.addEdges edges).neighbors b := by
  rw [mem_neighbors_addEdges] at h ⊢
  rcases h with h | ⟨hne, -, hmem | hmem⟩
  · exact Or.inl (hsymm a b h)
  · exact Or.inr ⟨hne.symm, (hkeys _ hmem).2, Or.inr hmem⟩
  · exact Or.inr ⟨hne.symm, (hkeys _ hmem).1, Or.inl hmem⟩

end Adjacency

lemma Layout.adjacency_foldl_place (placement : TopologyEdgePlacement)
    (edges : List (NodeId × NodeId)) (layout : Layout) :
    (edges.foldl (fun layout ends => layout.place placement ends) layout).adjacency =
      layout.adjacency.addEdges edges := by
  induction edges generalizing layout with
  | nil => rfl
  | cons ends edges ih => exact ih _

end HeteroNetwork
