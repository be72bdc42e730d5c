import HeteroNetwork.Lib.NodeSplit
import HeteroNetwork.ControlPlane.Topology.Paths
import HeteroNetwork.ControlPlane.Topology.ResidualGraph

/-!
# Two paths that share nothing

`paths_from_primary` first looks for a second path around the one it has.  Where that path is in the
way of every other, `two_internally_vertex_disjoint_paths` computes both at once, as a flow of two units
over the backbone with every node split in two.
-/

namespace HeteroNetwork

open Std OrderedMap NodeSplit List UnitFlow TopologyEdge

open Search (Trail)

def inIndex (index : ℕ) : ℕ := index * 2

def outIndex (index : ℕ) : ℕ := index * 2 + 1

def addLinks (indexes : Std.TreeMap NodeId ℕ) (sourceIndex destinationIndex : ℕ) (graph : ResidualGraph)
    (entry : NodeId × Std.TreeSet NodeId) : Option ResidualGraph :=
  match indexes[entry.1]? with
  | none => none
  | some fromIndex =>
    if fromIndex = destinationIndex then some graph
    else entry.2.toList.foldlM (fun graph neighbor =>
      match indexes[neighbor]? with
      | none => none
      | some toIndex =>
        if toIndex = sourceIndex then some graph
        else some (addResidualEdge graph (outIndex fromIndex) (inIndex toIndex) 1)) graph

def splitGraph (adjacency : Adjacency) (indexes : Std.TreeMap NodeId ℕ)
    (sourceIndex destinationIndex : ℕ) : Option ResidualGraph :=
  adjacency.toList.foldlM (addLinks indexes sourceIndex destinationIndex)
    ((List.range adjacency.keys.length).foldl
      (fun graph index =>
        if index ≠ sourceIndex ∧ index ≠ destinationIndex then
          addResidualEdge graph (inIndex index) (outIndex index) 1
        else graph)
      (List.replicate (adjacency.keys.length * 2) []))

def nodePath (nodeIds : List NodeId) (source : NodeId) (flowPath : List ℕ) : List NodeId :=
  source :: (flowPath.zip flowPath.tail).filterMap fun networkEdge =>
    if networkEdge.1 % 2 = 1 ∧ networkEdge.2 % 2 = 0 then nodeIds[networkEdge.2 / 2]? else none

def takeNodePath (nodeIds : List NodeId) (source destination : NodeId) (graph : ResidualGraph)
    (remaining : List (List ℕ)) (flowSource flowSink : ℕ) : Option (List NodeId × List (List ℕ)) :=
  match extractFlowPath graph remaining flowSource flowSink with
  | none => none
  | some (flowPath, remaining) =>
    if (nodePath nodeIds source flowPath).getLast? = some destination then
      some (nodePath nodeIds source flowPath, remaining)
    else none

def shorterFirst (left right : List NodeId) : Prop :=
  left.length < right.length ∨ left.length = right.length ∧ left ≤ right

instance : DecidableRel shorterFirst := fun left right => by
  unfold shorterFirst
  infer_instance

def twoInternallyVertexDisjointPaths (adjacency : Adjacency) (source destination : NodeId) :
    Option (List NodeId × List NodeId) :=
  if source = destination ∨ adjacency.size < 3 then none
  else do
    let nodeIds := adjacency.keys
    let indexes := routingIndexes nodeIds
    let sourceIndex ← indexes[source]?
    let destinationIndex ← indexes[destination]?
    let graph ← splitGraph adjacency indexes sourceIndex destinationIndex
    let flowSource := outIndex sourceIndex
    let flowSink := inIndex destinationIndex
    let graph ← augmentUnitFlow graph flowSource flowSink
    let graph ← augmentUnitFlow graph flowSource flowSink
    let (first, remaining) ←
      takeNodePath nodeIds source destination graph (remainingFlow graph) flowSource flowSink
    let (second, _) ← takeNodePath nodeIds source destination graph remaining flowSource flowSink
    match ([first, second].insertionSort shorterFirst).reverse with
    | secondary :: primary :: _ => some (primary, secondary)
    | _ => none

namespace BoundedTopology

variable (t : BoundedTopology)

def secondaryPath (source destination : NodeId) (primary : List NodeId) : Option SecondaryPath :=
  match t.shortestPathAvoiding source destination (.ofList (internalNodes primary))
      (pathEdges primary) with
  | some nodes => some ⟨.vertexDisjoint, nodes⟩
  | none => (t.shortestPathAvoiding source destination ∅ (pathEdges primary)).map
      (SecondaryPath.mk .edgeDisjoint)

def pathsFromPrimary (source destination : NodeId) (primary : List NodeId) : TopologyPaths :=
  if source = destination then ⟨primary, none⟩
  else
    let secondary := t.secondaryPath source destination primary
    if secondary.any fun path => path.kind = .vertexDisjoint then ⟨primary, secondary⟩
    else match twoInternallyVertexDisjointPaths t.adjacency source destination with
      | some (primary, secondary) => ⟨primary, some ⟨.vertexDisjoint, secondary⟩⟩
      | none => ⟨primary, secondary⟩

def uncachedPaths (source destination : NodeId) : Option TopologyPaths :=
  (t.shortestPath source destination).map (t.pathsFromPrimary source destination)

end BoundedTopology

/-! ## Positions -/

section Positions

variable {nodeIds : List NodeId} {a b : NodeId} {i j : ℕ}

lemma getElem?_routingIndexes (hnodup : nodeIds.Nodup) :
    (routingIndexes nodeIds)[a]? = some i ↔ nodeIds[i]? = some a := by
  rw [routingIndexes, getElem?_ofList (by rwa [zipIdx_map_fst]),
    mem_zipIdx_iff_getElem?]

lemma routingIndexes_of_mem (hnodup : nodeIds.Nodup) (ha : a ∈ nodeIds) :
    (routingIndexes nodeIds)[a]? = some (nodeIds.idxOf a) :=
  (getElem?_routingIndexes hnodup).mpr (getElem?_idxOf ha)

lemma idxOf_eq_iff (hnodup : nodeIds.Nodup) (ha : a ∈ nodeIds) :
    nodeIds.idxOf a = i ↔ nodeIds[i]? = some a := by
  rw [← getElem?_routingIndexes hnodup, routingIndexes_of_mem hnodup ha, Option.some.injEq]

end Positions

/-! ## The split graph -/

section SplitGraph

variable {adjacency : Adjacency} {s d : ℕ}

def Linked (adjacency : Adjacency) (i j : ℕ) : Prop :=
  ∃ a b, adjacency.keys[i]? = some a ∧ adjacency.keys[j]? = some b ∧ b ∈ adjacency.neighbors a

lemma foldlM_eq_some {α β : Type} {f : β → α → Option β} {g : β → α → β} {l : List α}
    (h : ∀ x ∈ l, ∀ acc, f acc x = some (g acc x)) (acc : β) :
    l.foldlM f acc = some (l.foldl g acc) := by
  induction l generalizing acc with
  | nil => rfl
  | cons x l ih =>
    rw [foldlM_cons, h x mem_cons_self, foldl_cons]
    exact ih (fun y hy => h y (mem_cons_of_mem _ hy)) _

def linkPairs (adjacency : Adjacency) : List (NodeId × NodeId) :=
  adjacency.toList.flatMap fun entry => entry.2.toList.map fun neighbor => (entry.1, neighbor)

lemma mem_linkPairs {a b : NodeId} : (a, b) ∈ linkPairs adjacency ↔ b ∈ adjacency.neighbors a := by
  simp only [linkPairs, mem_flatMap, mem_map, Prod.mk.injEq, Prod.exists,
    TreeMap.mem_toList_iff_getElem?_eq_some, TreeSet.mem_toList, Adjacency.mem_neighbors_iff]
  constructor
  · rintro ⟨a', set, hset, b', hb, rfl, rfl⟩
    exact ⟨set, hset, hb⟩
  · rintro ⟨set, hset, hb⟩
    exact ⟨a, set, hset, b, hb, rfl, rfl⟩

lemma nodup_linkPairs (adjacency : Adjacency) : (linkPairs adjacency).Nodup := by
  refine nodup_flatMap.mpr ⟨fun entry _ => ?_, ?_⟩
  · exact (nodup_toList entry.2).map fun b c heq => (Prod.mk.inj heq).2
  · refine TreeMap.distinct_keys_toList.imp fun {x y} hne => ?_
    rintro ⟨a, b⟩ hx hy
    obtain ⟨_, -, hx⟩ := mem_map.mp hx
    obtain ⟨_, -, hy⟩ := mem_map.mp hy
    refine hne ?_
    rw [(Prod.mk.inj hx).1, (Prod.mk.inj hy).1]
    exact ReflCmp.compare_self

def throughArcs (n s d : ℕ) : List (ℕ × ℕ) :=
  ((List.range n).filter fun i => i ≠ s ∧ i ≠ d).map fun i => (i * 2, i * 2 + 1)

def alongArcs (adjacency : Adjacency) (s d : ℕ) : List (ℕ × ℕ) :=
  ((linkPairs adjacency).filter fun pair =>
    adjacency.keys.idxOf pair.1 ≠ d ∧ adjacency.keys.idxOf pair.2 ≠ s).map fun pair =>
      (adjacency.keys.idxOf pair.1 * 2 + 1, adjacency.keys.idxOf pair.2 * 2)

lemma splitGraph_eq (h : adjacency.Undirected) :
    splitGraph adjacency (routingIndexes adjacency.keys) s d =
      some ((throughArcs adjacency.keys.length s d ++ alongArcs adjacency s d).foldl
        (fun graph arc => addResidualEdge graph arc.1 arc.2 1)
        (List.replicate (adjacency.keys.length * 2) [])) := by
  have hnodup := nodup_keys adjacency
  have hindex : ∀ a ∈ adjacency,
      (routingIndexes adjacency.keys)[a]? = some (adjacency.keys.idxOf a) :=
    fun a ha => routingIndexes_of_mem hnodup (TreeMap.mem_keys.mpr ha)
  have hlinks : ∀ entry ∈ adjacency.toList, ∀ graph,
      addLinks (routingIndexes adjacency.keys) s d graph entry =
        some ((entry.2.toList.map fun neighbor => (entry.1, neighbor)).foldl (fun graph pair =>
          if adjacency.keys.idxOf pair.1 ≠ d ∧ adjacency.keys.idxOf pair.2 ≠ s then
            addResidualEdge graph (adjacency.keys.idxOf pair.1 * 2 + 1)
              (adjacency.keys.idxOf pair.2 * 2) 1
          else graph) graph) := by
    rintro ⟨a, set⟩ hentry graph
    have hset := TreeMap.mem_toList_iff_getElem?_eq_some.mp hentry
    rw [addLinks, hindex a (mem_of_getElem? hset), foldl_map]
    dsimp only
    by_cases had : adjacency.keys.idxOf a = d
    · rw [if_pos had]
      simp [had]
    · rw [if_neg had]
      refine foldlM_eq_some (fun b hb graph => ?_) graph
      have hneighbor : b ∈ adjacency.neighbors a :=
        Adjacency.mem_neighbors_iff.mpr ⟨set, hset, TreeSet.mem_toList.mp hb⟩
      rw [hindex b (h.mem_of_adj (h.adj_iff.mpr hneighbor))]
      by_cases hbs : adjacency.keys.idxOf b = s
      · simp [hbs]
      · simp [hbs, had, inIndex, outIndex]
  rw [splitGraph, foldlM_eq_some hlinks, foldl_append, throughArcs, alongArcs, foldl_map,
    foldl_map, foldl_filter, foldl_filter, linkPairs, foldl_flatMap]
  simp [inIndex, outIndex]

lemma mem_alongArcs (h : adjacency.Undirected) {u v : ℕ} : (u, v) ∈ alongArcs adjacency s d ↔
    ∃ i j, Linked adjacency i j ∧ i ≠ d ∧ j ≠ s ∧ u = i * 2 + 1 ∧ v = j * 2 := by
  have hnodup := nodup_keys adjacency
  simp only [alongArcs, mem_map, mem_filter, Prod.exists, mem_linkPairs, decide_eq_true_eq,
    Prod.mk.injEq]
  constructor
  · rintro ⟨a, b, ⟨hab, had, hbs⟩, rfl, rfl⟩
    have ha := TreeMap.mem_keys.mpr (Adjacency.mem_of_mem_neighbors hab)
    have hb := TreeMap.mem_keys.mpr (h.mem_of_adj (h.adj_iff.mpr hab))
    exact ⟨_, _, ⟨a, b, getElem?_idxOf ha, getElem?_idxOf hb, hab⟩, had, hbs, rfl, rfl⟩
  · rintro ⟨i, j, ⟨a, b, ha, hb, hab⟩, hid, hjs, rfl, rfl⟩
    obtain rfl := (idxOf_eq_iff hnodup (mem_of_getElem? ha)).mpr ha
    obtain rfl := (idxOf_eq_iff hnodup (mem_of_getElem? hb)).mpr hb
    exact ⟨a, b, ⟨hab, hid, hjs⟩, rfl, rfl⟩

lemma mem_throughArcs {n u v : ℕ} : (u, v) ∈ throughArcs n s d ↔
    ∃ i, i < n ∧ i ≠ s ∧ i ≠ d ∧ u = i * 2 ∧ v = i * 2 + 1 := by
  simp only [throughArcs, mem_map, mem_filter, mem_range, decide_eq_true_eq,
    Prod.mk.injEq]
  constructor
  · rintro ⟨i, ⟨hi, his, hid⟩, rfl, rfl⟩
    exact ⟨i, hi, his, hid, rfl, rfl⟩
  · rintro ⟨i, hi, his, hid, rfl, rfl⟩
    exact ⟨i, ⟨hi, his, hid⟩, rfl, rfl⟩

lemma Linked.inside {i j : ℕ} (h : Linked adjacency i j) :
    i < adjacency.keys.length ∧ j < adjacency.keys.length := by
  obtain ⟨a, b, ha, hb, -⟩ := h
  exact ⟨(List.getElem?_eq_some_iff.mp ha).1, (List.getElem?_eq_some_iff.mp hb).1⟩

lemma Linked.ne (h : adjacency.Undirected) {i j : ℕ} (hij : Linked adjacency i j) : i ≠ j := by
  rintro rfl
  obtain ⟨a, b, ha, hb, hab⟩ := hij
  obtain rfl := Option.some.inj (ha.symm.trans hb)
  exact h.loopless a hab

lemma splitGraph_spec (h : adjacency.Undirected) (s d : ℕ) :
    ∃ graph A, splitGraph adjacency (routingIndexes adjacency.keys) s d = some graph ∧
      StoresFlow graph A ∅ ∧ graph.length = adjacency.keys.length * 2 ∧
      Splits A (Linked adjacency) adjacency.keys.length s d := by
  have hnodup := nodup_keys adjacency
  have hmem : ∀ u v, (u, v) ∈ throughArcs adjacency.keys.length s d ++ alongArcs adjacency s d ↔
      (∃ i, i < adjacency.keys.length ∧ i ≠ s ∧ i ≠ d ∧ u = i * 2 ∧ v = i * 2 + 1) ∨
        ∃ i j, Linked adjacency i j ∧ i ≠ d ∧ j ≠ s ∧ u = i * 2 + 1 ∧ v = j * 2 := by
    intro u v
    rw [mem_append, mem_throughArcs, mem_alongArcs h]
  have hdistinct : (throughArcs adjacency.keys.length s d ++ alongArcs adjacency s d).Nodup := by
    refine nodup_append.mpr ⟨?_, ?_, ?_⟩
    · refine (nodup_range.filter _).map fun i j heq => ?_
      have := (Prod.mk.inj heq).1
      omega
    · refine ((nodup_linkPairs adjacency).filter _).map_on ?_
      rintro ⟨a, b⟩ hab ⟨a', b'⟩ hab' heq
      have hab := mem_linkPairs.mp (mem_of_mem_filter hab)
      have hab' := mem_linkPairs.mp (mem_of_mem_filter hab')
      obtain ⟨hfirst, hsecond⟩ := Prod.mk.inj heq
      have hkey : ∀ {x y : NodeId}, x ∈ adjacency → y ∈ adjacency →
          adjacency.keys.idxOf x = adjacency.keys.idxOf y → x = y := by
        intro x y hx hy hxy
        have hx := getElem?_idxOf (TreeMap.mem_keys.mpr hx)
        have hy := getElem?_idxOf (TreeMap.mem_keys.mpr hy)
        rw [hxy] at hx
        exact Option.some.inj (hx.symm.trans hy)
      dsimp only at hfirst hsecond
      have ha : a = a' := hkey (Adjacency.mem_of_mem_neighbors hab)
        (Adjacency.mem_of_mem_neighbors hab') (by omega)
      have hb : b = b' := hkey (h.mem_of_adj (h.adj_iff.mpr hab))
        (h.mem_of_adj (h.adj_iff.mpr hab')) (by omega)
      rw [ha, hb]
    · rintro ⟨u, v⟩ hthrough _ halong rfl
      obtain ⟨i, -, -, -, rfl, rfl⟩ := mem_throughArcs.mp hthrough
      obtain ⟨i', j', -, -, -, hu, -⟩ := (mem_alongArcs h).mp halong
      omega
  refine ⟨_, _, splitGraph_eq h, storesFlow_foldl (storesFlow_empty _) hdistinct ?_ (by simp) ?_, ?_, ?_⟩
  · rintro ⟨u, v⟩ harc
    rw [length_replicate]
    rcases (hmem u v).mp harc with ⟨i, hi, -, -, rfl, rfl⟩ | ⟨i, j, hij, -, -, rfl, rfl⟩
    · exact ⟨by omega, by omega⟩
    · have := hij.inside
      exact ⟨by omega, by omega⟩
  · -- an arc and its reverse would join a node to itself
    rintro ⟨u, v⟩ harc hswap
    rcases (hmem u v).mp harc with ⟨i, -, -, -, rfl, rfl⟩ | ⟨i, j, hij, -, -, rfl, rfl⟩ <;>
      rcases (hmem _ _).mp hswap with ⟨i', -, -, -, hu, hv⟩ | ⟨i', j', hij', -, -, hu, hv⟩
    · omega
    · exact hij'.ne h (by omega)
    · exact hij.ne h (by omega)
    · omega
  · have hlength : ∀ (l : List (ℕ × ℕ)) (graph : ResidualGraph),
        (l.foldl (fun graph arc => addResidualEdge graph arc.1 arc.2 1) graph).length =
          graph.length := by
      intro l
      induction l with
      | nil => exact fun graph => rfl
      | cons arc l ih =>
        intro graph
        rw [foldl_cons, ih, addResidualEdge, ResidualGraph.length_pushEdge,
          ResidualGraph.length_pushEdge]
    rw [hlength, length_replicate]
  · intro u v
    rw [Finset.empty_union, mem_toFinset]
    exact hmem u v

end SplitGraph

/-! ## Two units of flow -/

structure SimpleWalk (adjacency : Adjacency) (source destination : NodeId) (walk : List NodeId) :
    Prop where
  starts : walk.head? = some source
  ends : walk.getLast? = some destination
  linked : walk.IsChain fun a b => b ∈ adjacency.neighbors a
  nodup : walk.Nodup

/-- Two walks that share their ends and nothing else. -/
structure DisjointWalks (adjacency : Adjacency) (source destination : NodeId) (p q : List NodeId) :
    Prop where
  first : SimpleWalk adjacency source destination p
  second : SimpleWalk adjacency source destination q
  nodes : ∀ n ∈ p, n ∈ q → n = source ∨ n = destination
  edges : ∀ edge ∈ pathEdges p, edge ∉ pathEdges q

section Flow

variable {adjacency : Adjacency} {source destination : NodeId} {s d : ℕ} {p q : List NodeId}

lemma DisjointWalks.symm (h : DisjointWalks adjacency source destination p q) :
    DisjointWalks adjacency source destination q p :=
  ⟨h.second, h.first, fun n hq hp => h.nodes n hp hq, fun edge hq hp => h.edges edge hp hq⟩

lemma mem_pathEdges {edge : TopologyEdge} : edge ∈ pathEdges p ↔
    ∃ a b, (a, b) ∈ arcs p ∧ new a b = some edge := by
  rw [pathEdges, TreeSet.mem_ofList, contains_iff_mem, mem_filterMap]
  simp [arcs]

lemma TopologyEdge.ends {a b a' b' : NodeId} {edge : TopologyEdge} (h : new a b = some edge)
    (h' : new a' b' = some edge) : (a' = a ∧ b' = b) ∨ (a' = b ∧ b' = a) := by
  have hends : ∀ {x y : NodeId}, new x y = some edge →
      (x = edge.first ∧ y = edge.second) ∨ (x = edge.second ∧ y = edge.first) := by
    intro x y hxy
    unfold new at hxy
    split_ifs at hxy
    · exact .inl (by simp [← Option.some.inj hxy])
    · exact .inr (by simp [← Option.some.inj hxy])
  rcases hends h with ⟨rfl, rfl⟩ | ⟨rfl, rfl⟩ <;> rcases hends h' with ⟨rfl, rfl⟩ | ⟨rfl, rfl⟩ <;> simp

lemma robust_linked (h : adjacency.Undirected) (hthree : 3 ≤ adjacency.size)
    (hsurvives : ∀ z, (adjacency.graph.induce (adjacency.nodes \ {z})).Preconnected) :
    Robust (Linked adjacency) adjacency.keys.length := by
  have hnodup := nodup_keys adjacency
  refine ⟨fun i j hij => hij.inside, fun i j => ?_, fun x hx i hi j hj hix hjx => ?_⟩
  · obtain ⟨z, hz⟩ : ∃ z ∈ Finset.range adjacency.keys.length, z ∉ ({i, j} : Finset ℕ) := by
      refine Finset.exists_mem_notMem_of_card_lt_card ?_
      rw [Finset.card_range, TreeMap.length_keys]
      exact Finset.card_le_two.trans_lt hthree
    simp only [Finset.mem_range, Finset.mem_insert, Finset.mem_singleton, not_or] at hz
    exact ⟨z, hz⟩
  · -- a walk around the node at `x`, followed by position
    have hat : ∀ k (hk : k < adjacency.keys.length),
        adjacency.keys[k] ∈ adjacency.nodes ∧ (k ≠ x → adjacency.keys[k] ≠ adjacency.keys[x]) :=
      fun k hk => ⟨TreeMap.mem_keys.mp (getElem_mem hk),
        fun hne heq => hne ((hnodup.getElem_inj_iff).mp heq)⟩
    have hreach := LowLink.preconnected_induce_iff.mp (hsurvives adjacency.keys[x])
      adjacency.keys[i] ⟨(hat i hi).1, (hat i hi).2 hix⟩ adjacency.keys[j]
      ⟨(hat j hj).1, (hat j hj).2 hjx⟩
    have hwalk : ∀ w, LowLink.ReachIn adjacency.graph (adjacency.nodes \ {adjacency.keys[x]})
        adjacency.keys[i] w → ∀ k, adjacency.keys[k]? = some w →
        Relation.ReflTransGen (fun a b => Linked adjacency a b ∧ a ≠ x ∧ b ≠ x) i k := by
      intro w hw
      induction hw with
      | refl =>
        intro k hk
        obtain ⟨hlt, heq⟩ := List.getElem?_eq_some_iff.mp hk
        rw [hnodup.getElem_inj_iff.mp heq]
      | @tail a b _ hab ih =>
        intro k hk
        obtain ⟨ha, hb, hadj⟩ := hab
        obtain ⟨l, hl⟩ := mem_iff_getElem?.mp (TreeMap.mem_keys.mpr ha.1)
        have hx : adjacency.keys[x]? = some adjacency.keys[x] := getElem?_eq_getElem hx
        refine (ih l hl).tail ⟨⟨a, b, hl, hk, h.adj_iff.mp hadj⟩, ?_, ?_⟩
        · rintro rfl
          exact ha.2 (Option.some.inj (hl.symm.trans hx))
        · rintro rfl
          exact hb.2 (Option.some.inj (hk.symm.trans hx))
    exact hwalk _ hreach j (getElem?_eq_getElem hj)

section Names

variable {A : Finset (ℕ × ℕ)} {path other : List ℕ}
  (hsplits : NodeSplit.Splits A (Linked adjacency) adjacency.keys.length s d)
  (hs : adjacency.keys[s]? = some source) (hd : adjacency.keys[d]? = some destination)
  (hpath : Trail (fun u v => (u, v) ∈ A) (s * 2 + 1) (d * 2) path) (hdistinct : path.Nodup)

include hsplits hpath hdistinct hs in
lemma lt_of_mem_nodes {i : ℕ} (hi : i ∈ nodes s path) : i < adjacency.keys.length := by
  have htrail := (trail_nodes hsplits hpath hdistinct).1
  exact htrail.forall_mem (List.getElem?_eq_some_iff.mp hs).1 (fun i j hij => hij.1.inside.2) i hi

include hsplits hpath hdistinct hs in
lemma nodePath_eq : nodePath adjacency.keys source path =
    (nodes s path).map fun i => adjacency.keys.getD i source := by
  rw [nodePath, nodes, map_cons, map_filterMap]
  congr 1
  · rw [getD_eq_getElem?_getD, hs, Option.getD_some]
  · refine filterMap_congr fun arc harc => ?_
    rw [entered]
    split_ifs with hparity
    · have hmem : arc.2 / 2 ∈ nodes s path := by
        refine mem_nodes.mpr (.inr ⟨arc.1 / 2, ?_⟩)
        have hfirst : arc.1 / 2 * 2 + 1 = arc.1 := by omega
        have hsecond : arc.2 / 2 * 2 = arc.2 := by omega
        rw [hfirst, hsecond]
        exact harc
      have hlt := lt_of_mem_nodes hsplits hs hpath hdistinct hmem
      rw [Option.map_some, getD_eq_getElem?_getD, getElem?_eq_getElem hlt,
        Option.getD_some]
    · rfl

lemma getD_inj {i j : ℕ} (hi : i < adjacency.keys.length) (hj : j < adjacency.keys.length)
    (h : adjacency.keys.getD i source = adjacency.keys.getD j source) : i = j := by
  rw [getD_eq_getElem _ _ hi, getD_eq_getElem _ _ hj] at h
  exact (nodup_keys adjacency).getElem_inj_iff.mp h

include hsplits hpath hdistinct hs hd in
lemma simpleWalk_nodePath : SimpleWalk adjacency source destination
    (nodePath adjacency.keys source path) := by
  obtain ⟨htrail, hnodup⟩ := trail_nodes hsplits hpath hdistinct
  rw [nodePath_eq hsplits hs hpath hdistinct]
  have hhalf : d * 2 / 2 = d := by omega
  rw [hhalf] at htrail
  have hnamed : Trail (fun a b => b ∈ adjacency.neighbors a) (adjacency.keys.getD s source)
      (adjacency.keys.getD d source)
      ((nodes s path).map fun i => adjacency.keys.getD i source) := by
    refine htrail.map (fun i => adjacency.keys.getD i source) ?_
    rintro i j ⟨⟨a, b, ha, hb, hab⟩, -⟩
    rwa [getD_eq_getElem?_getD, ha, getD_eq_getElem?_getD, hb]
  rw [getD_eq_getElem?_getD, hs, getD_eq_getElem?_getD, hd] at hnamed
  refine ⟨hnamed.head, hnamed.last, hnamed.chain, hnodup.map_on fun i hi j hj heq => ?_⟩
  exact getD_inj (lt_of_mem_nodes hsplits hs hpath hdistinct hi)
    (lt_of_mem_nodes hsplits hs hpath hdistinct hj) heq

include hsplits hpath hdistinct hs in
lemma exists_arc_of_pathEdge {edge : TopologyEdge}
    (h : edge ∈ pathEdges (nodePath adjacency.keys source path)) :
    ∃ i j, i ∈ nodes s path ∧ j ∈ nodes s path ∧
      (i * 2 + 1, j * 2) ∈ arcs path ∧
      new (adjacency.keys.getD i source) (adjacency.keys.getD j source) = some edge := by
  obtain ⟨a, b, hab, hedge⟩ := mem_pathEdges.mp h
  rw [nodePath_eq hsplits hs hpath hdistinct, arcs_map] at hab
  obtain ⟨⟨i, j⟩, hij, heq⟩ := mem_map.mp hab
  obtain ⟨rfl, rfl⟩ := Prod.mk.inj heq
  have htrail := (trail_nodes hsplits hpath hdistinct).1
  exact ⟨i, j, (mem_of_mem_arcs hij).1, (mem_of_mem_arcs hij).2,
    (step_of_mem_arcs htrail hij).2, hedge⟩

include hsplits hpath hdistinct hs hd in
lemma disjointWalks_nodePath (hother : Trail (fun u v => (u, v) ∈ A) (s * 2 + 1) (d * 2) other)
    (hdistinct' : other.Nodup) (hdisjoint : ∀ arc ∈ arcs path, arc ∉ arcs other) :
    DisjointWalks adjacency source destination (nodePath adjacency.keys source path)
      (nodePath adjacency.keys source other) := by
  refine ⟨simpleWalk_nodePath hsplits hs hd hpath hdistinct,
    simpleWalk_nodePath hsplits hs hd hother hdistinct', ?_, ?_⟩
  · intro n hn hn'
    rw [nodePath_eq hsplits hs hpath hdistinct] at hn
    rw [nodePath_eq hsplits hs hother hdistinct'] at hn'
    obtain ⟨i, hi, rfl⟩ := mem_map.mp hn
    obtain ⟨j, hj, heq⟩ := mem_map.mp hn'
    obtain rfl := getD_inj (lt_of_mem_nodes hsplits hs hother hdistinct' hj)
      (lt_of_mem_nodes hsplits hs hpath hdistinct hi) heq
    rcases nodes_disjoint hsplits hpath hother hdisjoint hi hj with rfl | rfl
    · exact .inl (by rw [getD_eq_getElem?_getD, hs, Option.getD_some])
    · exact .inr (by rw [getD_eq_getElem?_getD, hd, Option.getD_some])
  · intro edge hedge hedge'
    obtain ⟨i, j, hi, hj, hij, hends⟩ := exists_arc_of_pathEdge hsplits hs hpath hdistinct hedge
    obtain ⟨i', j', hi', hj', hij', hends'⟩ :=
      exists_arc_of_pathEdge hsplits hs hother hdistinct' hedge'
    have hlt : ∀ {k}, k ∈ nodes s path → k < adjacency.keys.length :=
      fun hk => lt_of_mem_nodes hsplits hs hpath hdistinct hk
    have hlt' : ∀ {k}, k ∈ nodes s other → k < adjacency.keys.length :=
      fun hk => lt_of_mem_nodes hsplits hs hother hdistinct' hk
    rcases ends hends hends' with ⟨hfirst, hsecond⟩ | ⟨hfirst, hsecond⟩
    · obtain rfl := getD_inj (hlt' hi') (hlt hi) hfirst
      obtain rfl := getD_inj (hlt' hj') (hlt hj) hsecond
      exact hdisjoint _ hij hij'
    · obtain rfl := getD_inj (hlt' hi') (hlt hj) hfirst
      obtain rfl := getD_inj (hlt' hj') (hlt hi) hsecond
      exact (steps_disjoint hsplits hpath hother hdisjoint hij hi hj').2 hij'

end Names

lemma exists_augment {graph : ResidualGraph} {A F : Finset (ℕ × ℕ)} {k : ℤ}
    (hsplits : Splits A (Linked adjacency) adjacency.keys.length s d)
    (hrobust : Robust (Linked adjacency) adjacency.keys.length)
    (hs : s < adjacency.keys.length) (hd : d < adjacency.keys.length) (hsd : s ≠ d)
    (hlength : graph.length = adjacency.keys.length * 2) (hstores : StoresFlow graph A F)
    (hcarries : Carries F (outIndex s) (inIndex d) k) (hk : k ≤ 1) :
    ∃ graph' F', augmentUnitFlow graph (outIndex s) (inIndex d) = some graph' ∧
      graph'.length = adjacency.keys.length * 2 ∧ StoresFlow graph' A F' ∧
      Carries F' (outIndex s) (inIndex d) (k + 1) := by
  have hends : outIndex s ≠ inIndex d := by
    simp only [outIndex, inIndex]
    omega
  have hstart : outIndex s < graph.length := by
    rw [hlength, outIndex]
    omega
  rcases augmentUnitFlow_spec hstores hstart hends with
    ⟨graph', trail, haugment, hsame, htrail, hnodup, hstores'⟩ | ⟨-, R, hS, hT, hclosed⟩
  · exact ⟨graph', _, haugment, hsame.trans hlength, hstores', hcarries.pushTrail hstores.flow htrail hnodup⟩
  · exact (no_cut hsplits hrobust hs hd hsd hstores.flow hcarries hk hS hT hclosed).elim

lemma exists_takeNodePath {graph : ResidualGraph} {A F G : Finset (ℕ × ℕ)} {k : ℤ}
    {remaining : List (List ℕ)} (hsplits : Splits A (Linked adjacency) adjacency.keys.length s d)
    (hs : adjacency.keys[s]? = some source) (hd : adjacency.keys[d]? = some destination)
    (hlength : graph.length = adjacency.keys.length * 2) (hstores : StoresFlow graph A F)
    (hsub : G ⊆ A) (hremains : Remains graph remaining G)
    (hcarries : Carries G (outIndex s) (inIndex d) k) (hk : 0 < k) :
    ∃ path remaining', takeNodePath adjacency.keys source destination graph remaining (outIndex s)
        (inIndex d) = some (nodePath adjacency.keys source path, remaining') ∧
      Trail (fun u v => (u, v) ∈ G) (s * 2 + 1) (d * 2) path ∧ path.Nodup ∧
      Remains graph remaining' (dropTrail G path) ∧
      Carries (dropTrail G path) (outIndex s) (inIndex d) (k - 1) := by
  have hends : outIndex s ≠ inIndex d := by
    simp only [outIndex, inIndex]
    omega
  have hstart : outIndex s < graph.length := by
    have := (List.getElem?_eq_some_iff.mp hs).1
    rw [hlength, outIndex]
    omega
  obtain ⟨path, remaining', hextract, htrail, hnodup, hremains'⟩ :=
    extractFlowPath_spec hstores hremains hsub hstart hends hcarries hk
  have hwalk := simpleWalk_nodePath hsplits hs hd (htrail.mono fun u _ v _ huv => hsub huv) hnodup
  refine ⟨path, remaining', ?_, htrail, hnodup, hremains', hcarries.dropTrail htrail hnodup⟩
  rw [takeNodePath, hextract]
  exact if_pos hwalk.ends

/-- **`two_internally_vertex_disjoint_paths` succeeds on every backbone without cut nodes.** -/
theorem twoInternallyVertexDisjointPaths_spec (h : adjacency.Undirected) (hthree : 3 ≤ adjacency.size)
    (hsurvives : ∀ z, (adjacency.graph.induce (adjacency.nodes \ {z})).Preconnected)
    (hsource : source ∈ adjacency) (hdest : destination ∈ adjacency) (hne : source ≠ destination) :
    ∃ primary secondary,
      twoInternallyVertexDisjointPaths adjacency source destination = some (primary, secondary) ∧
      DisjointWalks adjacency source destination primary secondary := by
  have hnodup := nodup_keys adjacency
  obtain ⟨s, hs⟩ := mem_iff_getElem?.mp (TreeMap.mem_keys.mpr hsource)
  obtain ⟨d, hd⟩ := mem_iff_getElem?.mp (TreeMap.mem_keys.mpr hdest)
  have hsd : s ≠ d := by
    rintro rfl
    exact hne (Option.some.inj (hs.symm.trans hd))
  have hsn := (List.getElem?_eq_some_iff.mp hs).1
  have hdn := (List.getElem?_eq_some_iff.mp hd).1
  obtain ⟨graph, A, hgraph, hstores, hlength, hsplits⟩ := splitGraph_spec h s d
  have hrobust := robust_linked h hthree hsurvives
  obtain ⟨graph₁, F₁, haugment₁, hlength₁, hstores₁, hcarries₁⟩ := exists_augment hsplits hrobust hsn hdn
    hsd hlength hstores (carries_empty _ _) (by norm_num)
  obtain ⟨graph₂, F₂, haugment₂, hlength₂, hstores₂, hcarries₂⟩ := exists_augment hsplits hrobust hsn hdn
    hsd hlength₁ hstores₁ hcarries₁ (by norm_num)
  obtain ⟨path, remaining, htake, htrail, hdistinct, hremains, hcarries⟩ := exists_takeNodePath hsplits hs
    hd hlength₂ hstores₂ hstores₂.flow (remains_remainingFlow hstores₂) hcarries₂ (by norm_num)
  obtain ⟨other, remaining', htake', htrail', hdistinct', -⟩ := exists_takeNodePath hsplits hs hd
    hlength₂ hstores₂ (fun arc harc => hstores₂.flow (mem_dropTrail.mp harc).1) hremains hcarries
    (by norm_num)
  have hwalks := disjointWalks_nodePath hsplits hs hd
    (htrail.mono fun u _ v _ huv => hstores₂.flow huv) hdistinct
    (htrail'.mono fun u _ v _ huv => hstores₂.flow (mem_dropTrail.mp huv).1) hdistinct'
    fun arc harc harc' =>
      (mem_dropTrail.mp (step_of_mem_arcs htrail' harc')).2 harc
  rw [twoInternallyVertexDisjointPaths, if_neg (by simp [hne]; omega)]
  simp only [Option.bind_eq_bind, (getElem?_routingIndexes hnodup).mpr hs,
    (getElem?_routingIndexes hnodup).mpr hd, Option.bind_some, hgraph, haugment₁, haugment₂, htake,
    htake']
  -- sorting only decides which of the two comes first
  by_cases hle : shorterFirst (nodePath adjacency.keys source path) (nodePath adjacency.keys source other)
  · exact ⟨_, _, by simp [List.insertionSort, hle], hwalks⟩
  · exact ⟨_, _, by simp [List.insertionSort, hle], hwalks.symm⟩

end Flow

section Secondary

variable {t : BoundedTopology} {source destination : NodeId} {p q : List NodeId}

lemma mem_internalNodes (hp : SimpleWalk t.adjacency source destination p) {n : NodeId} (hn : n ∈ p) :
    n = source ∨ n = destination ∨ n ∈ internalNodes p := by
  obtain ⟨i, hi, rfl⟩ := mem_iff_getElem.mp hn
  have hfirst : p[0]? = some source := by rw [← head?_eq_getElem?, hp.starts]
  have hlast : p[p.length - 1]? = some destination := by rw [← getLast?_eq_getElem?, hp.ends]
  by_cases hzero : i = 0
  · subst hzero
    exact .inl (Option.some.inj ((getElem?_eq_getElem hi).symm.trans hfirst))
  · by_cases hend : i = p.length - 1
    · subst hend
      exact .inr (.inl (Option.some.inj ((getElem?_eq_getElem hi).symm.trans hlast)))
    · right; right
      refine mem_of_getElem? (i := i - 1) ?_
      rw [internalNodes, getElem?_take_of_lt (by omega), getElem?_drop,
        Nat.add_sub_cancel' (by omega), getElem?_eq_getElem hi]

lemma simpleWalk_of_available {unavailableNodes : TreeSet NodeId}
    {unavailableEdges : TreeSet TopologyEdge}
    (h : t.AvailableWalk unavailableNodes unavailableEdges source destination p) (hnodup : p.Nodup) :
    SimpleWalk t.adjacency source destination p :=
  ⟨h.starts, h.ends, h.linked.imp fun _ _ hab => hab.1, hnodup⟩

lemma disjointWalks_of_available (hp : SimpleWalk t.adjacency source destination p)
    (hq : t.AvailableWalk (.ofList (internalNodes p)) (pathEdges p) source destination q)
    (hnodup : q.Nodup) : DisjointWalks t.adjacency source destination p q := by
  refine ⟨hp, simpleWalk_of_available hq hnodup, fun n hn hn' => ?_, fun edge hedge hedge' => ?_⟩
  · rcases mem_internalNodes hp hn with hend | hend | hinner
    · exact .inl hend
    · exact .inr hend
    · refine absurd ?_ (hq.available n hn').2
      exact TreeSet.mem_ofList.mpr (contains_iff_mem.mpr hinner)
  · obtain ⟨a, b, hab, hends⟩ := mem_pathEdges.mp hedge'
    have htrail : Trail (fun a b => b ∈ t.adjacency.neighbors a ∧
        edgeIsUnavailable a b (pathEdges p) = false) source destination q :=
      ⟨hq.starts, hq.ends, hq.linked⟩
    have havailable := (step_of_mem_arcs htrail hab).2
    rw [edgeIsUnavailable, hends, Option.any_some] at havailable
    exact absurd (TreeSet.contains_iff_mem.mpr hedge) (Bool.eq_false_iff.mp havailable)

/-- **From a first path there are always two that share only their ends.** -/
theorem pathsFromPrimary_spec (h : t.adjacency.Undirected) (hthree : 3 ≤ t.adjacency.size)
    (hsurvives : ∀ z, (t.adjacency.graph.induce (t.adjacency.nodes \ {z})).Preconnected)
    (hp : SimpleWalk t.adjacency source destination p) (hsource : source ∈ t.adjacency)
    (hdest : destination ∈ t.adjacency) (hne : source ≠ destination) :
    ∃ primary secondary, t.pathsFromPrimary source destination p =
        ⟨primary, some ⟨.vertexDisjoint, secondary⟩⟩ ∧
      DisjointWalks t.adjacency source destination primary secondary := by
  rw [BoundedTopology.pathsFromPrimary, if_neg hne, BoundedTopology.secondaryPath]
  rcases BoundedTopology.shortestPathAvoiding_spec h source destination (.ofList (internalNodes p))
    (pathEdges p) with ⟨hnone, -⟩ | ⟨q, hsome, hnodup, hwalk, -⟩
  · obtain ⟨primary, secondary, htwo, hwalks⟩ :=
      twoInternallyVertexDisjointPaths_spec h hthree hsurvives hsource hdest hne
    refine ⟨primary, secondary, ?_, hwalks⟩
    rw [hnone, htwo]
    cases t.shortestPathAvoiding source destination ∅ (pathEdges p) <;> simp
  · refine ⟨p, q, ?_, disjointWalks_of_available hp hwalk hnodup⟩
    rw [hsome]
    simp

end Secondary

end HeteroNetwork
