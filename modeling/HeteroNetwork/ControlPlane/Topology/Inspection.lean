import HeteroNetwork.Lib.LowLink
import HeteroNetwork.ControlPlane.Topology.AdjacencyGraph

/-!
# What the synthesis checks about its result

Connectivity, symmetry, self-loops and degrees (`inspect_invariants`), the diameter estimate, and the
search for articulation points.  Over a symmetric map without self-loops the two searches decide what
their names say.
-/

namespace HeteroNetwork

open OrderedMap List LowLink Adjacency

open Std (TreeMap TreeSet)

open Search (Steps)

/-- Every node the map names, which bounds the turns of a loop that visits each node once. -/
def Adjacency.mentions (adjacency : Adjacency) : List NodeId :=
  adjacency.toList.flatMap fun entry => entry.1 :: entry.2.toList

def distancesFrom (source : NodeId) (adjacency : Adjacency) : TreeMap NodeId ℕ :=
  (Search.loop (fun _ => false)
    (fun current distance => (adjacency.neighbors current).map fun n => (n, distance + 1))
    (adjacency.mentions.length + 1) (Search.start [(source, 0)])).labels

def graphIsConnected (adjacency : Adjacency) : Bool :=
  match adjacency.keys.head? with
  | none => true
  | some start => (distancesFrom start adjacency).size == adjacency.size

structure TopologyInvariants where
  nodeCount : ℕ
  edgeCount : ℕ
  maxObservedDegree : ℕ
  connected : Bool
  symmetric : Bool
  noSelfLoops : Bool
  withinDegreeBound : Bool
deriving DecidableEq

def inspectInvariants (adjacency : Adjacency) (maxDegree : ℕ) : TopologyInvariants :=
  let maxObservedDegree := ((adjacency.toList.map (·.2.size)).max?).getD 0
  let edges := adjacency.toList.flatMap fun (nodeId, neighbors) =>
    neighbors.toList.filterMap fun neighbor => TopologyEdge.new nodeId neighbor
  { nodeCount := adjacency.size
    edgeCount := (TreeSet.ofList edges).size
    maxObservedDegree
    connected := graphIsConnected adjacency
    symmetric := adjacency.toList.all fun (nodeId, neighbors) =>
      neighbors.toList.all fun neighbor => adjacency[neighbor]?.any (·.contains nodeId)
    noSelfLoops := adjacency.toList.all fun (nodeId, neighbors) => !neighbors.contains nodeId
    withinDegreeBound := maxObservedDegree ≤ maxDegree }

/-- The sweeps of `calculate_diameter_lower_bound`: each starts at the farthest node of the one
before, and the first that finds nothing farther is the last. -/
def diameterSweeps (adjacency : Adjacency) : ℕ → NodeId → ℕ → Option ℕ
  | 0, _, lowerBound => some lowerBound
  | sweeps + 1, source, lowerBound =>
    let distances := distancesFrom source adjacency
    if distances.size ≠ adjacency.size then none
    else match maxByKey (fun entry => toLex (entry.2, entry.1)) distances.toList with
      | none => none
      | some (farthest, distance) =>
        if distance ≤ lowerBound then some lowerBound
        else diameterSweeps adjacency sweeps farthest distance

def calculateDiameterLowerBound (adjacency : Adjacency) : Option ℕ :=
  match adjacency.keys.head? with
  | none => none
  | some source => diameterSweeps adjacency 4 source 0

/-- `articulation_dfs` from a root is `LowLink.search`, which takes the neighbours in their order. -/
def graphHasNoArticulationPoints (adjacency : Adjacency) : Bool :=
  if adjacency.size ≤ 2 then true
  else match adjacency.keys.head? with
    | none => true
    | some root =>
      match LowLink.search adjacency.neighbors adjacency.mentions.length root none .empty with
      | (true, _) => false
      | (false, marks) => marks.discovery.size == adjacency.size

def distancesFromAvoiding (source unavailable : NodeId) (adjacency : Adjacency) :
    TreeMap NodeId ℕ :=
  if source = unavailable ∨ source ∉ adjacency then ∅
  else (Search.loop (fun _ => false)
    (fun current distance => ((adjacency.neighbors current).filter fun n => n ≠ unavailable).map
      fun n => (n, distance + 1))
    (adjacency.mentions.length + 1) (Search.start [(source, 0)])).labels

/-- The naive check of the tests. -/
def graphSurvivesAnySingleNodeFailure (adjacency : Adjacency) : Bool :=
  if adjacency.size ≤ 2 then true
  else adjacency.keys.all fun failed =>
    match adjacency.keys.find? fun nodeId => nodeId ≠ failed with
    | none => true
    | some start => (distancesFromAvoiding start failed adjacency).size == adjacency.size - 1

namespace Adjacency

variable {adjacency : Adjacency} {a b source : NodeId} {n : ℕ}

structure Undirected (adjacency : Adjacency) : Prop where
  loopless : ∀ a, a ∉ adjacency.neighbors a
  symmetric : ∀ a b, b ∈ adjacency.neighbors a → a ∈ adjacency.neighbors b

def nodes (adjacency : Adjacency) : Set NodeId := {n | n ∈ adjacency}

lemma mem_nodes : a ∈ adjacency.nodes ↔ a ∈ adjacency := Iff.rfl

lemma Undirected.adj_iff (h : adjacency.Undirected) :
    adjacency.graph.Adj a b ↔ b ∈ adjacency.neighbors a := by
  rw [graph, SimpleGraph.fromRel_adj]
  constructor
  · rintro ⟨-, hab | hba⟩
    · exact hab
    · exact h.symmetric b a hba
  · intro hab
    exact ⟨fun heq => h.loopless a (by rwa [← heq] at hab), Or.inl hab⟩

lemma Undirected.mem_of_adj (h : adjacency.Undirected) (hab : adjacency.graph.Adj a b) :
    b ∈ adjacency :=
  mem_of_mem_neighbors (h.symmetric a b (h.adj_iff.mp hab))

lemma Undirected.mem_of_reachable (h : adjacency.Undirected) (ha : a ∈ adjacency)
    (hreach : Relation.ReflTransGen adjacency.graph.Adj a b) : b ∈ adjacency := by
  cases hreach with
  | refl => exact ha
  | tail _ hbc => exact h.mem_of_adj hbc

/-! ### The nodes a loop can visit -/

lemma mem_mentions_of_mem (ha : a ∈ adjacency) : a ∈ adjacency.mentions := by
  obtain ⟨s, hs⟩ := mem_iff_exists.mp ha
  exact mem_flatMap.mpr
    ⟨(a, s), TreeMap.mem_toList_iff_getElem?_eq_some.mpr hs, mem_cons_self⟩

lemma mem_mentions_of_mem_neighbors (hab : b ∈ adjacency.neighbors a) : b ∈ adjacency.mentions := by
  obtain ⟨s, hs, hb⟩ := mem_neighbors_iff.mp hab
  refine mem_flatMap.mpr
    ⟨(a, s), TreeMap.mem_toList_iff_getElem?_eq_some.mpr hs, mem_cons_of_mem _ ?_⟩
  exact TreeSet.mem_toList.mpr hb

end Adjacency

/-! ## Distances -/

section Distances

variable {adjacency : Adjacency} {a b source : NodeId} {n : ℕ}

def reachBound (source : NodeId) (adjacency : Adjacency) : Finset NodeId :=
  insert source adjacency.mentions.toFinset

lemma card_reachBound (source : NodeId) (adjacency : Adjacency) :
    (reachBound source adjacency).card ≤ adjacency.mentions.length + 1 :=
  (Finset.card_insert_le _ _).trans (Nat.add_le_add_right (toFinset_card_le _) 1)

lemma distancesFrom_complete (source : NodeId) (adjacency : Adjacency) :
    ∃ depth, Search.Complete
      (fun current distance => (adjacency.neighbors current).map fun n => (n, distance + 1))
      [(source, 0)] depth (distancesFrom source adjacency) ∧
    ∀ b d, (distancesFrom source adjacency)[b]? = some d → d = depth b := by
  obtain ⟨depth, hcomplete⟩ := Search.search_all
    (fun current distance => (adjacency.neighbors current).map fun n => (n, distance + 1))
    [(source, 0)] (reachBound source adjacency)
    (by
      intro a _ l p hp
      obtain ⟨n, hn, rfl⟩ := mem_map.mp hp
      exact Finset.mem_insert_of_mem
        (mem_toFinset.mpr (mem_mentions_of_mem_neighbors hn)))
    (by simp) (by simp [reachBound]) (card_reachBound source adjacency)
  refine ⟨depth, hcomplete, ?_⟩
  refine hcomplete.rooted.label_induction (fun _ d n => d = n) (by simp) ?_
  rintro a l n - rfl p hp
  obtain ⟨b, -, rfl⟩ := mem_map.mp hp
  rfl

/-- `distances_from` holds the length of a shortest walk to every node in reach. -/
theorem getElem?_distancesFrom (source : NodeId) (adjacency : Adjacency) (b : NodeId) (d : ℕ) :
    (distancesFrom source adjacency)[b]? = some d ↔
      Steps (fun a b => b ∈ adjacency.neighbors a) d source b ∧
        ∀ n, Steps (fun a b => b ∈ adjacency.neighbors a) n source b → d ≤ n := by
  obtain ⟨depth, hcomplete, hdepth⟩ := distancesFrom_complete source adjacency
  have hle : ∀ n, Steps (fun a b => b ∈ adjacency.neighbors a) n source b →
      b ∈ distancesFrom source adjacency ∧ depth b ≤ n := by
    intro n hn
    refine hcomplete.depth_le (p := (source, 0)) ?_ (by simp) hn
    intro a l b _ hab
    exact ⟨l + 1, mem_map.mpr ⟨b, hab, rfl⟩⟩
  have hexact : ∀ d, (distancesFrom source adjacency)[b]? = some d →
      Steps (fun a b => b ∈ adjacency.neighbors a) d source b ∧
        ∀ n, Steps (fun a b => b ∈ adjacency.neighbors a) n source b → d ≤ n := by
    intro d h
    obtain rfl := hdepth b d h
    refine ⟨?_, fun n hn => (hle n hn).2⟩
    obtain ⟨p, hp, hsteps⟩ := hcomplete.rooted.steps
      (r := fun a b => b ∈ adjacency.neighbors a)
      (by
        intro a l _ p hp
        obtain ⟨n, hn, rfl⟩ := mem_map.mp hp
        exact hn)
      (mem_of_getElem? h)
    rwa [mem_singleton.mp hp] at hsteps
  refine ⟨hexact d, fun ⟨hsteps, hmin⟩ => ?_⟩
  obtain ⟨d', hd'⟩ := mem_iff_exists.mp (hle d hsteps).1
  obtain ⟨hsteps', hmin'⟩ := hexact d' hd'
  rw [hd', le_antisymm (hmin' d hsteps) (hmin d' hsteps')]

lemma Adjacency.Undirected.getElem?_distancesFrom (h : adjacency.Undirected) (b : NodeId) (d : ℕ) :
    (distancesFrom source adjacency)[b]? = some d ↔
      adjacency.graph.Reachable source b ∧ adjacency.graph.dist source b = d := by
  have hadj : (fun a b => b ∈ adjacency.neighbors a) = adjacency.graph.Adj := by
    funext a b
    exact propext h.adj_iff.symm
  rw [HeteroNetwork.getElem?_distancesFrom, hadj, Search.shortest_iff_dist]

lemma Adjacency.Undirected.mem_distancesFrom (h : adjacency.Undirected) :
    b ∈ distancesFrom source adjacency ↔ adjacency.graph.Reachable source b := by
  rw [mem_iff_exists]
  simp only [h.getElem?_distancesFrom, exists_and_left, exists_eq', and_true]

end Distances

section Connectivity

variable {adjacency : Adjacency} {a b : NodeId}

lemma exists_head {a : NodeId} (ha : a ∈ adjacency) :
    ∃ start ∈ adjacency, adjacency.keys.head? = some start := by
  have hkeys : adjacency.keys ≠ [] := ne_nil_of_mem (TreeMap.mem_keys.mpr ha)
  refine ⟨adjacency.keys.head hkeys, ?_, head?_eq_some_head hkeys⟩
  exact TreeMap.mem_keys.mp (head_mem hkeys)

/-- `graph_is_connected` decides whether every node reaches every other. -/
theorem graphIsConnected_iff (h : adjacency.Undirected) :
    graphIsConnected adjacency = true ↔
      ∀ a ∈ adjacency, ∀ b ∈ adjacency, adjacency.graph.Reachable a b := by
  rw [graphIsConnected]
  rcases hhead : adjacency.keys.head? with _ | start
  · have hnone : ∀ a, a ∉ adjacency := by
      intro a ha
      obtain ⟨start, -, hstart⟩ := exists_head ha
      rw [hhead] at hstart
      cases hstart
    simp [hnone]
  · have hstart : start ∈ adjacency :=
      TreeMap.mem_keys.mp (mem_of_mem_head? hhead)
    have hsub : ∀ a ∈ distancesFrom start adjacency, a ∈ adjacency := by
      intro a ha
      have hreach := (SimpleGraph.reachable_iff_reflTransGen _ _).mp (h.mem_distancesFrom.mp ha)
      exact h.mem_of_reachable hstart hreach
    simp only [beq_iff_eq]
    constructor
    · intro hsize a ha b hb
      have hall := mem_of_size_le hsub hsize.ge
      exact (h.mem_distancesFrom.mp (hall a ha)).symm.trans (h.mem_distancesFrom.mp (hall b hb))
    · intro hreach
      refine le_antisymm (size_le hsub) (size_le fun a ha => ?_)
      exact h.mem_distancesFrom.mpr (hreach start hstart a ha)

lemma exists_third (hthree : 3 ≤ adjacency.size) (a b : NodeId) : ∃ z ∈ adjacency, z ≠ a ∧ z ≠ b := by
  have hcard : ({a, b} : Finset NodeId).card < adjacency.keys.toFinset.card := by
    rw [toFinset_card_of_nodup (nodup_keys adjacency), TreeMap.length_keys]
    exact Finset.card_le_two.trans_lt hthree
  obtain ⟨z, hz, hnot⟩ := Finset.exists_mem_notMem_of_card_lt_card hcard
  rw [mem_toFinset, TreeMap.mem_keys] at hz
  simp only [Finset.mem_insert, Finset.mem_singleton, not_or] at hnot
  exact ⟨z, hz, hnot⟩

/-- `graph_has_no_articulation_points` decides whether the nodes stay connected without any one
node. -/
theorem graphHasNoArticulationPoints_iff (h : adjacency.Undirected) (hthree : 3 ≤ adjacency.size) :
    graphHasNoArticulationPoints adjacency = true ↔
      ∀ z, (adjacency.graph.induce (adjacency.nodes \ {z})).Preconnected := by
  rw [graphHasNoArticulationPoints, if_neg (by omega)]
  obtain ⟨root, hroot, hhead⟩ : ∃ root ∈ adjacency, adjacency.keys.head? = some root := by
    rcases hkeys : adjacency.keys with _ | ⟨root, rest⟩
    · have := TreeMap.length_keys (t := adjacency)
      rw [hkeys, length_nil] at this
      omega
    · exact ⟨root, TreeMap.mem_keys.mp (by simp [hkeys]), rfl⟩
  have hneighbors : ∀ a b, b ∈ adjacency.neighbors a ↔ adjacency.graph.Adj a b :=
    fun a b => h.adj_iff.symm
  have hmem : ∀ x, x ∈ adjacency.keys.toFinset ↔ x ∈ adjacency := by
    simp [TreeMap.mem_keys]
  have hall : ∀ x ∈ adjacency.keys.toFinset, ∀ y, adjacency.graph.Adj x y →
      y ∈ adjacency.keys.toFinset := fun x _ y hxy => (hmem y).mpr (h.mem_of_adj hxy)
  have hfuel : adjacency.keys.toFinset.card ≤ adjacency.mentions.length := by
    refine (Finset.card_le_card fun x hx => ?_).trans (toFinset_card_le adjacency.mentions)
    exact mem_toFinset.mpr (mem_mentions_of_mem ((hmem x).mp hx))
  have hset : (adjacency.keys.toFinset : Set NodeId) = adjacency.nodes := by
    ext x
    exact hmem x
  have hstop := search_true hneighbors hall ((hmem root).mpr hroot) hfuel
  have hgo := search_false hneighbors hall ((hmem root).mpr hroot) hfuel
  simp only [hhead]
  rcases hsearch :
      search adjacency.neighbors adjacency.mentions.length root none .empty with ⟨stop, marks⟩
  rw [hsearch] at hstop hgo
  cases stop with
  | true =>
    have hcut := hstop rfl
    rw [hset] at hcut
    simpa using fun hpre => not_cut hpre hcut
  | false =>
    obtain ⟨hseen, hrobust⟩ := hgo rfl
    have hsub : ∀ x ∈ marks.discovery, x ∈ adjacency :=
      fun x hx => h.mem_of_reachable hroot ((hseen x).mp hx)
    simp only [beq_iff_eq]
    constructor
    · intro hsize z
      have hnodes : {x | x ∈ marks.discovery} = adjacency.nodes := by
        ext x
        exact ⟨hsub x, mem_of_size_le hsub hsize.ge x⟩
      exact hnodes ▸ hrobust z
    · intro hpre
      refine le_antisymm (size_le hsub) (size_le fun x hx => ?_)
      obtain ⟨z, -, hz⟩ := exists_third hthree root x
      have hreach := preconnected_induce_iff.mp (hpre z) root ⟨hroot, hz.1.symm⟩ x
        ⟨hx, hz.2.symm⟩
      exact (hseen x).mpr (hreach.lift id fun _ _ hab => hab.2.2)

end Connectivity

/-! ## Single failures -/

section Failures

variable {adjacency : Adjacency} {a b source failed : NodeId}

lemma mem_distancesFromAvoiding (h : adjacency.Undirected) (hsource : source ∈ adjacency)
    (hne : source ≠ failed) : b ∈ distancesFromAvoiding source failed adjacency ↔
      ReachIn adjacency.graph (adjacency.nodes \ {failed}) source b := by
  rw [distancesFromAvoiding, if_neg (by simp [hne, hsource])]
  rw [Search.mem_search_all _ _ (r := fun a b => b ∈ adjacency.neighbors a ∧ b ≠ failed)
    (by simp) (reachBound source adjacency) ?_ (by simp) (by simp [reachBound])
    (card_reachBound source adjacency)]
  · simp only [mem_singleton, exists_eq_left]
    constructor
    · intro hreach
      induction hreach with
      | refl => exact .refl
      | tail hab hbc ih =>
        have hb := ReachIn.mem ih ⟨hsource, hne⟩
        exact ih.tail ⟨hb, ⟨h.mem_of_adj (h.adj_iff.mpr hbc.1), hbc.2⟩, h.adj_iff.mpr hbc.1⟩
    · intro hreach
      exact hreach.lift id fun x y hxy => ⟨h.adj_iff.mp hxy.2.2, hxy.2.1.2⟩
  · rintro a - b ⟨hab, -⟩
    exact Finset.mem_insert_of_mem
      (mem_toFinset.mpr (mem_mentions_of_mem_neighbors hab))

lemma size_erase_of_mem (hfailed : failed ∈ adjacency) :
    (adjacency.erase failed).size = adjacency.size - 1 := by
  rw [TreeMap.size_erase, if_pos (TreeMap.contains_iff_mem.mpr hfailed)]

lemma size_distancesFromAvoiding (h : adjacency.Undirected) (hsource : source ∈ adjacency)
    (hfailed : failed ∈ adjacency) (hne : source ≠ failed) :
    (distancesFromAvoiding source failed adjacency).size = adjacency.size - 1 ↔
      (adjacency.graph.induce (adjacency.nodes \ {failed})).Preconnected := by
  have hmem : ∀ b, b ∈ adjacency.erase failed ↔ b ∈ adjacency.nodes \ {failed} := by
    intro b
    rw [TreeMap.mem_erase, Ne, Std.LawfulEqCmp.compare_eq_iff_eq, eq_comm, and_comm]
    rfl
  have hsub : ∀ b ∈ distancesFromAvoiding source failed adjacency, b ∈ adjacency.erase failed := by
    intro b hb
    rw [mem_distancesFromAvoiding h hsource hne] at hb
    exact (hmem b).mpr (hb.mem ⟨hsource, hne⟩)
  rw [← size_erase_of_mem hfailed, preconnected_induce_iff]
  constructor
  · intro hsize a ha b hb
    have hall : ∀ x ∈ adjacency.nodes \ {failed},
        ReachIn adjacency.graph (adjacency.nodes \ {failed}) source x := fun x hx =>
      (mem_distancesFromAvoiding h hsource hne).mp
        (mem_of_size_le hsub hsize.ge x ((hmem x).mpr hx))
    exact (hall a ha).symm.trans (hall b hb)
  · intro hreach
    refine le_antisymm (size_le hsub) (size_le fun b hb => ?_)
    exact (mem_distancesFromAvoiding h hsource hne).mpr
      (hreach source ⟨hsource, hne⟩ b ((hmem b).mp hb))

lemma preconnected_of_survives (hthree : 3 ≤ adjacency.size)
    (hsurvives : ∀ z ∈ adjacency,
      (adjacency.graph.induce (adjacency.nodes \ {z})).Preconnected) (z : NodeId) :
    (adjacency.graph.induce (adjacency.nodes \ {z})).Preconnected := by
  by_cases hz : z ∈ adjacency
  · exact hsurvives z hz
  · -- two nodes stay connected without some third one, and `z` is none of the nodes
    rw [preconnected_induce_iff]
    intro a ha b hb
    obtain ⟨other, hother, hothera, hotherb⟩ := exists_third hthree a b
    have hreach := preconnected_induce_iff.mp (hsurvives other hother) a
      ⟨ha.1, hothera.symm⟩ b ⟨hb.1, hotherb.symm⟩
    exact hreach.mono fun x hx => ⟨hx.1, fun heq => hz (heq ▸ hx.1)⟩

/-- The naive check decides whether the nodes stay connected without any one of them. -/
theorem graphSurvivesAnySingleNodeFailure_iff (h : adjacency.Undirected)
    (hthree : 3 ≤ adjacency.size) : graphSurvivesAnySingleNodeFailure adjacency = true ↔
      ∀ z ∈ adjacency, (adjacency.graph.induce (adjacency.nodes \ {z})).Preconnected := by
  rw [graphSurvivesAnySingleNodeFailure, if_neg (by omega), all_eq_true]
  simp only [TreeMap.mem_keys]
  refine forall₂_congr fun failed hfailed => ?_
  cases hfind : adjacency.keys.find? fun nodeId => nodeId ≠ failed with
  | none =>
    obtain ⟨z, hz, hne, -⟩ := exists_third hthree failed failed
    exact absurd hne (by simpa using find?_eq_none.mp hfind z (TreeMap.mem_keys.mpr hz))
  | some start =>
    have hstart := TreeMap.mem_keys.mp (mem_of_find?_eq_some hfind)
    have hne : start ≠ failed := by simpa using find?_some hfind
    rw [← size_distancesFromAvoiding h hstart hfailed hne]
    exact beq_iff_eq

/-- The low-link search and the naive check agree on every symmetric map without self-loops, and for more
than two nodes both say whether deleting any one node leaves the others mutually reachable. -/
theorem articulation_check_exact (adjacency : Adjacency)
    (hsymmetric : ∀ a b, b ∈ adjacency.neighbors a → a ∈ adjacency.neighbors b)
    (hloopless : ∀ a, a ∉ adjacency.neighbors a) :
    graphHasNoArticulationPoints adjacency = graphSurvivesAnySingleNodeFailure adjacency ∧
    (2 < adjacency.size → (graphHasNoArticulationPoints adjacency = true ↔
      ∀ z ∈ adjacency, (adjacency.graph.induce (adjacency.nodes \ {z})).Preconnected)) := by
  have h : adjacency.Undirected := ⟨hloopless, hsymmetric⟩
  refine (and_iff_right_of_imp fun hexact => ?_).mpr fun hthree => ?_
  · by_cases hsmall : adjacency.size ≤ 2
    · rw [graphHasNoArticulationPoints, if_pos hsmall, graphSurvivesAnySingleNodeFailure,
        if_pos hsmall]
    · have hthree := not_le.mp hsmall
      rw [Bool.eq_iff_iff, hexact hthree, graphSurvivesAnySingleNodeFailure_iff h hthree]
  · rw [graphHasNoArticulationPoints_iff h hthree]
    exact ⟨fun hall z _ => hall z, preconnected_of_survives hthree⟩

end Failures

section Invariants

variable {adjacency : Adjacency} {maxDegree : ℕ}

lemma noSelfLoops_iff : (inspectInvariants adjacency maxDegree).noSelfLoops = true ↔
    ∀ a, a ∉ adjacency.neighbors a := by
  simp only [inspectInvariants, all_eq_true, Prod.forall, Bool.not_eq_true',
    TreeMap.mem_toList_iff_getElem?_eq_some, mem_neighbors_iff, not_exists, not_and,
    ← TreeSet.contains_iff_mem, Bool.not_eq_true]

lemma symmetric_iff : (inspectInvariants adjacency maxDegree).symmetric = true ↔
    ∀ a b, b ∈ adjacency.neighbors a → a ∈ adjacency.neighbors b := by
  simp only [inspectInvariants, all_eq_true, Prod.forall, Option.any_eq_true,
    TreeMap.mem_toList_iff_getElem?_eq_some, TreeSet.mem_toList,
    TreeSet.contains_iff_mem, mem_neighbors_iff]
  constructor
  · rintro h a b ⟨s, hs, hb⟩
    exact h a s hs b hb
  · intro h a s hs b hb
    exact h a b ⟨s, hs, hb⟩

lemma withinDegreeBound_iff : (inspectInvariants adjacency maxDegree).withinDegreeBound = true ↔
    ∀ a, adjacency.degree a ≤ maxDegree := by
  have hdegree : (∀ a, adjacency.degree a ≤ maxDegree) ↔
      ∀ d ∈ adjacency.toList.map (·.2.size), d ≤ maxDegree := by
    simp only [forall_mem_map, Prod.forall, TreeMap.mem_toList_iff_getElem?_eq_some]
    constructor
    · intro h a s hs
      simpa [degree, hs] using h a
    · intro h a
      cases hs : adjacency[a]? with
      | none => simp [degree, hs]
      | some s => simpa [degree, hs] using h a s hs
  rw [hdegree]
  simp only [inspectInvariants, decide_eq_true_eq]
  cases hmax : (adjacency.toList.map (·.2.size)).max? with
  | none => simp [max?_eq_none_iff.mp hmax]
  | some d => simp only [Option.getD_some, max?_le_iff hmax]

end Invariants

namespace SampleGraph

def line : Adjacency :=
  (emptyLayout [⟨"a"⟩, ⟨"b"⟩, ⟨"c"⟩]).adjacency.addEdges [(⟨"a"⟩, ⟨"b"⟩), (⟨"b"⟩, ⟨"c"⟩)]

theorem articulation_check_exact_line :
    2 < line.size ∧ graphHasNoArticulationPoints line = false ∧
    graphSurvivesAnySingleNodeFailure line = false ∧
    ¬∀ z ∈ line, (line.graph.induce (line.nodes \ {z})).Preconnected := by
  have hsize : 2 < line.size := by decide +kernel
  have hfalse : graphHasNoArticulationPoints line = false := by decide +kernel
  obtain ⟨hagree, hexact⟩ := articulation_check_exact line
    (symmetric_iff.mp (by decide +kernel : (inspectInvariants line 4).symmetric = true))
    (noSelfLoops_iff.mp (by decide +kernel : (inspectInvariants line 4).noSelfLoops = true))
  refine ⟨hsize, hfalse, hagree.symm.trans hfalse, fun hall => ?_⟩
  rw [← hexact hsize, hfalse] at hall
  cases hall

end SampleGraph

end HeteroNetwork
