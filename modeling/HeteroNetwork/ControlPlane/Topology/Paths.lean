import HeteroNetwork.Lib.SearchPaths
import HeteroNetwork.ControlPlane.Topology.Synthesis

/-!
# Paths around failures

`shortest_path_avoiding` searches the backbone without the nodes and links that are not available.  It finds
a shortest walk without repetitions whenever there is a walk at all (`shortest_path_avoiding_exact`).
-/

namespace HeteroNetwork

open Std (TreeSet)

open Search

def edgeIsUnavailable (first second : NodeId) (unavailableEdges : TreeSet TopologyEdge) : Bool :=
  (TopologyEdge.new first second).any fun edge => unavailableEdges.contains edge

def pathEdges (path : List NodeId) : TreeSet TopologyEdge :=
  .ofList ((path.zip path.tail).filterMap fun nodes => TopologyEdge.new nodes.1 nodes.2)

inductive SecondaryPathKind where
  | vertexDisjoint
  | edgeDisjoint
deriving DecidableEq

structure SecondaryPath where
  kind : SecondaryPathKind
  nodes : List NodeId
deriving DecidableEq

structure TopologyPaths where
  primary : List NodeId
  secondary : Option SecondaryPath
deriving DecidableEq

def internalNodes (path : List NodeId) : List NodeId := (path.drop 1).take (path.length - 2)

namespace BoundedTopology

variable (t : BoundedTopology)

def turns : ℕ := t.adjacency.mentions.length + 1

/-- `visited` is the set of labelled nodes, and a label is the predecessor; the source labels itself,
which is never read. -/
def shortestPathAvoiding (source destination : NodeId) (unavailableNodes : TreeSet NodeId)
    (unavailableEdges : TreeSet TopologyEdge) : Option (List NodeId) :=
  if source ∉ t.adjacency ∨ destination ∉ t.adjacency ∨ source ∈ unavailableNodes ∨
      destination ∈ unavailableNodes then none
  else if source = destination then some [source]
  else
    let search := Search.loop (fun neighbor => neighbor = destination)
      (fun current _ => ((t.adjacency.neighbors current).filter fun neighbor =>
        !unavailableNodes.contains neighbor &&
          !edgeIsUnavailable current neighbor unavailableEdges).map fun neighbor => (neighbor, current))
      t.turns (Search.start [(source, source)])
    if search.found then
      Search.reconstruct source search.labels (search.labels.size + 1) destination [destination]
    else none

def shortestPath (source destination : NodeId) : Option (List NodeId) :=
  t.shortestPathAvoiding source destination ∅ ∅

def pathsAvoiding (source destination : NodeId) (unavailableNodes : TreeSet NodeId) :
    Option TopologyPaths :=
  match t.shortestPathAvoiding source destination unavailableNodes ∅ with
  | none => none
  | some primary =>
    if source = destination then some ⟨primary, none⟩
    else
      let unavailableForSecondary := unavailableNodes.insertMany (internalNodes primary)
      some ⟨primary,
        ((t.shortestPathAvoiding source destination unavailableForSecondary
            (pathEdges primary)).map (SecondaryPath.mk .vertexDisjoint)).or
          ((t.shortestPathAvoiding source destination unavailableNodes
            (pathEdges primary)).map (SecondaryPath.mk .edgeDisjoint))⟩

/-! ## Walks -/

structure AvailableWalk (unavailableNodes : TreeSet NodeId)
    (unavailableEdges : TreeSet TopologyEdge) (source destination : NodeId)
    (walk : List NodeId) : Prop where
  starts : walk.head? = some source
  ends : walk.getLast? = some destination
  available : ∀ n ∈ walk, n ∈ t.adjacency ∧ n ∉ unavailableNodes
  linked : walk.IsChain fun a b =>
    b ∈ t.adjacency.neighbors a ∧ edgeIsUnavailable a b unavailableEdges = false

def Link (unavailableNodes : TreeSet NodeId) (unavailableEdges : TreeSet TopologyEdge)
    (a b : NodeId) : Prop :=
  b ∈ t.adjacency.neighbors a ∧ b ∉ unavailableNodes ∧ edgeIsUnavailable a b unavailableEdges = false

variable {t} {source destination : NodeId} {unavailableNodes : TreeSet NodeId}
  {unavailableEdges : TreeSet TopologyEdge} {walk : List NodeId}

lemma availableWalk_iff (h : t.adjacency.Undirected) :
    t.AvailableWalk unavailableNodes unavailableEdges source destination walk ↔
      source ∈ t.adjacency ∧ source ∉ unavailableNodes ∧
        Trail (t.Link unavailableNodes unavailableEdges) source destination walk := by
  constructor
  · intro hwalk
    have htrail : Trail (fun a b =>
        b ∈ t.adjacency.neighbors a ∧ edgeIsUnavailable a b unavailableEdges = false)
        source destination walk := ⟨hwalk.starts, hwalk.ends, hwalk.linked⟩
    obtain ⟨hmember, havailable⟩ := hwalk.available source htrail.start_mem
    refine ⟨hmember, havailable, htrail.mono fun x _ y hy hxy => ?_⟩
    exact ⟨hxy.1, (hwalk.available y hy).2, hxy.2⟩
  · rintro ⟨hmember, havailable, htrail⟩
    have hnodes : ∀ n ∈ walk, n ∈ t.adjacency ∧ n ∉ unavailableNodes :=
      htrail.forall_mem ⟨hmember, havailable⟩ fun a b hab =>
        ⟨h.mem_of_adj (h.adj_iff.mpr hab.1), hab.2.1⟩
    exact ⟨htrail.head, htrail.last, hnodes, htrail.chain.imp fun a b hab => ⟨hab.1, hab.2.2⟩⟩

lemma search_avoiding (unavailableNodes : TreeSet NodeId)
    (unavailableEdges : TreeSet TopologyEdge) (hne : source ≠ destination) :
    Found
      (fun current _ => ((t.adjacency.neighbors current).filter fun neighbor =>
        !unavailableNodes.contains neighbor &&
          !edgeIsUnavailable current neighbor unavailableEdges).map fun neighbor => (neighbor, current))
      id (t.Link unavailableNodes unavailableEdges) source destination
      (Search.loop (fun neighbor => neighbor = destination)
        (fun current _ => ((t.adjacency.neighbors current).filter fun neighbor =>
          !unavailableNodes.contains neighbor &&
            !edgeIsUnavailable current neighbor unavailableEdges).map
              fun neighbor => (neighbor, current)) t.turns (Search.start [(source, source)])) := by
  refine search_path (fun neighbor => decide (neighbor = destination)) _ id source source
    (by simp) ?_ ?_ (reachBound source t.adjacency) ?_ (Finset.mem_insert_self _ _)
    (card_reachBound source t.adjacency) hne
  · intro a l b
    simp only [List.mem_map, List.mem_filter, Bool.and_eq_true, Bool.not_eq_true', Prod.mk.injEq,
      ← Bool.not_eq_true, TreeSet.contains_iff_mem]
    constructor
    · rintro ⟨_, n, ⟨hn, hnode, hedge⟩, rfl, rfl⟩
      exact ⟨hn, hnode, Bool.not_eq_true _ ▸ hedge⟩
    · rintro ⟨hb, hnode, hedge⟩
      exact ⟨a, b, ⟨hb, hnode, Bool.eq_false_iff.mp hedge⟩, rfl, rfl⟩
  · intro a l p hp
    obtain ⟨n, -, rfl⟩ := List.mem_map.mp hp
    rfl
  · exact fun a _ b hab => Finset.mem_insert_of_mem
      (List.mem_toFinset.mpr (Adjacency.mem_mentions_of_mem_neighbors hab.1))

lemma shortestPathAvoiding_cases (hsource : source ∈ t.adjacency) (hdest : destination ∈ t.adjacency)
    (hsourceUp : source ∉ unavailableNodes) (hdestUp : destination ∉ unavailableNodes)
    (hne : source ≠ destination) :
    (t.shortestPathAvoiding source destination unavailableNodes unavailableEdges = none ∧
      ∀ p, ¬Trail (t.Link unavailableNodes unavailableEdges) source destination p) ∨
    ∃ trail, t.shortestPathAvoiding source destination unavailableNodes unavailableEdges = some trail ∧
      trail.Nodup ∧ Trail (t.Link unavailableNodes unavailableEdges) source destination trail ∧
      ∀ p, Trail (t.Link unavailableNodes unavailableEdges) source destination p →
        trail.length ≤ p.length := by
  have hsearch := search_avoiding (t := t) unavailableNodes unavailableEdges hne
  rw [shortestPathAvoiding, if_neg (by simp [hsource, hdest, hsourceUp, hdestUp]), if_neg hne]
  dsimp only
  cases hsearch with
  | nothing hfound _ _ hnone => exact .inl ⟨if_neg (by simp [hfound]), hnone⟩
  | path hfound trail hnodup hlabelled htrail hshortest =>
    refine .inr ⟨trail, ?_, hnodup, htrail.mono fun x _ y _ hxy => hxy.1, hshortest⟩
    rw [if_pos hfound, reconstruct_trail ?_
      ((length_le_size hnodup hlabelled).trans (Nat.le_succ _)), List.append_nil]
    refine htrail.mono fun x _ y _ hxy => ?_
    obtain ⟨-, hsource, l, hl, rfl, -⟩ := hxy
    exact ⟨hl, hsource⟩

lemma shortestPathAvoiding_spec (h : t.adjacency.Undirected) (source destination : NodeId)
    (unavailableNodes : TreeSet NodeId) (unavailableEdges : TreeSet TopologyEdge) :
    (t.shortestPathAvoiding source destination unavailableNodes unavailableEdges = none ∧
      ∀ walk, ¬t.AvailableWalk unavailableNodes unavailableEdges source destination walk) ∨
    ∃ p, t.shortestPathAvoiding source destination unavailableNodes unavailableEdges = some p ∧
      p.Nodup ∧ t.AvailableWalk unavailableNodes unavailableEdges source destination p ∧
      ∀ walk, t.AvailableWalk unavailableNodes unavailableEdges source destination walk →
        p.length ≤ walk.length := by
  by_cases hends : source ∉ t.adjacency ∨ destination ∉ t.adjacency ∨ source ∈ unavailableNodes ∨
      destination ∈ unavailableNodes
  · left
    refine ⟨by rw [shortestPathAvoiding, if_pos hends], fun walk hwalk => ?_⟩
    have hfirst := hwalk.available source (List.mem_of_mem_head? hwalk.starts)
    have hlast := hwalk.available destination (List.mem_of_getLast? hwalk.ends)
    rcases hends with hout | hout | hout | hout
    · exact hout hfirst.1
    · exact hout hlast.1
    · exact hfirst.2 hout
    · exact hlast.2 hout
  · simp only [not_or, not_not] at hends
    obtain ⟨hsource, hdest, hsourceUp, hdestUp⟩ := hends
    by_cases hne : source = destination
    · subst hne
      refine .inr ⟨[source], ?_, by simp, ?_, ?_⟩
      · rw [shortestPathAvoiding, if_neg (by simp [hsource, hsourceUp]), if_pos rfl]
      · exact (availableWalk_iff h).mpr ⟨hsource, hsourceUp, .single source⟩
      · intro walk hwalk
        exact List.length_pos_iff.mpr fun hnil => by simpa [hnil] using hwalk.starts
    · rcases shortestPathAvoiding_cases hsource hdest hsourceUp hdestUp hne with
        ⟨hnone, hno⟩ | ⟨p, hsome, hnodup, htrail, hshortest⟩
      · exact .inl ⟨hnone, fun walk hwalk => hno walk ((availableWalk_iff h).mp hwalk).2.2⟩
      · refine .inr ⟨p, hsome, hnodup, (availableWalk_iff h).mpr ⟨hsource, hsourceUp, htrail⟩, ?_⟩
        exact fun walk hwalk => hshortest walk ((availableWalk_iff h).mp hwalk).2.2

lemma availableWalk_of_eq_some (h : t.adjacency.Undirected) {p : List NodeId}
    (hp : t.shortestPathAvoiding source destination unavailableNodes unavailableEdges = some p) :
    t.AvailableWalk unavailableNodes unavailableEdges source destination p := by
  rcases shortestPathAvoiding_spec h source destination unavailableNodes unavailableEdges with
    ⟨hnone, -⟩ | ⟨q, hq, -, hwalk, -⟩
  · rw [hnone] at hp
    cases hp
  · rw [hq] at hp
    rwa [← Option.some.inj hp]

lemma pathsAvoiding_available (h : t.adjacency.Undirected) {paths : TopologyPaths}
    (hpaths : t.pathsAvoiding source destination unavailableNodes = some paths) :
    (∀ n ∈ paths.primary, n ∉ unavailableNodes) ∧
      ∀ secondary, paths.secondary = some secondary → ∀ n ∈ secondary.nodes, n ∉ unavailableNodes := by
  rw [pathsAvoiding] at hpaths
  split at hpaths
  · cases hpaths
  · rename_i primary hprimary
    have hup : ∀ n ∈ primary, n ∉ unavailableNodes := fun n hn =>
      ((availableWalk_of_eq_some h hprimary).available n hn).2
    split_ifs at hpaths
    · obtain rfl := Option.some.inj hpaths
      exact ⟨hup, by simp⟩
    · obtain rfl := Option.some.inj hpaths
      refine ⟨hup, fun secondary hsecondary n hn => ?_⟩
      rcases Option.or_eq_some_iff.mp hsecondary with hmap | ⟨-, hmap⟩
      · obtain ⟨p, hp, rfl⟩ := Option.map_eq_some_iff.mp hmap
        have hout := ((availableWalk_of_eq_some h hp).available n hn).2
        exact fun hmem => hout (TreeSet.mem_insertMany_list.mpr (.inl hmem))
      · obtain ⟨p, hp, rfl⟩ := Option.map_eq_some_iff.mp hmap
        exact ((availableWalk_of_eq_some h hp).available n hn).2

end BoundedTopology

/-- `shortest_path_avoiding` finds a path exactly when a walk over available nodes and links exists; it is
such a walk without repetitions, and no other is shorter. -/
theorem shortest_path_avoiding_exact (hashes : TopologyHashes) (nodes : List NodeRecord)
    (config : BoundedTopologyConfig) (t : BoundedTopology)
    (h : synthesize hashes nodes config = .ok t) (source destination : NodeId)
    (unavailableNodes : TreeSet NodeId) (unavailableEdges : TreeSet TopologyEdge) :
    ((t.shortestPathAvoiding source destination unavailableNodes unavailableEdges).isSome = true ↔
      ∃ walk, t.AvailableWalk unavailableNodes unavailableEdges source destination walk) ∧
    (∀ p, t.shortestPathAvoiding source destination unavailableNodes unavailableEdges = some p →
      t.AvailableWalk unavailableNodes unavailableEdges source destination p ∧ p.Nodup ∧
      ∀ walk, t.AvailableWalk unavailableNodes unavailableEdges source destination walk →
        p.length ≤ walk.length) ∧
    ∀ paths, t.pathsAvoiding source destination unavailableNodes = some paths →
      (∀ n ∈ paths.primary, n ∉ unavailableNodes) ∧
      ∀ secondary, paths.secondary = some secondary →
        ∀ n ∈ secondary.nodes, n ∉ unavailableNodes := by
  have hundirected := (synthesized h).undirected
  refine ⟨?_, ?_, fun paths => BoundedTopology.pathsAvoiding_available hundirected⟩
  · rcases BoundedTopology.shortestPathAvoiding_spec hundirected source destination unavailableNodes
      unavailableEdges with ⟨hnone, hno⟩ | ⟨p, hsome, -, hwalk, -⟩
    · simp [hnone, hno]
    · rw [hsome]
      exact ⟨fun _ => ⟨p, hwalk⟩, fun _ => rfl⟩
  · intro p hp
    rcases BoundedTopology.shortestPathAvoiding_spec hundirected source destination unavailableNodes
      unavailableEdges with ⟨hnone, -⟩ | ⟨q, hsome, hnodup, hwalk, hshortest⟩
    · rw [hnone] at hp
      cases hp
    · obtain rfl := Option.some.inj (hsome.symm.trans hp)
      exact ⟨hwalk, hnodup, hshortest⟩

namespace SampleHierarchy

def topology : BoundedTopology :=
  (synthesize hashes (nodeIds.map record) config).toOption.get (by decide +kernel)

lemma topology_eq : synthesize hashes (nodeIds.map record) config = .ok topology := by
  have hget : ∀ (result : Synthesis BoundedTopology) (h : result.toOption.isSome = true),
      result = .ok (result.toOption.get h) := by
    rintro (_ | t) h
    · cases h
    · rfl
  exact hget _ _

def down : TreeSet NodeId := (∅ : TreeSet NodeId).insert ⟨"e"⟩

theorem shortest_path_avoiding_exact_sample :
    topology.shortestPathAvoiding ⟨"a"⟩ ⟨"c"⟩ down ∅ = some [⟨"a"⟩, ⟨"b"⟩, ⟨"d"⟩, ⟨"c"⟩] ∧
    ∀ walk, topology.AvailableWalk down ∅ ⟨"a"⟩ ⟨"c"⟩ walk → 4 ≤ walk.length := by
  have hpath : topology.shortestPathAvoiding ⟨"a"⟩ ⟨"c"⟩ down ∅ =
      some [⟨"a"⟩, ⟨"b"⟩, ⟨"d"⟩, ⟨"c"⟩] := by decide +kernel
  exact ⟨hpath, ((shortest_path_avoiding_exact hashes (nodeIds.map record) config topology topology_eq
    ⟨"a"⟩ ⟨"c"⟩ down ∅).2.1 _ hpath).2.2⟩

end SampleHierarchy

end HeteroNetwork
