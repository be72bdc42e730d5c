import HeteroNetwork.ControlPlane.Topology.DisjointPaths

/-!
# The path cache

`paths` answers from two lazily filled tables: one search over positions for every source, and one entry for
every pair.  They hold nothing but what a fresh computation gives (`Consistent`), and the search over
positions takes the same turns as the search over names.
-/

namespace HeteroNetwork

open Std (TreeMap)

open Search List

structure IndexedSecondaryPath where
  kind : SecondaryPathKind
  nodes : List ℕ
deriving DecidableEq

structure IndexedTopologyPaths where
  primary : List ℕ
  secondary : Option IndexedSecondaryPath
deriving DecidableEq

def indexPath (path : List NodeId) (nodeIndexes : TreeMap NodeId ℕ) : Option (List ℕ) :=
  path.mapM fun nodeId => nodeIndexes[nodeId]?

def materializeIndexedPath (path : List ℕ) (nodeIds : List NodeId) : Option (List NodeId) :=
  path.mapM fun index => nodeIds[index]?

namespace IndexedTopologyPaths

def fromPaths (paths : TopologyPaths) (nodeIndexes : TreeMap NodeId ℕ) :
    Option IndexedTopologyPaths := do
  let primary ← indexPath paths.primary nodeIndexes
  match paths.secondary with
  | some secondary => do
      let nodes ← indexPath secondary.nodes nodeIndexes
      some ⟨primary, some ⟨secondary.kind, nodes⟩⟩
  | none => some ⟨primary, none⟩

def materialize (paths : IndexedTopologyPaths) (nodeIds : List NodeId) : Option TopologyPaths := do
  let primary ← materializeIndexedPath paths.primary nodeIds
  match paths.secondary with
  | some secondary => do
      let nodes ← materializeIndexedPath secondary.nodes nodeIds
      some ⟨primary, some ⟨secondary.kind, nodes⟩⟩
  | none => some ⟨primary, none⟩

end IndexedTopologyPaths

/-- The vector of predecessors is a map from the positions that have one. -/
structure CachedSourcePaths where
  predecessors : TreeMap ℕ ℕ
  byDestination : List (Option (Option IndexedTopologyPaths))

/-- `SourcePathCache`: a slot for every source, empty until it is first asked for. -/
abbrev SourcePathCache := List (Option CachedSourcePaths)

def SourcePathCache.new (nodeCount : ℕ) : SourcePathCache := List.replicate nodeCount none

namespace BoundedTopology

variable (t : BoundedTopology)

def indexedShortestPathPredecessors (sourceIndex : ℕ) : Option (TreeMap ℕ ℕ) :=
  if sourceIndex < t.indexedAdjacency.length then
    some (Search.loop (fun _ => false)
      (fun current _ => (t.indexedAdjacency.getD current []).map fun neighbor => (neighbor, current))
      t.turns (Search.start [(sourceIndex, sourceIndex)])).labels
  else none

def computePathsFrom (sourceIndex : ℕ) : CachedSourcePaths where
  predecessors := (t.indexedShortestPathPredecessors sourceIndex).getD ∅
  byDestination := List.replicate t.routingNodeIds.length none

def reconstructIndexedPath (sourceIndex destinationIndex : ℕ) (predecessors : TreeMap ℕ ℕ) :
    Option (List ℕ) :=
  Search.reconstruct sourceIndex predecessors (predecessors.size + 1) destinationIndex
    [destinationIndex]

def computePairPaths (sourceIndex destinationIndex : ℕ) (predecessors : TreeMap ℕ ℕ) :
    Option IndexedTopologyPaths := do
  let source ← t.routingNodeIds[sourceIndex]?
  let destination ← t.routingNodeIds[destinationIndex]?
  let primary ← reconstructIndexedPath sourceIndex destinationIndex predecessors
  let primary ← materializeIndexedPath primary t.routingNodeIds
  IndexedTopologyPaths.fromPaths (t.pathsFromPrimary source destination primary) t.routingNodeIndexes

def cachedPathsFrom (cache : SourcePathCache) (sourceIndex : ℕ) :
    Option (CachedSourcePaths × SourcePathCache) :=
  match cache[sourceIndex]? with
  | none => none
  | some (some cached) => some (cached, cache)
  | some none =>
    let cached := t.computePathsFrom sourceIndex
    some (cached, cache.set sourceIndex (some cached))

def paths (cache : SourcePathCache) (source destination : NodeId) :
    Option TopologyPaths × SourcePathCache :=
  match t.routingNodeIndexes[source]?, t.routingNodeIndexes[destination]? with
  | some sourceIndex, some destinationIndex =>
    match t.cachedPathsFrom cache sourceIndex with
    | none => (none, cache)
    | some (sourcePaths, cache) =>
      match sourcePaths.byDestination[destinationIndex]? with
      | none => (none, cache)
      | some slot =>
        let pair := slot.getD
          (t.computePairPaths sourceIndex destinationIndex sourcePaths.predecessors)
        (pair.bind (·.materialize t.routingNodeIds),
          cache.set sourceIndex (some { sourcePaths with
            byDestination := sourcePaths.byDestination.set destinationIndex (some pair) }))
  | _, _ => (none, cache)

def pathsCache (queries : List (NodeId × NodeId)) : SourcePathCache :=
  queries.foldl (fun cache query => (t.paths cache query.1 query.2).2)
    (SourcePathCache.new t.routingNodeIds.length)

/-! ## What the cache holds -/

structure Consistent (cache : SourcePathCache) : Prop where
  slots : cache.length = t.routingNodeIds.length
  predecessors : ∀ (s : ℕ) cached, cache[s]? = some (some cached) →
    cached.predecessors = (t.computePathsFrom s).predecessors
  destinations : ∀ (s : ℕ) cached, cache[s]? = some (some cached) →
    cached.byDestination.length = t.routingNodeIds.length
  pairs : ∀ (s : ℕ) cached, cache[s]? = some (some cached) → ∀ (d : ℕ) pair,
    cached.byDestination[d]? = some (some pair) →
    pair = t.computePairPaths s d cached.predecessors

def freshPaths (source destination : NodeId) : Option TopologyPaths := do
  let sourceIndex ← t.routingNodeIndexes[source]?
  let destinationIndex ← t.routingNodeIndexes[destination]?
  let pair ← t.computePairPaths sourceIndex destinationIndex
    (t.computePathsFrom sourceIndex).predecessors
  pair.materialize t.routingNodeIds

variable {t} {cache : SourcePathCache} {source destination : NodeId} {s d : ℕ}

lemma consistent_new : t.Consistent (SourcePathCache.new t.routingNodeIds.length) := by
  have hempty : ∀ (s : ℕ) cached,
      (SourcePathCache.new t.routingNodeIds.length)[s]? = some (some cached) → False := by
    intro s cached h
    have hmem := mem_of_getElem? h
    cases eq_of_mem_replicate hmem
  exact ⟨length_replicate, fun s cached h => (hempty s cached h).elim,
    fun s cached h => (hempty s cached h).elim, fun s cached h => (hempty s cached h).elim⟩

lemma Consistent.set (h : t.Consistent cache) {cached : CachedSourcePaths}
    (hpredecessors : cached.predecessors = (t.computePathsFrom s).predecessors)
    (hdestinations : cached.byDestination.length = t.routingNodeIds.length)
    (hpairs : ∀ (d : ℕ) pair, cached.byDestination[d]? = some (some pair) →
      pair = t.computePairPaths s d cached.predecessors) :
    t.Consistent (cache.set s (some cached)) := by
  have hslot : ∀ (i : ℕ) other, (cache.set s (some cached))[i]? = some (some other) →
      (i = s ∧ other = cached) ∨ cache[i]? = some (some other) := by
    intro i other hi
    rw [getElem?_set] at hi
    split_ifs at hi with hsi hlt
    · exact .inl ⟨hsi.symm, (Option.some.inj (Option.some.inj hi)).symm⟩
    · exact .inr hi
  refine ⟨by rw [length_set, h.slots], ?_, ?_, ?_⟩
  · intro i other hi
    rcases hslot i other hi with ⟨rfl, rfl⟩ | hold
    · exact hpredecessors
    · exact h.predecessors i other hold
  · intro i other hi
    rcases hslot i other hi with ⟨rfl, rfl⟩ | hold
    · exact hdestinations
    · exact h.destinations i other hold
  · intro i other hi
    rcases hslot i other hi with ⟨rfl, rfl⟩ | hold
    · exact hpairs
    · exact h.pairs i other hold

lemma cachedPathsFrom_spec (h : t.Consistent cache) (hs : s < t.routingNodeIds.length) :
    ∃ cached cache', t.cachedPathsFrom cache s = some (cached, cache') ∧ t.Consistent cache' ∧
      cache'[s]? = some (some cached) := by
  have hlt : s < cache.length := h.slots ▸ hs
  rw [cachedPathsFrom, getElem?_eq_getElem hlt]
  cases hslot : cache[s] with
  | some cached =>
    exact ⟨cached, cache, rfl, h, by rw [getElem?_eq_getElem hlt, hslot]⟩
  | none =>
    refine ⟨_, _, rfl, h.set rfl length_replicate ?_, getElem?_set_self hlt⟩
    intro d pair hpair
    cases eq_of_mem_replicate (mem_of_getElem? hpair)

/-- One query answers as a fresh computation does, and keeps the cache consistent. -/
theorem paths_spec (h : t.Consistent cache) (hnodup : t.routingNodeIds.Nodup)
    (hindexes : t.routingNodeIndexes = routingIndexes t.routingNodeIds) (source destination : NodeId) :
    (t.paths cache source destination).1 = t.freshPaths source destination ∧
      t.Consistent (t.paths cache source destination).2 := by
  rw [paths, freshPaths]
  cases hsource : t.routingNodeIndexes[source]? with
  | none => exact ⟨rfl, h⟩
  | some s =>
    cases hdest : t.routingNodeIndexes[destination]? with
    | none => exact ⟨rfl, h⟩
    | some d =>
      rw [hindexes, getElem?_routingIndexes hnodup] at hsource hdest
      obtain ⟨hs, -⟩ := List.getElem?_eq_some_iff.mp hsource
      obtain ⟨hd, -⟩ := List.getElem?_eq_some_iff.mp hdest
      obtain ⟨cached, cache', hcached, hcache', hslot⟩ := cachedPathsFrom_spec h hs
      have hpredecessors := hcache'.predecessors s cached hslot
      have hlt : d < cached.byDestination.length := hcache'.destinations s cached hslot ▸ hd
      have hpair : cached.byDestination[d].getD
          (t.computePairPaths s d cached.predecessors) =
          t.computePairPaths s d cached.predecessors := by
        cases hentry : cached.byDestination[d] with
        | none => rfl
        | some pair =>
          exact hcache'.pairs s cached hslot d pair
            (by rw [getElem?_eq_getElem hlt, hentry])
      simp only [hcached, getElem?_eq_getElem hlt, hpair]
      refine ⟨by rw [hpredecessors]; rfl, hcache'.set hpredecessors ?_ ?_⟩
      · rw [length_set, hcache'.destinations s cached hslot]
      · intro i pair hi
        dsimp only at hi
        rw [getElem?_set] at hi
        split_ifs at hi with hdi
        · rw [← Option.some.inj (Option.some.inj hi), hdi]
        · exact hcache'.pairs s cached hslot i pair hi

lemma consistent_pathsCache (hnodup : t.routingNodeIds.Nodup)
    (hindexes : t.routingNodeIndexes = routingIndexes t.routingNodeIds)
    (queries : List (NodeId × NodeId)) : t.Consistent (t.pathsCache queries) := by
  induction queries using List.reverseRecOn with
  | nil => exact consistent_new
  | append_singleton queries query ih =>
    rw [pathsCache, foldl_append]
    exact (paths_spec ih hnodup hindexes query.1 query.2).2

end BoundedTopology

section RoundTrip

variable {nodeIds : List NodeId} {path : List NodeId}

lemma mapM_eq_some {α β : Type} {f : α → Option β} {g : α → β} {l : List α}
    (h : ∀ x ∈ l, f x = some (g x)) : l.mapM f = some (l.map g) := by
  induction l with
  | nil => rfl
  | cons x l ih =>
    rw [mapM_cons, h x mem_cons_self, ih fun y hy => h y (mem_cons_of_mem _ hy)]
    rfl

lemma indexPath_eq (hnodup : nodeIds.Nodup) (hpath : ∀ n ∈ path, n ∈ nodeIds) :
    indexPath path (routingIndexes nodeIds) = some (path.map nodeIds.idxOf) :=
  mapM_eq_some fun n hn => routingIndexes_of_mem hnodup (hpath n hn)

lemma materializeIndexedPath_eq (hpath : ∀ n ∈ path, n ∈ nodeIds) :
    materializeIndexedPath (path.map nodeIds.idxOf) nodeIds = some path := by
  rw [materializeIndexedPath, mapM_map]
  refine (mapM_eq_some (g := id) fun n hn => ?_).trans (by rw [map_id])
  exact getElem?_idxOf (hpath n hn)

lemma materialize_fromPaths (hnodup : nodeIds.Nodup) {paths : TopologyPaths}
    (hprimary : ∀ n ∈ paths.primary, n ∈ nodeIds)
    (hsecondary : ∀ secondary, paths.secondary = some secondary → ∀ n ∈ secondary.nodes, n ∈ nodeIds) :
    (IndexedTopologyPaths.fromPaths paths (routingIndexes nodeIds)).bind (·.materialize nodeIds) =
      some paths := by
  obtain ⟨primary, _ | secondary⟩ := paths
  · simp [IndexedTopologyPaths.fromPaths, IndexedTopologyPaths.materialize,
      indexPath_eq hnodup hprimary, materializeIndexedPath_eq hprimary]
  · have hnodes := hsecondary secondary rfl
    simp [IndexedTopologyPaths.fromPaths, IndexedTopologyPaths.materialize,
      indexPath_eq hnodup hprimary, materializeIndexedPath_eq hprimary, indexPath_eq hnodup hnodes,
      materializeIndexedPath_eq hnodes]

end RoundTrip

/-! ## One search under two names -/

open BoundedTopology

section Search

variable {nodes : List NodeRecord} {config : BoundedTopologyConfig} {t : BoundedTopology}
  {source destination : NodeId}

lemma Synthesized.indexedAdjacency_getD (h : Synthesized nodes config t) {a : NodeId}
    (ha : a ∈ t.routingNodeIds) :
    t.indexedAdjacency.getD (t.routingNodeIds.idxOf a) [] =
      (t.adjacency.neighbors a).map t.routingNodeIds.idxOf := by
  have hnodup := nodup_of_sorted h.sorted
  rw [h.indexedAdjacency, indexAdjacency, getD_eq_getElem?_getD, getElem?_map,
    getElem?_idxOf ha, Option.map_some, Option.getD_some, h.routingNodeIndexes]
  refine filterMap_eq_map_iff_forall_eq_some.mpr fun b hb => ?_
  refine routingIndexes_of_mem hnodup ((h.members b).mp ?_)
  exact h.undirected.mem_of_adj (h.undirected.adj_iff.mpr hb)

lemma Synthesized.mirrors (h : Synthesized nodes config t) (hsource : source ∈ t.routingNodeIds) :
    Mirrors t.routingNodeIds.idxOf t.routingNodeIds.idxOf t.routingNodeIds.toFinset
      (Search.loop (fun _ => false)
        (fun current _ => (t.adjacency.neighbors current).map fun neighbor => (neighbor, current))
        t.turns (Search.start [(source, source)]))
      (Search.loop (fun _ => false)
        (fun current _ => (t.indexedAdjacency.getD current []).map fun neighbor => (neighbor, current))
        t.turns (Search.start [(t.routingNodeIds.idxOf source, t.routingNodeIds.idxOf source)])) := by
  have hnodup := nodup_of_sorted h.sorted
  have hmember : ∀ a b, b ∈ t.adjacency.neighbors a → b ∈ t.routingNodeIds := fun a b hb =>
    (h.members b).mp (h.undirected.mem_of_adj (h.undirected.adj_iff.mpr hb))
  have hinj : ∀ a ∈ t.routingNodeIds.toFinset, ∀ b ∈ t.routingNodeIds.toFinset,
      t.routingNodeIds.idxOf a = t.routingNodeIds.idxOf b → a = b := by
    intro a ha b hb heq
    have hat := getElem?_idxOf (mem_toFinset.mp ha)
    rw [heq, getElem?_idxOf (mem_toFinset.mp hb)] at hat
    exact (Option.some.inj hat).symm
  refine loop_map (fun _ => false) (fun _ => false) _ _ hinj (fun _ _ => rfl) ?_ ?_ t.turns
    (.start hinj (mem_toFinset.mpr hsource) source)
  · intro a ha l
    rw [h.indexedAdjacency_getD (mem_toFinset.mp ha), map_map, map_map]
    rfl
  · intro a _ l p hp
    obtain ⟨b, hb, rfl⟩ := mem_map.mp hp
    exact mem_toFinset.mpr (hmember a b hb)

lemma edgeIsUnavailable_empty (a b : NodeId) : edgeIsUnavailable a b ∅ = false := by
  cases hedge : TopologyEdge.new a b <;> simp [edgeIsUnavailable, hedge]

lemma Synthesized.reconstructIndexedPath_eq (h : Synthesized nodes config t)
    (hsource : source ∈ t.routingNodeIds) (hdest : destination ∈ t.routingNodeIds) :
    ∃ trail, t.shortestPath source destination = some trail ∧ (∀ n ∈ trail, n ∈ t.routingNodeIds) ∧
      reconstructIndexedPath (t.routingNodeIds.idxOf source)
        (t.routingNodeIds.idxOf destination)
        (t.computePathsFrom (t.routingNodeIds.idxOf source)).predecessors =
          some (trail.map t.routingNodeIds.idxOf) := by
  have hnodup := nodup_of_sorted h.sorted
  have hlength : t.routingNodeIds.idxOf source < t.indexedAdjacency.length := by
    rw [h.indexedAdjacency, indexAdjacency, length_map]
    exact idxOf_lt_length_iff.mpr hsource
  have hin : source ∈ t.adjacency ∧ destination ∈ t.adjacency :=
    ⟨(h.members source).mpr hsource, (h.members destination).mpr hdest⟩
  rw [shortestPath, shortestPathAvoiding, if_neg (by simp [hin])]
  by_cases hne : source = destination
  · subst hne
    refine ⟨[source], if_pos rfl, by simpa using hsource, ?_⟩
    simp [reconstructIndexedPath, reconstruct]
  rw [if_neg hne]
  have hsearch := search_avoiding (t := t) ∅ ∅ hne
  -- nothing is unavailable, so the search looks at every neighbour
  have hall : ∀ current, (t.adjacency.neighbors current).filter (fun neighbor =>
      !(∅ : Std.TreeSet NodeId).contains neighbor && !edgeIsUnavailable current neighbor ∅) =
      t.adjacency.neighbors current := by
    intro current
    exact filter_eq_self.mpr fun neighbor _ => by simp [edgeIsUnavailable_empty]
  simp only [hall] at hsearch ⊢
  cases hsearch with
  | nothing hfound _ _ hnone =>
    -- the backbone is connected
    have hreach := (SimpleGraph.reachable_iff_reflTransGen _ _).mp
      (h.connected source hin.1 destination hin.2)
    obtain ⟨n, hsteps⟩ := exists_steps_iff.mpr hreach
    obtain ⟨p, hp, -⟩ := hsteps.exists_trail
    refine (hnone p (hp.mono fun a _ b _ hab => ⟨h.undirected.adj_iff.mp hab, by simp, ?_⟩)).elim
    exact edgeIsUnavailable_empty a b
  | path hfound trail hdistinct hlabelled htrail hshortest =>
    have hmember : ∀ n ∈ trail, n ∈ t.routingNodeIds := by
      refine htrail.forall_mem hsource fun a b hab => (h.members b).mp ?_
      exact h.undirected.mem_of_adj (h.undirected.adj_iff.mpr hab.1.1)
    -- the search for `destination` labels as the full search does, and that one is mirrored
    have hcopy : ∀ y ∈ trail, ∀ x, (Search.loop (fun neighbor => decide (neighbor = destination))
        (fun current _ => (t.adjacency.neighbors current).map fun neighbor => (neighbor, current))
        t.turns (Search.start [(source, source)])).labels[y]? = some x →
        (t.computePathsFrom (t.routingNodeIds.idxOf source)).predecessors[t.routingNodeIds.idxOf y]? =
          some (t.routingNodeIds.idxOf x) := by
      intro y hy x hlabel
      have hfull := loop_sub _ _ t.turns _ rfl hlabel
      rw [computePathsFrom, indexedShortestPathPredecessors,
        if_pos hlength]
      dsimp only [Option.getD_some]
      rw [(h.mirrors hsource).labels y (mem_toFinset.mpr (hmember y hy)), hfull]
      rfl
    have hinj : ∀ y ∈ t.routingNodeIds, ∀ x ∈ t.routingNodeIds,
        t.routingNodeIds.idxOf y = t.routingNodeIds.idxOf x → y = x :=
      fun y hy x hx heq => (idxOf_inj hy).mp heq
    have hpath : Trail (fun x y =>
        (t.computePathsFrom (t.routingNodeIds.idxOf source)).predecessors[y]? = some x ∧
          y ≠ t.routingNodeIds.idxOf source) (t.routingNodeIds.idxOf source)
        (t.routingNodeIds.idxOf destination) (trail.map t.routingNodeIds.idxOf) := by
      have hnamed : Trail (fun x y =>
          (t.computePathsFrom (t.routingNodeIds.idxOf source)).predecessors[
            t.routingNodeIds.idxOf y]? = some (t.routingNodeIds.idxOf x) ∧
          t.routingNodeIds.idxOf y ≠ t.routingNodeIds.idxOf source) source destination trail := by
        refine htrail.mono fun x _ y hy hxy => ?_
        obtain ⟨-, hne, l, hlabel, rfl, -⟩ := hxy
        exact ⟨hcopy y hy l hlabel, fun heq => hne (hinj y (hmember y hy) source hsource heq)⟩
      refine hnamed.map (fun a => t.routingNodeIds.idxOf a) ?_
      exact fun x y hxy => hxy
    have hsize : (trail.map t.routingNodeIds.idxOf).length ≤
        (t.computePathsFrom (t.routingNodeIds.idxOf source)).predecessors.size := by
      refine length_le_size (hdistinct.map_on fun x hx y hy heq =>
        hinj x (hmember x hx) y (hmember y hy) heq) fun i hi => ?_
      obtain ⟨y, hy, rfl⟩ := mem_map.mp hi
      obtain ⟨x, hx⟩ := OrderedMap.mem_iff_exists.mp (hlabelled y hy)
      exact OrderedMap.mem_of_getElem? (hcopy y hy x hx)
    refine ⟨trail, ?_, hmember, ?_⟩
    · rw [if_pos hfound, reconstruct_trail ?_
        ((length_le_size hdistinct hlabelled).trans (Nat.le_succ _)), append_nil]
      refine htrail.mono fun x _ y _ hxy => ?_
      obtain ⟨-, hsource, l, hl, rfl, -⟩ := hxy
      exact ⟨hl, hsource⟩
    · rw [reconstructIndexedPath,
        reconstruct_trail hpath (hsize.trans (Nat.le_succ _)), append_nil]

lemma SimpleWalk.mem {walk : List NodeId} (hwalk : SimpleWalk t.adjacency source destination walk)
    (h : t.adjacency.Undirected) (hsource : source ∈ t.adjacency) : ∀ n ∈ walk, n ∈ t.adjacency := by
  have htrail : Trail (fun a b => b ∈ t.adjacency.neighbors a) source destination walk :=
    ⟨hwalk.starts, hwalk.ends, hwalk.linked⟩
  exact htrail.forall_mem hsource fun a b hab => h.mem_of_adj (h.adj_iff.mpr hab)

lemma mem_secondaryPath (h : t.adjacency.Undirected) {primary : List NodeId} {secondary : SecondaryPath}
    (hsecondary : t.secondaryPath source destination primary = some secondary) :
    ∀ n ∈ secondary.nodes, n ∈ t.adjacency := by
  intro n hn
  rw [secondaryPath] at hsecondary
  split at hsecondary
  · rename_i nodes hnodes
    obtain rfl := Option.some.inj hsecondary
    exact ((availableWalk_of_eq_some h hnodes).available n hn).1
  · obtain ⟨nodes, hnodes, rfl⟩ := Option.map_eq_some_iff.mp hsecondary
    exact ((availableWalk_of_eq_some h hnodes).available n hn).1

section

variable (h : Synthesized nodes config t)
include h

lemma Synthesized.size_eq : t.adjacency.size = nodes.length := by
  rw [size_eq_length (nodup_of_sorted h.sorted) h.members, h.routingNodeIds,
    (sortedNodeIds_perm nodes).length_eq, length_map]

lemma Synthesized.mem_pathsFromPrimary {primary : List NodeId}
    (hsource : source ∈ t.adjacency) (hdest : destination ∈ t.adjacency)
    (hprimary : ∀ n ∈ primary, n ∈ t.adjacency) :
    (∀ n ∈ (t.pathsFromPrimary source destination primary).primary, n ∈ t.adjacency) ∧
    ∀ secondary, (t.pathsFromPrimary source destination primary).secondary = some secondary →
      ∀ n ∈ secondary.nodes, n ∈ t.adjacency := by
  rw [pathsFromPrimary]
  by_cases hne : source = destination
  · rw [if_pos hne]
    exact ⟨hprimary, by simp⟩
  · rw [if_neg hne]
    dsimp only
    split_ifs
    · exact ⟨hprimary, fun secondary hsecondary => mem_secondaryPath h.undirected hsecondary⟩
    · split
      · rename_i first second htwo
        have hthree : 3 ≤ t.adjacency.size := by
          by_contra hsmall
          rw [twoInternallyVertexDisjointPaths, if_pos (.inr (by omega))] at htwo
          cases htwo
        obtain ⟨p, q, hpq, hwalks⟩ := twoInternallyVertexDisjointPaths_spec h.undirected hthree
          (h.survives (h.size_eq ▸ hthree)) hsource hdest hne
        obtain ⟨rfl, rfl⟩ := Prod.mk.inj (Option.some.inj (hpq.symm.trans htwo))
        refine ⟨hwalks.first.mem h.undirected hsource, fun secondary hsecondary => ?_⟩
        obtain rfl := Option.some.inj hsecondary
        exact hwalks.second.mem h.undirected hsource
      · exact ⟨hprimary, fun secondary hsecondary => mem_secondaryPath h.undirected hsecondary⟩

lemma Synthesized.freshPaths_eq (source destination : NodeId) :
    t.freshPaths source destination = t.uncachedPaths source destination := by
  have hnodup := nodup_of_sorted h.sorted
  rw [freshPaths, uncachedPaths, h.routingNodeIndexes]
  by_cases hends : source ∈ t.routingNodeIds ∧ destination ∈ t.routingNodeIds
  · obtain ⟨hsource, hdest⟩ := hends
    obtain ⟨trail, hshortest, hmember, hindexed⟩ := h.reconstructIndexedPath_eq hsource hdest
    have hin : ∀ n ∈ trail, n ∈ t.adjacency := fun n hn => (h.members n).mpr (hmember n hn)
    obtain ⟨hprimary, hsecondary⟩ := h.mem_pathsFromPrimary ((h.members source).mpr hsource)
      ((h.members destination).mpr hdest) hin
    rw [hshortest, routingIndexes_of_mem hnodup hsource, routingIndexes_of_mem hnodup hdest]
    simp only [Option.bind_eq_bind, Option.bind_some, computePairPaths, hindexed,
      getElem?_idxOf hsource, getElem?_idxOf hdest, materializeIndexedPath_eq hmember,
      Option.map_some, h.routingNodeIndexes]
    exact materialize_fromPaths hnodup (fun n hn => (h.members n).mp (hprimary n hn))
      fun secondary hs n hn => (h.members n).mp (hsecondary secondary hs n hn)
  · -- an unknown node has neither a position nor a place in the adjacency map
    have hnone : t.shortestPath source destination = none := by
      rw [shortestPath, shortestPathAvoiding, if_pos]
      rw [h.members, h.members]
      tauto
    have hunknown : ∀ n, n ∉ t.routingNodeIds → (routingIndexes t.routingNodeIds)[n]? = none := by
      intro n hn
      cases hindex : (routingIndexes t.routingNodeIds)[n]? with
      | none => rfl
      | some i => exact absurd (mem_of_getElem? ((getElem?_routingIndexes hnodup).mp hindex)) hn
    rw [hnone, Option.map_none]
    by_cases hsource : source ∈ t.routingNodeIds
    · have hdest : destination ∉ t.routingNodeIds := fun hdest => hends ⟨hsource, hdest⟩
      rw [hunknown destination hdest]
      simp
    · rw [hunknown source hsource]
      rfl

lemma Synthesized.paths_eq (queries : List (NodeId × NodeId)) (source destination : NodeId) :
    (t.paths (t.pathsCache queries) source destination).1 = t.uncachedPaths source destination := by
  have hnodup := nodup_of_sorted h.sorted
  have hconsistent := consistent_pathsCache hnodup h.routingNodeIndexes queries
  rw [(paths_spec hconsistent hnodup h.routingNodeIndexes source destination).1]
  exact h.freshPaths_eq source destination

end

end Search

/-- After any queries, the cached `paths` answers as `shortest_path` followed by `paths_from_primary`
does. -/
theorem cached_paths_eq_uncached (hashes : TopologyHashes) (nodes : List NodeRecord)
    (config : BoundedTopologyConfig) (t : BoundedTopology)
    (h : synthesize hashes nodes config = .ok t) (queries : List (NodeId × NodeId))
    (source destination : NodeId) :
    (t.paths (t.pathsCache queries) source destination).1 =
      (t.shortestPath source destination).map (t.pathsFromPrimary source destination) :=
  (synthesized h).paths_eq queries source destination

/-- On three or more nodes `paths` gives any two members a primary path and a secondary one that shares only
its ends with it, and the search for both at once always succeeds. -/
theorem two_disjoint_paths (hashes : TopologyHashes) (nodes : List NodeRecord)
    (config : BoundedTopologyConfig) (t : BoundedTopology)
    (h : synthesize hashes nodes config = .ok t) (hthree : 3 ≤ nodes.length)
    (queries : List (NodeId × NodeId)) (source destination : NodeId)
    (hsource : source ∈ nodes.map (·.nodeId)) (hdest : destination ∈ nodes.map (·.nodeId))
    (hne : source ≠ destination) :
    (∃ primary secondary, (t.paths (t.pathsCache queries) source destination).1 =
        some ⟨primary, some ⟨.vertexDisjoint, secondary⟩⟩ ∧
      DisjointWalks t.adjacency source destination primary secondary) ∧
    ∃ primary secondary,
      twoInternallyVertexDisjointPaths t.adjacency source destination = some (primary, secondary) ∧
      DisjointWalks t.adjacency source destination primary secondary := by
  have hsyn := synthesized h
  have hids : ∀ n ∈ nodes.map (·.nodeId), n ∈ t.routingNodeIds := fun n hn => by
    rw [hsyn.routingNodeIds]
    exact (sortedNodeIds_perm nodes).mem_iff.mpr hn
  have hmember : ∀ n ∈ nodes.map (·.nodeId), n ∈ t.adjacency :=
    fun n hn => (hsyn.members n).mpr (hids n hn)
  have hsize : 3 ≤ t.adjacency.size := hsyn.size_eq ▸ hthree
  refine ⟨?_, twoInternallyVertexDisjointPaths_spec hsyn.undirected hsize (hsyn.survives hthree)
    (hmember source hsource) (hmember destination hdest) hne⟩
  obtain ⟨trail, hshortest, -⟩ :=
    hsyn.reconstructIndexedPath_eq (hids source hsource) (hids destination hdest)
  rcases BoundedTopology.shortestPathAvoiding_spec hsyn.undirected source destination ∅ ∅ with
    ⟨hnone, -⟩ | ⟨p, hsome, hdistinct, hwalk, -⟩
  · rw [BoundedTopology.shortestPath, hnone] at hshortest
    cases hshortest
  · obtain ⟨primary, secondary, hpaths, hwalks⟩ := pathsFromPrimary_spec hsyn.undirected hsize
      (hsyn.survives hthree) (simpleWalk_of_available hwalk hdistinct) (hmember source hsource)
      (hmember destination hdest) hne
    refine ⟨primary, secondary, ?_, hwalks⟩
    rw [hsyn.paths_eq, BoundedTopology.uncachedPaths, BoundedTopology.shortestPath, hsome,
      Option.map_some, hpaths]

/-- **One failed node is routed around**: between any two others `paths_avoiding` still finds a way, and a
shortest one. -/
theorem failure_routed_around (hashes : TopologyHashes) (nodes : List NodeRecord)
    (config : BoundedTopologyConfig) (t : BoundedTopology)
    (h : synthesize hashes nodes config = .ok t) (hthree : 3 ≤ nodes.length)
    (failed : NodeId) (down : Std.TreeSet NodeId) (hdown : ∀ n ∈ down, n = failed)
    (source destination : NodeId) (hsource : source ∈ nodes.map (·.nodeId))
    (hdest : destination ∈ nodes.map (·.nodeId)) (hne : source ≠ destination)
    (hup : source ∉ down) (hup' : destination ∉ down) :
    ∃ paths, t.pathsAvoiding source destination down = some paths ∧
      t.AvailableWalk down ∅ source destination paths.primary ∧
      ∀ walk, t.AvailableWalk down ∅ source destination walk → paths.primary.length ≤ walk.length := by
  have hsyn := synthesized h
  have hmember : ∀ n ∈ nodes.map (·.nodeId), n ∈ t.adjacency := by
    intro n hn
    rw [hsyn.members, hsyn.routingNodeIds, (sortedNodeIds_perm nodes).mem_iff]
    exact hn
  obtain ⟨p, q, -, hwalks⟩ := twoInternallyVertexDisjointPaths_spec hsyn.undirected
    (hsyn.size_eq ▸ hthree) (hsyn.survives hthree) (hmember source hsource) (hmember destination hdest) hne
  -- two walks that share their ends only do not both pass the failed node
  obtain ⟨walk, hwalk, havailable⟩ : ∃ walk, SimpleWalk t.adjacency source destination walk ∧
      ∀ n ∈ walk, n ∉ down := by
    by_cases hp : ∀ n ∈ p, n ∉ down
    · exact ⟨p, hwalks.first, hp⟩
    · push Not at hp
      obtain ⟨n, hn, hndown⟩ := hp
      refine ⟨q, hwalks.second, fun m hm hmdown => ?_⟩
      obtain rfl : m = n := (hdown m hmdown).trans (hdown n hndown).symm
      rcases hwalks.nodes m hn hm with rfl | rfl
      · exact hup hmdown
      · exact hup' hmdown
  have htrail : Trail (t.Link down ∅) source destination walk :=
    Trail.mono ⟨hwalk.starts, hwalk.ends, hwalk.linked⟩ fun x _ y hy hxy =>
      ⟨hxy, havailable y hy, edgeIsUnavailable_empty x y⟩
  have hexists := (availableWalk_iff hsyn.undirected).mpr
    ⟨hmember source hsource, hup, htrail⟩
  rcases shortestPathAvoiding_spec hsyn.undirected source destination down ∅ with
    ⟨-, hno⟩ | ⟨primary, hsome, -, hprimary, hshortest⟩
  · exact absurd hexists (hno walk)
  · rw [pathsAvoiding, hsome]
    exact ⟨_, if_neg hne, hprimary, hshortest⟩

namespace SampleHierarchy

theorem cached_paths_eq_uncached_sample :
    (topology.paths (topology.pathsCache [(⟨"c"⟩, ⟨"a"⟩)]) ⟨"a"⟩ ⟨"c"⟩).1 =
      some ⟨[⟨"a"⟩, ⟨"e"⟩, ⟨"c"⟩], some ⟨.vertexDisjoint, [⟨"a"⟩, ⟨"b"⟩, ⟨"d"⟩, ⟨"c"⟩]⟩⟩ :=
  (cached_paths_eq_uncached hashes (nodeIds.map record) config topology topology_eq _ _ _).trans
    (by decide +kernel)

theorem two_disjoint_paths_sample :
    ∃ primary secondary, twoInternallyVertexDisjointPaths topology.adjacency ⟨"a"⟩ ⟨"c"⟩ =
        some (primary, secondary) ∧
      DisjointWalks topology.adjacency ⟨"a"⟩ ⟨"c"⟩ primary secondary :=
  (two_disjoint_paths hashes (nodeIds.map record) config topology topology_eq (by decide) [] _ _
    (by decide) (by decide) (by decide)).2

theorem failure_routed_around_sample :
    ∃ paths, topology.pathsAvoiding ⟨"a"⟩ ⟨"c"⟩ down = some paths ∧
      topology.AvailableWalk down ∅ ⟨"a"⟩ ⟨"c"⟩ paths.primary := by
  obtain ⟨paths, hpaths, hwalk, -⟩ := failure_routed_around hashes (nodeIds.map record) config topology
    topology_eq (by decide) ⟨"e"⟩ down (by simp [down]) ⟨"a"⟩ ⟨"c"⟩ (by decide) (by decide) (by decide)
    (by simp [down]) (by simp [down])
  exact ⟨paths, hpaths, hwalk⟩

end SampleHierarchy

end HeteroNetwork
