import HeteroNetwork.ControlPlane.Topology.PathCache
import HeteroNetwork.ControlPlane.Topology.LargeMembership

/-!
# Next hops

Every node computes a table of first hops on its own: for each destination the neighbour that is
nearest to it without the node itself, and a second one that does not depend on the first.  The tables
hold positions as 32-bit numbers.
-/

namespace HeteroNetwork

open Std (TreeMap)

open Search OrderedMap Relation List BoundedTopology

/-- `u32::try_from(n).ok()`: positions are kept in 32 bits. -/
def compactIndex (n : ℕ) : Option ℕ := if n < 2 ^ 32 then some n else none

structure CompactNextHops where
  primary : ℕ
  secondary : Option ℕ
deriving DecidableEq

/-- Pairs of distance and neighbour are compared in turn. -/
def nearerFirst (left right : ℕ × ℕ) : Prop :=
  left.1 < right.1 ∨ left.1 = right.1 ∧ left.2 ≤ right.2

instance : DecidableRel nearerFirst := fun left right => by
  unfold nearerFirst
  infer_instance

def sortedCandidates (candidateDistances : List (ℕ × TreeMap ℕ ℕ)) (destinationIndex : ℕ) :
    List (ℕ × ℕ) :=
  (candidateDistances.filterMap fun (neighbor, distances) =>
    distances[destinationIndex]?.map fun distance => (distance + 1, neighbor)).insertionSort nearerFirst

def reliableHops (alternateLabels : TreeMap ℕ (TreeMap ℕ ℕ)) (destinationIndex primary : ℕ) :
    Option (ℕ × ℕ) :=
  ((alternateLabels[primary]?.bind fun labels => labels[destinationIndex]?).filter
    fun secondary => secondary ≠ primary).map fun secondary => (primary, secondary)

/-- The entry for one destination; without a candidate the whole table is given up. -/
def nextHopsTo (candidateDistances : List (ℕ × TreeMap ℕ ℕ))
    (alternateLabels : TreeMap ℕ (TreeMap ℕ ℕ)) (destinationIndex : ℕ) :
    Option CompactNextHops :=
  match sortedCandidates candidateDistances destinationIndex with
  | [] => none
  | (distance, fallbackPrimary) :: rest =>
    some (match ((distance, fallbackPrimary) :: rest).findSome? fun (_, primary) =>
        reliableHops alternateLabels destinationIndex primary with
      | some (primary, secondary) => ⟨primary, some secondary⟩
      | none => ⟨fallbackPrimary, none⟩)

namespace BoundedTopology

variable (t : BoundedTopology)

/-- The inner loop of the distances: one that does not fit into 32 bits is not written. -/
def distancesOver (unavailableIndex current distance : ℕ) : List (ℕ × ℕ) :=
  if distance + 1 < 2 ^ 32 then
    ((t.indexedAdjacency.getD current []).filter (· ≠ unavailableIndex)).map
      fun neighbor => (neighbor, distance + 1)
  else []

def indexedDistancesFromAvoiding (sourceIndex unavailableIndex : ℕ) : TreeMap ℕ ℕ :=
  (Search.loop (fun _ => false) (t.distancesOver unavailableIndex) t.turns
    (Search.start [(sourceIndex, 0)])).labels

/-- The inner loop of the labels: nothing is handed on over the terminal. -/
def labelsOver (sourceIndex terminalIndex current label : ℕ) : List (ℕ × ℕ) :=
  if current = terminalIndex then []
  else ((t.indexedAdjacency.getD current []).filter (· ≠ sourceIndex)).map
    fun neighbor => (neighbor, label)

/-- The neighbours of the source other than the terminal label themselves; one that does not fit into
32 bits ends the function early. -/
def alternateFirstHopLabels (sourceIndex terminalIndex : ℕ) : TreeMap ℕ ℕ :=
  let seeds := (t.indexedAdjacency.getD sourceIndex []).filter (· ≠ terminalIndex)
  let fitting := seeds.takeWhile (· < 2 ^ 32)
  if fitting.length < seeds.length then .ofList (fitting.map fun neighbor => (neighbor, neighbor))
  else
    (Search.loop (fun _ => false) (t.labelsOver sourceIndex terminalIndex) t.turns
      (Search.start (seeds.map fun neighbor => (neighbor, neighbor)))).labels

def computeNextHopsFrom (sourceIndex : ℕ) : Option (List (Option CompactNextHops)) :=
  match t.indexedAdjacency[sourceIndex]? with
  | none => none
  | some sourceNeighbors =>
    let candidateDistances := sourceNeighbors.filterMap fun neighbor =>
      (compactIndex neighbor).map fun fitting =>
        (fitting, t.indexedDistancesFromAvoiding neighbor sourceIndex)
    let alternateLabels := TreeMap.ofList (sourceNeighbors.filterMap fun neighbor =>
      (compactIndex neighbor).map fun fitting =>
        (fitting, t.alternateFirstHopLabels sourceIndex neighbor))
    (List.range t.routingNodeIds.length).mapM fun destinationIndex =>
      if destinationIndex = sourceIndex then some none
      else (nextHopsTo candidateDistances alternateLabels destinationIndex).map some

abbrev NextHopCache := TreeMap ℕ (List (Option CompactNextHops))

def cachedNextHopsFrom (cache : NextHopCache) (sourceIndex : ℕ) :
    Option (List (Option CompactNextHops)) × NextHopCache :=
  match cache[sourceIndex]? with
  | some cached => (some cached, cache)
  | none =>
    match t.computeNextHopsFrom sourceIndex with
    | none => (none, cache)
    | some computed => (some computed, cache.insert sourceIndex computed)

def nextHopTable (cache : NextHopCache) (source : NodeId) :
    Option (List (Option CompactNextHops)) × NextHopCache :=
  match t.routingNodeIndexes[source]? with
  | none => (none, cache)
  | some sourceIndex => t.cachedNextHopsFrom cache sourceIndex

def hopsTo (compact : List (Option CompactNextHops)) (destination : NodeId) :
    Option (NodeId × Option NodeId) := do
  let destinationIndex ← t.routingNodeIndexes[destination]?
  let nextHops ← (compact[destinationIndex]?).join
  let primary ← t.routingNodeIds[nextHops.primary]?
  some (primary, nextHops.secondary.bind fun index => t.routingNodeIds[index]?)

def nextHopsFrom (cache : NextHopCache) (source : NodeId) :
    Option (TreeMap NodeId (NodeId × Option NodeId)) × NextHopCache :=
  match t.nextHopTable cache source with
  | (none, cache) => (none, cache)
  | (some table, cache) =>
    (some (.ofList (t.routingNodeIds.filterMap fun destination =>
      (t.hopsTo table destination).map fun hops => (destination, hops))), cache)

def nextHopCache (queries : List NodeId) : NextHopCache :=
  queries.foldl (fun cache source => (t.nextHopTable cache source).2) ∅

/-! ## Links by position -/

def Hop (i j : ℕ) : Prop := j ∈ t.indexedAdjacency.getD i []

end BoundedTopology

section Positions

variable {nodes : List NodeRecord} {config : BoundedTopologyConfig} {t : BoundedTopology} {i j k s : ℕ}

namespace Synthesized

variable (h : Synthesized nodes config t)

include h

lemma nodup : t.routingNodeIds.Nodup := nodup_of_sorted h.sorted

lemma mem_of_neighbor {a b : NodeId} (hab : b ∈ t.adjacency.neighbors a) : b ∈ t.routingNodeIds :=
  (h.members b).mp (h.undirected.mem_of_adj (h.undirected.adj_iff.mpr hab))

lemma length_routingNodeIds : t.routingNodeIds.length = nodes.length := by
  rw [h.routingNodeIds, (sortedNodeIds_perm nodes).length_eq, length_map]

lemma keys_eq : t.adjacency.keys = t.routingNodeIds := by
  have hperm : t.adjacency.keys.Perm t.routingNodeIds := by
    refine (perm_ext_iff_of_nodup (nodup_keys _) h.nodup).mpr ?_
    intro n
    rw [TreeMap.mem_keys, h.members]
  have hkeys : t.adjacency.keys.Pairwise (· ≤ ·) :=
    TreeMap.ordered_keys.imp fun hlt => le_of_lt (compare_lt_iff_lt.mp hlt)
  exact hperm.eq_of_pairwise (fun a b _ _ hab hba => le_antisymm hab hba) hkeys
    (h.sorted.imp fun hlt => le_of_lt hlt)

lemma row_eq (hi : i < t.routingNodeIds.length) : t.indexedAdjacency.getD i [] =
    (t.adjacency.neighbors t.routingNodeIds[i]).map t.routingNodeIds.idxOf := by
  have hrow := h.indexedAdjacency_getD (getElem_mem hi)
  rwa [h.nodup.idxOf_getElem] at hrow

lemma hop_iff : t.Hop i j ↔ Linked t.adjacency i j := by
  rw [Linked, h.keys_eq, Hop]
  by_cases hi : i < t.routingNodeIds.length
  · rw [h.row_eq hi, mem_map]
    constructor
    · rintro ⟨b, hb, rfl⟩
      exact ⟨_, b, getElem?_eq_getElem hi, getElem?_idxOf (h.mem_of_neighbor hb), hb⟩
    · rintro ⟨a, b, ha, hb, hab⟩
      rw [getElem?_eq_getElem hi] at ha
      obtain rfl := Option.some.inj ha
      exact ⟨b, hab, (idxOf_eq_iff h.nodup (mem_of_getElem? hb)).mpr hb⟩
  · have hout : t.indexedAdjacency.getD i [] = [] := by
      rw [h.indexedAdjacency, indexAdjacency, getD_eq_getElem?_getD,
        getElem?_eq_none (by rw [length_map]; omega)]
      rfl
    rw [hout]
    constructor
    · intro hj
      cases hj
    · rintro ⟨a, b, ha, -⟩
      exact absurd (List.getElem?_eq_some_iff.mp ha).1 hi

lemma hop_inside (hij : t.Hop i j) : i < t.routingNodeIds.length ∧ j < t.routingNodeIds.length := by
  have hinside := (h.hop_iff.mp hij).inside
  rwa [h.keys_eq] at hinside

lemma hop_ne (hij : t.Hop i j) : i ≠ j :=
  (h.hop_iff.mp hij).ne h.undirected

lemma hop_robust (hthree : 3 ≤ nodes.length) : NodeSplit.Robust t.Hop t.routingNodeIds.length := by
  have hrobust := robust_linked h.undirected (h.size_eq ▸ hthree) (h.survives hthree)
  rw [h.keys_eq] at hrobust
  have heq : Linked t.adjacency = t.Hop := by
    funext i j
    exact propext h.hop_iff.symm
  rwa [heq] at hrobust

lemma hop_of_mem {a b : NodeId} (hab : b ∈ t.adjacency.neighbors a) :
    t.Hop (t.routingNodeIds.idxOf a) (t.routingNodeIds.idxOf b) := by
  have ha := (h.members a).mp (Adjacency.mem_of_mem_neighbors hab)
  rw [Hop, h.indexedAdjacency_getD ha]
  exact mem_map_of_mem hab

lemma hop_connected (hi : i < t.routingNodeIds.length) (hj : j < t.routingNodeIds.length) :
    ReflTransGen t.Hop i j := by
  have hmember : ∀ k (hk : k < t.routingNodeIds.length), t.routingNodeIds[k] ∈ t.adjacency :=
    fun k hk => (h.members _).mpr (getElem_mem hk)
  have hreach := (SimpleGraph.reachable_iff_reflTransGen _ _).mp
    (h.connected _ (hmember i hi) _ (hmember j hj))
  have hlifted : ReflTransGen t.Hop (t.routingNodeIds.idxOf t.routingNodeIds[i])
      (t.routingNodeIds.idxOf t.routingNodeIds[j]) :=
    hreach.lift t.routingNodeIds.idxOf fun a b hab => h.hop_of_mem (h.undirected.adj_iff.mp hab)
  rwa [h.nodup.idxOf_getElem, h.nodup.idxOf_getElem] at hlifted

lemma length_le_turns : t.routingNodeIds.length ≤ t.turns := by
  have hsub : t.routingNodeIds.toFinset ⊆ t.adjacency.mentions.toFinset := by
    intro n hn
    rw [mem_toFinset] at hn ⊢
    exact Adjacency.mem_mentions_of_mem ((h.members n).mpr hn)
  have hcard := Finset.card_le_card hsub
  rw [toFinset_card_of_nodup h.nodup] at hcard
  exact (hcard.trans (toFinset_card_le _)).trans (Nat.le_succ _)

end Synthesized

end Positions

/-! ## Distances without the source -/

def Shortest {α : Type} (r : α → α → Prop) (n : ℕ) (a b : α) : Prop :=
  Steps r n a b ∧ ∀ m, Steps r m a b → n ≤ m

section Distances

variable {nodes : List NodeRecord} {config : BoundedTopologyConfig} {t : BoundedTopology}
  {s v d m n : ℕ}

/-- A link that does not lead to `s`. -/
def HopAround (t : BoundedTopology) (s a b : ℕ) : Prop := t.Hop a b ∧ b ≠ s

lemma exists_around (hwalk : Steps t.Hop m s d) (hne : d ≠ s) :
    ∃ v k, t.Hop s v ∧ Steps (HopAround t s) k v d ∧ k + 1 ≤ m := by
  generalize hstart : s = a at hwalk
  induction hwalk with
  | refl a => exact absurd hstart.symm hne
  | @tail m a b c _ hbc ih =>
    subst hstart
    by_cases hb : b = s
    · subst hb
      exact ⟨c, 0, hbc, .refl c, by omega⟩
    · obtain ⟨v, k, hv, hsteps, hk⟩ := ih hb rfl
      exact ⟨v, k + 1, hv, hsteps.tail ⟨hbc, hne⟩, by omega⟩

lemma steps_of_around (h : Steps (HopAround t s) m v d) : Steps t.Hop m v d := by
  induction h with
  | refl a => exact .refl a
  | tail _ hbc ih => exact ih.tail hbc.1

lemma mem_distancesOver {a l : ℕ} {p : ℕ × ℕ} : p ∈ t.distancesOver s a l ↔
    l + 1 < 2 ^ 32 ∧ HopAround t s a p.1 ∧ p.2 = l + 1 := by
  obtain ⟨b, k⟩ := p
  rw [distancesOver]
  by_cases hfits : l + 1 < 2 ^ 32
  · rw [if_pos hfits]
    simp only [mem_map, mem_filter, decide_eq_true_eq, Prod.mk.injEq]
    constructor
    · rintro ⟨_, hb, rfl, rfl⟩
      exact ⟨hfits, hb, rfl⟩
    · rintro ⟨-, hb, rfl⟩
      exact ⟨b, hb, rfl, rfl⟩
  · rw [if_neg hfits]
    exact ⟨fun hmem => absurd hmem not_mem_nil, fun hmem => absurd hmem.1 hfits⟩

/-- **The distances without the source are exact**, as long as every position fits into 32 bits. -/
theorem Synthesized.getElem?_distances (h : Synthesized nodes config t)
    (hcount : t.routingNodeIds.length ≤ 2 ^ 32) (hs : s < t.routingNodeIds.length)
    (hv : v < t.routingNodeIds.length) (hvs : v ≠ s) :
    (t.indexedDistancesFromAvoiding v s)[d]? = some m ↔ Shortest (HopAround t s) m v d := by
  let all := (Finset.range t.routingNodeIds.length).erase s
  have hcard : all.card = t.routingNodeIds.length - 1 := by
    rw [Finset.card_erase_of_mem (Finset.mem_range.mpr hs), Finset.card_range]
  have hvall : v ∈ all := Finset.mem_erase.mpr ⟨hvs, Finset.mem_range.mpr hv⟩
  have haround : ∀ a b, HopAround t s a b → b ∈ all := fun a b hab =>
    Finset.mem_erase.mpr ⟨hab.2, Finset.mem_range.mpr (h.hop_inside hab.1).2⟩
  obtain ⟨depth, hcomplete⟩ := search_all (t.distancesOver s) [(v, 0)] all
    (fun a _ l p hp => haround a p.1 (mem_distancesOver.mp hp).2.1) (by simp) (by simpa using hvall)
    (show all.card ≤ t.turns from hcard ▸ (Nat.sub_le _ _).trans h.length_le_turns)
  rw [indexedDistancesFromAvoiding]
  generalize (Search.loop (fun _ => false) (t.distancesOver s) t.turns
    (Search.start [(v, 0)])).labels = labels at hcomplete ⊢
  have hlabels := hcomplete.rooted.label_induction (fun b l k => l = k ∧ b ∈ all)
    (by simpa using hvall) fun a l k _ hal p hp => by
      obtain ⟨-, hhop, hlabel⟩ := mem_distancesOver.mp hp
      exact ⟨by rw [hlabel, hal.1], haround a p.1 hhop⟩
  have hall : ∀ a ∈ labels, a ∈ all := by
    intro a ha
    obtain ⟨l, hl⟩ := mem_iff_exists.mp ha
    exact (hlabels a l hl).2
  -- there is a vertex for every round and the source is none of them, so one more step always fits
  have hfits : ∀ (a l : ℕ), labels[a]? = some l → l + 1 < 2 ^ 32 := by
    intro a l ha
    have hlt := hcomplete.rooted.depth_lt_card hall (mem_of_getElem? ha)
    rw [(hlabels a l ha).1]
    omega
  have hwalk : ∀ (a l b : ℕ), labels[a]? = some l → HopAround t s a b →
      ∃ l', (b, l') ∈ t.distancesOver s a l :=
    fun a l b ha hab => ⟨l + 1, mem_distancesOver.mpr ⟨hfits a l ha, hab, rfl⟩⟩
  have hsteps : ∀ b ∈ labels, Steps (HopAround t s) (depth b) v b := by
    intro b hb
    obtain ⟨p, hp, hsteps⟩ := hcomplete.rooted.steps
      (fun a l _ p hp => (mem_distancesOver.mp hp).2.1) hb
    rw [mem_singleton.mp hp] at hsteps
    exact hsteps
  have hearly : ∀ {k b}, Steps (HopAround t s) k v b → b ∈ labels ∧ depth b ≤ k :=
    fun hk => hcomplete.depth_le hwalk (p := (v, 0)) (by simp) hk
  constructor
  · intro hlabel
    rw [(hlabels d m hlabel).1]
    exact ⟨hsteps d (mem_of_getElem? hlabel), fun k hk => (hearly hk).2⟩
  · rintro ⟨hwalked, hmin⟩
    obtain ⟨hd, hle⟩ := hearly hwalked
    obtain ⟨l, hl⟩ := mem_iff_exists.mp hd
    rw [hl, (hlabels d l hl).1, le_antisymm hle (hmin _ (hsteps d hd))]

end Distances

/-! ## Labels without the terminal -/

section Labels

variable {nodes : List NodeRecord} {config : BoundedTopologyConfig} {t : BoundedTopology}
  {s p d v w l : ℕ}

/-- A link that neither leaves the terminal `p` nor leads to `s`. -/
def HopPast (t : BoundedTopology) (s p a b : ℕ) : Prop := t.Hop a b ∧ a ≠ p ∧ b ≠ s

lemma mem_labelsOver {a l : ℕ} {q : ℕ × ℕ} :
    q ∈ t.labelsOver s p a l ↔ HopPast t s p a q.1 ∧ q.2 = l := by
  obtain ⟨b, k⟩ := q
  rw [labelsOver]
  by_cases hap : a = p
  · rw [if_pos hap]
    exact ⟨fun hmem => absurd hmem not_mem_nil, fun hmem => absurd hap hmem.1.2.1⟩
  · rw [if_neg hap]
    simp only [mem_map, mem_filter, decide_eq_true_eq, Prod.mk.injEq]
    constructor
    · rintro ⟨_, ⟨hb, hbs⟩, rfl, rfl⟩
      exact ⟨⟨hb, hap, hbs⟩, rfl⟩
    · rintro ⟨⟨hb, -, hbs⟩, rfl⟩
      exact ⟨b, ⟨hb, hbs⟩, rfl, rfl⟩

lemma exists_past (hwalk : ReflTransGen (fun a b => t.Hop a b ∧ a ≠ p ∧ b ≠ p) s d)
    (hne : d ≠ s) : ∃ v, t.Hop s v ∧ v ≠ p ∧ ReflTransGen (HopPast t s p) v d := by
  induction hwalk with
  | refl => exact absurd rfl hne
  | @tail b c _ hbc ih =>
    obtain ⟨hhop, hb, hc⟩ := hbc
    by_cases hbs : b = s
    · subst hbs
      exact ⟨c, hhop, hc, .refl⟩
    · obtain ⟨v, hv, hvp, hreach⟩ := ih hbs
      exact ⟨v, hv, hvp, hreach.tail ⟨hhop, hb, hne⟩⟩

lemma reaches_past (hwalk : ReflTransGen (fun a b => t.Hop a b ∧ a ≠ s ∧ b ≠ s) v w)
    (hvp : v ≠ p) : ReflTransGen (HopPast t s p) v p ∨ (w ≠ p ∧ ReflTransGen (HopPast t s p) v w) := by
  induction hwalk with
  | refl => exact .inr ⟨hvp, .refl⟩
  | @tail b c _ hbc ih =>
    obtain ⟨hhop, -, hcs⟩ := hbc
    rcases ih with hdone | ⟨hbp, hreach⟩
    · exact .inl hdone
    · have hnext := hreach.tail (⟨hhop, hbp, hcs⟩ : HopPast t s p b c)
      by_cases hcp : c = p
      · exact .inl (hcp ▸ hnext)
      · exact .inr ⟨hcp, hnext⟩

lemma Synthesized.exists_alternate (h : Synthesized nodes config t) (hthree : 3 ≤ nodes.length)
    (hsp : t.Hop s p) (hd : d < t.routingNodeIds.length) (hds : d ≠ s) :
    ∃ v, t.Hop s v ∧ v ≠ p ∧ ReflTransGen (HopPast t s p) v d := by
  have hrobust := h.hop_robust hthree
  obtain ⟨hs, hp⟩ := h.hop_inside hsp
  have hne := h.hop_ne hsp
  by_cases hdp : d = p
  · -- to the terminal itself: first to a third node, whose walk leaves `s` over another neighbour
    subst hdp
    obtain ⟨z, hz, hzs, hzd⟩ := hrobust.third s d
    obtain ⟨v, hv, hvd, -⟩ := exists_past (hrobust.avoiding d hd s hs z hz hne hzd) hzs
    have hvs := (h.hop_ne hv).symm
    rcases reaches_past (p := d) (hrobust.avoiding s hs v (h.hop_inside hv).2 d hd hvs hds) hvd with
      hreach | ⟨hself, -⟩
    · exact ⟨v, hv, hvd, hreach⟩
    · exact absurd rfl hself
  · exact exists_past (hrobust.avoiding p hp s hs d hd hne hdp) hds

/-- **The label of a destination**: there is one, and it is a neighbour other than the terminal with a
way to the destination. -/
theorem Synthesized.getElem?_labels (h : Synthesized nodes config t)
    (hcount : t.routingNodeIds.length ≤ 2 ^ 32) (hs : s < t.routingNodeIds.length) :
    ((∃ v, t.Hop s v ∧ v ≠ p ∧ ReflTransGen (HopPast t s p) v d) →
      ∃ l, (t.alternateFirstHopLabels s p)[d]? = some l) ∧
    ∀ l, (t.alternateFirstHopLabels s p)[d]? = some l →
      t.Hop s l ∧ l ≠ p ∧ ReflTransGen (HopPast t s p) l d := by
  have hseeds : ∀ v, v ∈ (t.indexedAdjacency.getD s []).filter (· ≠ p) ↔ t.Hop s v ∧ v ≠ p := by
    intro v
    rw [mem_filter, decide_eq_true_eq]
    rfl
  -- every position fits, so the function does not end early
  have hfitting : ((t.indexedAdjacency.getD s []).filter (· ≠ p)).takeWhile (· < 2 ^ 32) =
      (t.indexedAdjacency.getD s []).filter (· ≠ p) := by
    refine takeWhile_eq_self_iff.mpr fun v hv => ?_
    have hlt := (h.hop_inside ((hseeds v).mp hv).1).2
    simp only [decide_eq_true_eq]
    omega
  have hnodup : ((((t.indexedAdjacency.getD s []).filter (· ≠ p)).map
      fun neighbor => (neighbor, neighbor)).map Prod.fst).Nodup := by
    rw [List.map_map]
    have hrow : (t.indexedAdjacency.getD s []).Nodup := by
      rw [h.row_eq hs]
      refine (t.adjacency.neighbors_nodup _).map_on fun a ha b hb heq => ?_
      exact (idxOf_inj (h.mem_of_neighbor ha)).mp heq
    exact (map_id _).symm ▸ hrow.filter _
  obtain ⟨depth, hcomplete⟩ := search_all (t.labelsOver s p)
    (((t.indexedAdjacency.getD s []).filter (· ≠ p)).map fun neighbor => (neighbor, neighbor))
    (Finset.range t.routingNodeIds.length)
    (fun a _ l q hq => Finset.mem_range.mpr (h.hop_inside (mem_labelsOver.mp hq).1.1).2) hnodup
    (fun q hq => by
      obtain ⟨v, hv, rfl⟩ := mem_map.mp hq
      exact Finset.mem_range.mpr (h.hop_inside ((hseeds v).mp hv).1).2)
    (show (Finset.range t.routingNodeIds.length).card ≤ t.turns by
      rw [Finset.card_range]
      exact h.length_le_turns)
  rw [alternateFirstHopLabels, hfitting]
  simp only [lt_self_iff_false, if_false]
  generalize (Search.loop (fun _ => false) (t.labelsOver s p) t.turns (Search.start
    (((t.indexedAdjacency.getD s []).filter (· ≠ p)).map fun neighbor => (neighbor, neighbor)))).labels =
      labels at hcomplete ⊢
  constructor
  · rintro ⟨v, hv, hvp, hreach⟩
    obtain ⟨n, hsteps⟩ := exists_steps_iff.mpr hreach
    refine mem_iff_exists.mp (hcomplete.depth_le (r := HopPast t s p) ?_ (p := (v, v)) ?_
      hsteps).1
    · exact fun a l b _ hab => ⟨l, mem_labelsOver.mpr ⟨hab, rfl⟩⟩
    · exact mem_map_of_mem ((hseeds v).mpr ⟨hv, hvp⟩)
  · refine fun l hl => hcomplete.rooted.label_induction (fun b l _ => t.Hop s l ∧ l ≠ p ∧
      ReflTransGen (HopPast t s p) l b) ?_ ?_ d l hl
    · intro q hq
      obtain ⟨v, hv, rfl⟩ := mem_map.mp hq
      exact ⟨((hseeds v).mp hv).1, ((hseeds v).mp hv).2, .refl⟩
    · intro a l n _ hal q hq
      obtain ⟨hhop, hlabel⟩ := mem_labelsOver.mp hq
      rw [hlabel]
      exact ⟨hal.1, hal.2.1, hal.2.2.tail hhop⟩

end Labels

/-! ## The choice of the first hop -/

lemma getElem?_of_mapM {α β : Type} {f : α → Option β} {l : List α} {bs : List β}
    (h : l.mapM f = some bs) {i : ℕ} {a : α} (ha : l[i]? = some a) :
    ∃ b, f a = some b ∧ bs[i]? = some b := by
  induction l generalizing bs i with
  | nil => cases ha
  | cons x l ih =>
    rw [mapM_cons] at h
    obtain ⟨b, hb, hrest⟩ := Option.bind_eq_some_iff.mp h
    obtain ⟨rest, hmap, heq⟩ := Option.bind_eq_some_iff.mp hrest
    obtain rfl := Option.some.inj heq
    cases i with
    | zero =>
      obtain rfl := Option.some.inj ha
      exact ⟨b, hb, rfl⟩
    | succ i => exact ih hmap ha

section Choice

variable {nodes : List NodeRecord} {config : BoundedTopologyConfig} {t : BoundedTopology}
  {s d v c : ℕ}

def candidateDistances (t : BoundedTopology) (s : ℕ) : List (ℕ × TreeMap ℕ ℕ) :=
  (t.indexedAdjacency.getD s []).filterMap fun neighbor =>
    (compactIndex neighbor).map fun fitting => (fitting, t.indexedDistancesFromAvoiding neighbor s)

def alternateLabels (t : BoundedTopology) (s : ℕ) : TreeMap ℕ (TreeMap ℕ ℕ) :=
  .ofList ((t.indexedAdjacency.getD s []).filterMap fun neighbor =>
    (compactIndex neighbor).map fun fitting => (fitting, t.alternateFirstHopLabels s neighbor))

def candidates (t : BoundedTopology) (s d : ℕ) : List (ℕ × ℕ) :=
  sortedCandidates (candidateDistances t s) d

lemma compactIndex_eq_some {n k : ℕ} : compactIndex n = some k ↔ n < 2 ^ 32 ∧ k = n := by
  rw [compactIndex, Option.ite_none_right_eq_some, Option.some.injEq, eq_comm (a := n)]

lemma mem_compact {β : Type} {f : ℕ → β} {l : List ℕ} {k : ℕ} {y : β} :
    (k, y) ∈ (l.filterMap fun n => (compactIndex n).map fun fitting => (fitting, f n)) ↔
      k ∈ l ∧ k < 2 ^ 32 ∧ y = f k := by
  simp only [mem_filterMap, Option.map_eq_some_iff, compactIndex_eq_some, Prod.mk.injEq]
  constructor
  · rintro ⟨n, hn, _, ⟨hlt, rfl⟩, rfl, rfl⟩
    exact ⟨hn, hlt, rfl⟩
  · rintro ⟨hk, hlt, rfl⟩
    exact ⟨k, hk, k, ⟨hlt, rfl⟩, rfl, rfl⟩

lemma mem_candidates : (c, v) ∈ candidates t s d ↔
    t.Hop s v ∧ v < 2 ^ 32 ∧ ∃ m, (t.indexedDistancesFromAvoiding v s)[d]? = some m ∧ c = m + 1 := by
  rw [candidates, sortedCandidates, mem_insertionSort, mem_filterMap]
  constructor
  · rintro ⟨⟨u, distances⟩, hmem, hcandidate⟩
    obtain ⟨hneighbor, hlt, rfl⟩ := mem_compact.mp hmem
    obtain ⟨m, hm, heq⟩ := Option.map_eq_some_iff.mp hcandidate
    obtain ⟨rfl, rfl⟩ := Prod.mk.inj heq
    exact ⟨hneighbor, hlt, m, hm, rfl⟩
  · rintro ⟨hhop, hlt, m, hm, rfl⟩
    refine ⟨(v, t.indexedDistancesFromAvoiding v s), mem_compact.mpr ⟨hhop, hlt, rfl⟩, ?_⟩
    dsimp only
    rw [hm]
    rfl

lemma getElem?_alternateLabels (hhop : t.Hop s v) (hfits : v < 2 ^ 32) :
    (alternateLabels t s)[v]? = some (t.alternateFirstHopLabels s v) := by
  obtain ⟨labels, hlabels, hmem⟩ := exists_getElem?_ofList
    (mem_compact (f := t.alternateFirstHopLabels s) |>.mpr ⟨hhop, hfits, rfl⟩)
  obtain ⟨-, -, rfl⟩ := mem_compact.mp hmem
  exact hlabels

lemma candidates_head {rest : List (ℕ × ℕ)} (h : candidates t s d = (c, v) :: rest) :
    ∀ e ∈ candidates t s d, c ≤ e.1 := by
  have htotal : Std.Total nearerFirst := ⟨by
    rintro ⟨a, b⟩ ⟨a', b'⟩
    simp only [nearerFirst]
    omega⟩
  have htrans : IsTrans (ℕ × ℕ) nearerFirst := ⟨by
    rintro ⟨a, b⟩ ⟨a', b'⟩ ⟨a'', b''⟩
    simp only [nearerFirst]
    omega⟩
  have hsorted : (candidates t s d).Pairwise nearerFirst := pairwise_insertionSort nearerFirst _
  rw [h] at hsorted ⊢
  intro e he
  rcases mem_cons.mp he with rfl | he
  · exact le_refl _
  · have hnear := (pairwise_cons.mp hsorted).1 e he
    rcases hnear with hlt | ⟨heq, -⟩
    · exact hlt.le
    · exact heq.le

section

variable (h : Synthesized nodes config t) (hcount : t.routingNodeIds.length ≤ 2 ^ 32)
    (hs : s < t.routingNodeIds.length) (hd : d < t.routingNodeIds.length) (hds : d ≠ s)
include h hcount hs hd hds

/-- **The nearest candidate lies on a shortest path.** -/
theorem Synthesized.nearest_candidate :
    ∃ m p rest, candidates t s d = (m + 1, p) :: rest ∧ t.Hop s p ∧ Shortest t.Hop (m + 1) s d ∧
      Shortest t.Hop m p d := by
  have hdistances : ∀ {v m}, t.Hop s v →
      ((t.indexedDistancesFromAvoiding v s)[d]? = some m ↔ Shortest (HopAround t s) m v d) :=
    fun hv => h.getElem?_distances hcount hs (h.hop_inside hv).2 (h.hop_ne hv).symm
  -- a candidate for every walk, no farther than the walk is long
  have hcandidate : ∀ n, Steps t.Hop n s d → ∃ c v, (c, v) ∈ candidates t s d ∧ c ≤ n := by
    intro n hsteps
    obtain ⟨v, k, hv, haround, hk⟩ := exists_around hsteps hds
    classical
    obtain ⟨m, hm, hle⟩ : ∃ m, Shortest (HopAround t s) m v d ∧ m ≤ k := by
      have hex : ∃ m, Steps (HopAround t s) m v d := ⟨k, haround⟩
      exact ⟨Nat.find hex, ⟨Nat.find_spec hex, fun i hi => Nat.find_min' hex hi⟩,
        Nat.find_min' hex haround⟩
    refine ⟨m + 1, v, mem_candidates.mpr ⟨hv, ?_, m, (hdistances hv).mpr hm, rfl⟩, by omega⟩
    have := (h.hop_inside hv).2
    omega
  obtain ⟨n, hsteps⟩ := exists_steps_iff.mpr (h.hop_connected hs hd)
  obtain ⟨c₀, v₀, hmem₀, -⟩ := hcandidate n hsteps
  obtain ⟨⟨c, p⟩, rest, hlist⟩ : ∃ first rest, candidates t s d = first :: rest :=
    exists_cons_of_ne_nil (ne_nil_of_mem hmem₀)
  obtain ⟨hp, -, m, hm, rfl⟩ := mem_candidates.mp (hlist ▸ mem_cons_self : (c, p) ∈ _)
  have hshortest := (hdistances hp).mp hm
  have hmin : ∀ k, Steps t.Hop k s d → m + 1 ≤ k := by
    intro k hk
    obtain ⟨c', v', hmem', hle⟩ := hcandidate k hk
    exact (candidates_head hlist _ hmem').trans hle
  refine ⟨m, p, rest, hlist, hp, ⟨.head hp (steps_of_around hshortest.1), hmin⟩,
    steps_of_around hshortest.1, fun k hk => ?_⟩
  have := hmin _ (.head hp hk)
  omega

/-- **The entry for a destination**: its first hop is nearer by one, and with three or more nodes there
is a second one with a way of its own. -/
theorem Synthesized.nextHopsTo_spec :
    ∃ m p secondary,
      nextHopsTo (candidateDistances t s) (alternateLabels t s) d = some ⟨p, secondary⟩ ∧
      t.Hop s p ∧ Shortest t.Hop (m + 1) s d ∧ Shortest t.Hop m p d ∧
      (3 ≤ nodes.length → ∃ l, secondary = some l ∧ t.Hop s l ∧ l ≠ p ∧
        ReflTransGen (HopPast t s p) l d) := by
  obtain ⟨m, p, rest, hlist, hp, hsource, hprimary⟩ := h.nearest_candidate hcount hs hd hds
  have hfits : ∀ {v}, t.Hop s v → v < 2 ^ 32 := fun hv => by
    have := (h.hop_inside hv).2
    omega
  have hreliable : ∀ {v q l}, t.Hop s v → (reliableHops (alternateLabels t s) d v = some (q, l) ↔
      q = v ∧ l ≠ v ∧ (t.alternateFirstHopLabels s v)[d]? = some l) := by
    intro v q l hv
    rw [reliableHops, getElem?_alternateLabels hv (hfits hv), Option.bind_some, Option.map_eq_some_iff]
    constructor
    · rintro ⟨x, hx, heq⟩
      obtain ⟨rfl, rfl⟩ := Prod.mk.inj heq
      obtain ⟨hlabel, hne⟩ := Option.filter_eq_some_iff.mp hx
      exact ⟨rfl, by simpa using hne, hlabel⟩
    · rintro ⟨rfl, hne, hlabel⟩
      exact ⟨l, Option.filter_eq_some_iff.mpr ⟨hlabel, by simpa using hne⟩, rfl⟩
  rw [nextHopsTo]
  change ∃ m' p' secondary, (match candidates t s d with
    | [] => none
    | (distance, fallbackPrimary) :: rest => _) = some _ ∧ _
  rw [hlist]
  by_cases hthree : 3 ≤ nodes.length
  · -- the nearest candidate has an alternate
    obtain ⟨hexists, hlabels⟩ := h.getElem?_labels (p := p) (d := d) hcount hs
    obtain ⟨l, hl⟩ := hexists (h.exists_alternate hthree hp hd hds)
    obtain ⟨hhop, hne, hreach⟩ := hlabels l hl
    have hfirst : reliableHops (alternateLabels t s) d p = some (p, l) :=
      (hreliable hp).mpr ⟨rfl, hne, hl⟩
    refine ⟨m, p, some l, ?_, hp, hsource, hprimary, fun _ => ⟨l, rfl, hhop, hne, hreach⟩⟩
    simp only [findSome?_cons, hfirst]
  · -- of two nodes there is only one to choose
    have hsame : ∀ v, t.Hop s v → v = p := by
      intro v hv
      have hlength := h.length_routingNodeIds
      have := (h.hop_inside hv).2
      have := (h.hop_inside hp).2
      have := h.hop_ne hv
      have := h.hop_ne hp
      omega
    cases hfound : ((m + 1, p) :: rest).findSome? fun (_, primary) =>
        reliableHops (alternateLabels t s) d primary with
    | none =>
      refine ⟨m, p, none, ?_, hp, hsource, hprimary, fun hc => absurd hc hthree⟩
      simp only [hfound]
    | some hops =>
      obtain ⟨q, l⟩ := hops
      obtain ⟨⟨c, v⟩, hmem, heq⟩ := exists_of_findSome?_eq_some hfound
      have hv := (mem_candidates.mp (hlist ▸ hmem : (c, v) ∈ candidates t s d)).1
      obtain ⟨rfl, -, -⟩ := (hreliable hv).mp heq
      obtain rfl := hsame q hv
      refine ⟨m, q, some l, ?_, hp, hsource, hprimary, fun hc => absurd hc hthree⟩
      simp only [hfound]

end

lemma Synthesized.computeNextHopsFrom_rows (h : Synthesized nodes config t)
    (hs : s < t.routingNodeIds.length) :
    t.computeNextHopsFrom s = (List.range t.routingNodeIds.length).mapM fun d =>
      if d = s then some none
      else (nextHopsTo (candidateDistances t s) (alternateLabels t s) d).map some := by
  have hlt : s < t.indexedAdjacency.length := by
    rw [h.indexedAdjacency, indexAdjacency, length_map]
    exact hs
  have hrow : t.indexedAdjacency[s]? = some (t.indexedAdjacency.getD s []) := by
    rw [getElem?_eq_getElem hlt, getD_eq_getElem _ _ hlt]
  rw [computeNextHopsFrom, hrow]
  rfl

lemma Synthesized.computeNextHopsFrom_row (h : Synthesized nodes config t)
    {table : List (Option CompactNextHops)} (hs : s < t.routingNodeIds.length)
    (htable : t.computeNextHopsFrom s = some table) (hd : d < t.routingNodeIds.length) (hds : d ≠ s) :
    table[d]? = some (nextHopsTo (candidateDistances t s) (alternateLabels t s) d) := by
  rw [h.computeNextHopsFrom_rows hs] at htable
  obtain ⟨entry, hentry, hat⟩ := getElem?_of_mapM htable (getElem?_range hd)
  rw [if_neg hds] at hentry
  obtain ⟨hops, hhops, rfl⟩ := Option.map_eq_some_iff.mp hentry
  rw [hat, hhops]

lemma Synthesized.exists_computeNextHopsFrom (h : Synthesized nodes config t)
    (hcount : t.routingNodeIds.length ≤ 2 ^ 32) (hs : s < t.routingNodeIds.length) :
    ∃ table, t.computeNextHopsFrom s = some table := by
  refine ⟨(List.range t.routingNodeIds.length).map fun d =>
    if d = s then none else nextHopsTo (candidateDistances t s) (alternateLabels t s) d, ?_⟩
  rw [h.computeNextHopsFrom_rows hs]
  refine mapM_eq_some fun d hd => ?_
  by_cases hds : d = s
  · rw [if_pos hds, if_pos hds]
  · obtain ⟨m, p, secondary, hentry, -⟩ := h.nextHopsTo_spec hcount hs (mem_range.mp hd) hds
    rw [if_neg hds, if_neg hds, hentry]
    rfl

lemma alternateFirstHopLabels_large (hhop : t.Hop s d) (hd : 2 ^ 32 ≤ d) (hv : v < 2 ^ 32) :
    (t.alternateFirstHopLabels s v)[d]? = none := by
  have hseed : d ∈ (t.indexedAdjacency.getD s []).filter (· ≠ v) :=
    mem_filter.mpr ⟨hhop, by simp; omega⟩
  have hfitting : ∀ seeds : List ℕ, ∀ n ∈ seeds.takeWhile (· < 2 ^ 32), n < 2 ^ 32 :=
    fun seeds n hn => by simpa using mem_takeWhile_imp hn
  rw [alternateFirstHopLabels]
  generalize (t.indexedAdjacency.getD s []).filter (· ≠ v) = seeds at hseed ⊢
  have hfewer : (seeds.takeWhile (· < 2 ^ 32)).length < seeds.length := by
    have hinitial := takeWhile_prefix (l := seeds) (· < 2 ^ 32)
    refine lt_of_le_of_ne hinitial.length_le fun hlength => ?_
    have := hfitting seeds d (by rw [hinitial.eq_of_length hlength]; exact hseed)
    omega
  rw [if_pos hfewer]
  refine TreeMap.getElem?_ofList_of_contains_eq_false ?_
  rw [Bool.eq_false_iff]
  intro hmem
  simp only [List.map_map, Function.comp_def, map_id', contains_iff_mem] at hmem
  have := hfitting seeds d hmem
  omega

/-- **The entry for a neighbour whose position does not fit** names neither the neighbour itself nor an
alternate. -/
lemma nextHopsTo_large (hhop : t.Hop s d) (hd : 2 ^ 32 ≤ d) {p : ℕ} {secondary : Option ℕ}
    (h : nextHopsTo (candidateDistances t s) (alternateLabels t s) d = some ⟨p, secondary⟩) :
    p < 2 ^ 32 ∧ secondary = none := by
  rw [nextHopsTo] at h
  change (match candidates t s d with
    | [] => none
    | (distance, fallbackPrimary) :: rest => _) = some _ at h
  rcases hlist : candidates t s d with - | ⟨⟨distance, fallback⟩, rest⟩
  · rw [hlist] at h
    cases h
  · have hnone : ((distance, fallback) :: rest).findSome? (fun (_, primary) =>
        reliableHops (alternateLabels t s) d primary) = none := by
      rw [findSome?_eq_none_iff]
      rintro ⟨c, v⟩ hmem
      rw [← hlist] at hmem
      obtain ⟨hv, hfits, -⟩ := mem_candidates.mp hmem
      simp only [reliableHops, getElem?_alternateLabels hv hfits, Option.bind_some,
        alternateFirstHopLabels_large hhop hd hfits, Option.filter_none, Option.map_none]
    rw [hlist] at h
    simp only [hnone, Option.some.injEq, CompactNextHops.mk.injEq] at h
    obtain ⟨rfl, rfl⟩ := h
    have hmem : (distance, fallback) ∈ candidates t s d := hlist ▸ mem_cons_self
    exact ⟨(mem_candidates.mp hmem).2.1, rfl⟩

end Choice

/-! ## Tables by name -/

section Tables

variable {nodes : List NodeRecord} {config : BoundedTopologyConfig} {t : BoundedTopology}
  {source destination : NodeId} {queries : List NodeId} {m : ℕ}

lemma BoundedTopology.cachedNextHops_eq (queries : List NodeId) (s : ℕ) :
    (t.cachedNextHopsFrom (t.nextHopCache queries) s).1 = t.computeNextHopsFrom s := by
  have hcached : ∀ (i : ℕ) table, (t.nextHopCache queries)[i]? = some table →
      t.computeNextHopsFrom i = some table := by
    induction queries using List.reverseRecOn with
    | nil =>
      intro i table hi
      rw [nextHopCache, foldl_nil, TreeMap.getElem?_emptyc] at hi
      cases hi
    | append_singleton queries query ih =>
      intro i table hi
      rw [nextHopCache, foldl_append, foldl_cons, foldl_nil, ← nextHopCache,
        nextHopTable] at hi
      split at hi
      · exact ih i table hi
      · rename_i sourceIndex _
        rw [cachedNextHopsFrom] at hi
        split at hi
        · exact ih i table hi
        · split at hi
          · exact ih i table hi
          · rename_i computed hcomputed
            by_cases hsame : sourceIndex = i
            · subst hsame
              rw [TreeMap.getElem?_insert_self] at hi
              rw [hcomputed, hi]
            · rw [getElem?_insert_ne hsame] at hi
              exact ih i table hi
  rw [cachedNextHopsFrom]
  split
  · rename_i cached hfound
    exact (hcached s cached hfound).symm
  · split
    · rename_i hnone
      exact hnone.symm
    · rename_i computed hcomputed
      exact hcomputed.symm

lemma Synthesized.steps_of_hops (h : Synthesized nodes config t) {a : NodeId} {j : ℕ}
    (ha : a ∈ t.routingNodeIds) (hsteps : Steps t.Hop m (t.routingNodeIds.idxOf a) j) :
    ∃ b ∈ t.routingNodeIds, t.routingNodeIds.idxOf b = j ∧
      Steps (fun a b => b ∈ t.adjacency.neighbors a) m a b := by
  have hnodup := h.nodup
  generalize hstart : t.routingNodeIds.idxOf a = i at hsteps
  induction hsteps with
  | refl i => exact ⟨a, ha, hstart, .refl a⟩
  | @tail m i j k _ hjk ih =>
    obtain ⟨b, hb, hbj, hwalk⟩ := ih hstart
    obtain ⟨x, y, hx, hy, hxy⟩ := h.hop_iff.mp hjk
    rw [h.keys_eq] at hx hy
    have hbx := (idxOf_eq_iff hnodup hb).mp hbj
    obtain rfl := Option.some.inj (hbx.symm.trans hx)
    exact ⟨y, mem_of_getElem? hy, (idxOf_eq_iff hnodup (mem_of_getElem? hy)).mpr hy,
      hwalk.tail hxy⟩

lemma Synthesized.distancesFrom_eq (h : Synthesized nodes config t) {a b : NodeId}
    (ha : a ∈ t.routingNodeIds) (hb : b ∈ t.routingNodeIds)
    (hshortest : Shortest t.Hop m (t.routingNodeIds.idxOf a) (t.routingNodeIds.idxOf b)) :
    (distancesFrom a t.adjacency)[b]? = some m := by
  have hforward : ∀ n x c, Steps (fun a b => b ∈ t.adjacency.neighbors a) n x c →
      Steps t.Hop n (t.routingNodeIds.idxOf x) (t.routingNodeIds.idxOf c) := by
    intro n x c hn
    induction hn with
    | refl x => exact .refl _
    | tail _ hcd ih => exact ih.tail (h.hop_of_mem hcd)
  rw [getElem?_distancesFrom]
  refine ⟨?_, fun n hn => hshortest.2 n (hforward n a b hn)⟩
  obtain ⟨c, hc, hidx, hsteps⟩ := h.steps_of_hops ha hshortest.1
  obtain rfl := (idxOf_inj hc).mp hidx
  exact hsteps

def BoundedTopology.nextHops (t : BoundedTopology) (queries : List NodeId)
    (source destination : NodeId) : Option (NodeId × Option NodeId) :=
  (t.nextHopTable (t.nextHopCache queries) source).1.bind fun table => t.hopsTo table destination

/-- One step of the way to a destination: the primary hop in the node's own table, a neighbour that is
nearer by one. -/
def BoundedTopology.Descends (t : BoundedTopology) (queries : List NodeId) (destination a b : NodeId) :
    Prop :=
  (∃ secondary, t.nextHops queries a destination = some (b, secondary)) ∧
    b ∈ t.adjacency.neighbors a ∧
    ∃ m, (distancesFrom a t.adjacency)[destination]? = some (m + 1) ∧
      (distancesFrom b t.adjacency)[destination]? = some m

/-- The entry has a second hop besides the first, with a way to the destination that avoids the source and,
unless it is the destination, the first hop. -/
def BoundedTopology.HasAlternate (t : BoundedTopology) (queries : List NodeId)
    (source destination : NodeId) : Prop :=
  ∃ table primary secondary,
    (t.nextHopsFrom (t.nextHopCache queries) source).1 = some table ∧
    table[destination]? = some (primary, some secondary) ∧
    secondary ∈ t.adjacency.neighbors source ∧ secondary ≠ primary ∧
    ∃ walk, Search.Trail (fun a b => b ∈ t.adjacency.neighbors a) secondary destination walk ∧
      ∀ n ∈ walk, n ≠ source ∧ (primary ≠ destination → n ≠ primary)

section

variable (h : Synthesized nodes config t)
include h

lemma Synthesized.nextHops_eq (hsource : source ∈ t.routingNodeIds)
    (hdest : destination ∈ t.routingNodeIds) (hne : source ≠ destination)
    {hops : NodeId × Option NodeId} :
    t.nextHops queries source destination = some hops ↔
      (∃ table, t.computeNextHopsFrom (t.routingNodeIds.idxOf source) = some table) ∧
      ∃ p secondary, nextHopsTo (candidateDistances t (t.routingNodeIds.idxOf source))
        (alternateLabels t (t.routingNodeIds.idxOf source)) (t.routingNodeIds.idxOf destination) =
          some ⟨p, secondary⟩ ∧
        t.routingNodeIds[p]? = some hops.1 ∧
        hops.2 = secondary.bind fun index => t.routingNodeIds[index]? := by
  have hds : t.routingNodeIds.idxOf destination ≠ t.routingNodeIds.idxOf source :=
    fun heq => hne ((idxOf_inj hdest).mp heq).symm
  rw [nextHops, nextHopTable, h.routingNodeIndexes,
    routingIndexes_of_mem h.nodup hsource]
  dsimp only
  rw [cachedNextHops_eq]
  cases htable : t.computeNextHopsFrom (t.routingNodeIds.idxOf source) with
  | none => simp
  | some table =>
    rw [Option.bind_some, hopsTo, h.routingNodeIndexes,
      routingIndexes_of_mem h.nodup hdest]
    simp only [Option.bind_eq_bind, Option.bind_some, h.computeNextHopsFrom_row
      (idxOf_lt_length_iff.mpr hsource) htable (idxOf_lt_length_iff.mpr hdest) hds,
      Option.join_some, Option.bind_eq_some_iff, Option.some.injEq, exists_eq', true_and]
    constructor
    · rintro ⟨⟨p, secondary⟩, hentry, primary, hat, rfl⟩
      exact ⟨p, secondary, hentry, hat, rfl⟩
    · rintro ⟨p, secondary, hentry, hat, hsecond⟩
      exact ⟨⟨p, secondary⟩, hentry, hops.1, hat, Prod.ext rfl hsecond.symm⟩

/-- **The entry of a table, by name.** -/
theorem Synthesized.nextHops_spec
    (hcount : t.routingNodeIds.length ≤ 2 ^ 32) (hsource : source ∈ t.routingNodeIds)
    (hdest : destination ∈ t.routingNodeIds) (hne : source ≠ destination) (queries : List NodeId) :
    ∃ m primary secondary, t.nextHops queries source destination = some (primary, secondary) ∧
      primary ∈ t.adjacency.neighbors source ∧
      (distancesFrom source t.adjacency)[destination]? = some (m + 1) ∧
      (distancesFrom primary t.adjacency)[destination]? = some m ∧
      (3 ≤ nodes.length → ∃ alternate, secondary = some alternate ∧
        alternate ∈ t.adjacency.neighbors source ∧ alternate ≠ primary ∧
        ReflTransGen (HopPast t (t.routingNodeIds.idxOf source)
          (t.routingNodeIds.idxOf primary)) (t.routingNodeIds.idxOf alternate)
          (t.routingNodeIds.idxOf destination)) := by
  have hs := idxOf_lt_length_iff.mpr hsource
  have hd := idxOf_lt_length_iff.mpr hdest
  have hds : t.routingNodeIds.idxOf destination ≠ t.routingNodeIds.idxOf source :=
    fun heq => hne ((idxOf_inj hdest).mp heq).symm
  obtain ⟨m, p, secondary, hentry, hp, hshortest, hnearer, halternate⟩ :=
    h.nextHopsTo_spec hcount hs hd hds
  obtain ⟨table, htable⟩ := h.exists_computeNextHopsFrom hcount hs
  -- a position that is a link away is the position of a neighbour
  have hname : ∀ {k}, t.Hop (t.routingNodeIds.idxOf source) k → ∃ b ∈ t.adjacency.neighbors source,
      b ∈ t.routingNodeIds ∧ t.routingNodeIds.idxOf b = k ∧ t.routingNodeIds[k]? = some b := by
    intro k hk
    rw [Hop, h.indexedAdjacency_getD hsource] at hk
    obtain ⟨b, hb, rfl⟩ := mem_map.mp hk
    have hmember := h.mem_of_neighbor hb
    exact ⟨b, hb, hmember, rfl, getElem?_idxOf hmember⟩
  obtain ⟨primary, hprimary, hmember, rfl, hat⟩ := hname hp
  have hhops : t.nextHops queries source destination =
      some (primary, secondary.bind fun index => t.routingNodeIds[index]?) :=
    (h.nextHops_eq hsource hdest hne).mpr ⟨⟨table, htable⟩, _, _, hentry, hat, rfl⟩
  refine ⟨m, primary, _, hhops, hprimary, h.distancesFrom_eq hsource hdest hshortest,
    h.distancesFrom_eq hmember hdest hnearer, fun hthree => ?_⟩
  obtain ⟨l, rfl, hl, hlp, hreach⟩ := halternate hthree
  obtain ⟨alternate, hneighbor, -, rfl, hatl⟩ := hname hl
  refine ⟨alternate, by rw [Option.bind_some, hatl], hneighbor, ?_, hreach⟩
  rintro rfl
  exact hlp rfl

lemma Synthesized.exists_route
    (hcount : t.routingNodeIds.length ≤ 2 ^ 32) (hdest : destination ∈ t.routingNodeIds)
    (queries : List NodeId) (hsource : source ∈ t.routingNodeIds)
    (hdistance : (distancesFrom source t.adjacency)[destination]? = some m) :
    ∃ route, route.length = m + 1 ∧ route.Nodup ∧
      (∀ n ∈ route, ∃ k ≤ m, (distancesFrom n t.adjacency)[destination]? = some k) ∧
      Trail (t.Descends queries destination) source destination route := by
  induction m generalizing source with
  | zero =>
    obtain ⟨hsteps, -⟩ := (getElem?_distancesFrom _ _ _ _).mp hdistance
    cases hsteps
    exact ⟨[destination], rfl, by simp, by simpa using hdistance, .single destination⟩
  | succ m ih =>
    have hne : source ≠ destination := by
      rintro rfl
      have := ((getElem?_distancesFrom _ _ _ _).mp hdistance).2 0 (.refl source)
      omega
    obtain ⟨k, next, secondary, hhops, hnext, hhere, hthere, -⟩ :=
      h.nextHops_spec hcount hsource hdest hne queries
    obtain rfl : k = m := by
      rw [hdistance] at hhere
      have := Option.some.inj hhere
      omega
    obtain ⟨route, hlength, hnodup, hbounds, htrail⟩ := ih (h.mem_of_neighbor hnext) hthere
    refine ⟨source :: route, by rw [length_cons, hlength], ?_, ?_,
      htrail.cons ⟨⟨secondary, hhops⟩, hnext, k, hhere, hthere⟩⟩
    · -- everything further on is nearer than the source
      refine nodup_cons.mpr ⟨fun hmem => ?_, hnodup⟩
      obtain ⟨j, hj, hdist⟩ := hbounds source hmem
      rw [hdistance] at hdist
      have := Option.some.inj hdist
      omega
    · intro n hn
      rcases mem_cons.mp hn with rfl | hn
      · exact ⟨k + 1, le_refl _, hdistance⟩
      · obtain ⟨j, hj, hdist⟩ := hbounds n hn
        exact ⟨j, by omega, hdist⟩

lemma Synthesized.exists_walk_past {alternate primary : NodeId} (hdest : destination ∈ t.routingNodeIds)
    (halternate : alternate ∈ t.adjacency.neighbors source) (hprimary : primary ∈ t.routingNodeIds)
    (hreach : ReflTransGen (HopPast t (t.routingNodeIds.idxOf source)
      (t.routingNodeIds.idxOf primary)) (t.routingNodeIds.idxOf alternate)
      (t.routingNodeIds.idxOf destination)) :
    ∃ walk, Trail (fun a b => b ∈ t.adjacency.neighbors a) alternate destination walk ∧
      ∀ n ∈ walk, n ≠ source ∧ (primary ≠ destination → n ≠ primary) := by
  have hmember := h.mem_of_neighbor halternate
  obtain ⟨n, hsteps⟩ := exists_steps_iff.mpr hreach
  obtain ⟨path, hpath, -⟩ := hsteps.exists_trail
  have hname : ∀ a ∈ t.routingNodeIds, t.routingNodeIds.getD (t.routingNodeIds.idxOf a) source = a :=
    fun a ha => by rw [getD_eq_getElem?_getD, getElem?_idxOf ha, Option.getD_some]
  have hnamed := hpath.map (s := fun a b => b ∈ t.adjacency.neighbors a)
    (fun i => t.routingNodeIds.getD i source) fun i j hij => by
      obtain ⟨a, b, ha, hb, hab⟩ := h.hop_iff.mp hij.1
      rw [h.keys_eq] at ha hb
      rwa [getD_eq_getElem?_getD, ha, getD_eq_getElem?_getD, hb]
  rw [hname alternate hmember, hname destination hdest] at hnamed
  refine ⟨_, hnamed, fun a ha => ?_⟩
  obtain ⟨i, hi, rfl⟩ := mem_map.mp ha
  have hinside : i < t.routingNodeIds.length ∧ i ≠ t.routingNodeIds.idxOf source := by
    refine hpath.forall_mem (P := fun i => i < t.routingNodeIds.length ∧
      i ≠ t.routingNodeIds.idxOf source) ?_ (fun x y hxy => ?_) i hi
    · exact ⟨idxOf_lt_length_iff.mpr hmember, (h.hop_ne (h.hop_of_mem halternate)).symm⟩
    · exact ⟨(h.hop_inside hxy.1).2, hxy.2.2⟩
  rw [getD_eq_getElem _ _ hinside.1]
  have hposition : t.routingNodeIds.idxOf t.routingNodeIds[i] = i := h.nodup.idxOf_getElem i hinside.1
  refine ⟨fun heq => hinside.2 (by rw [← heq, hposition]), fun hne heq => ?_⟩
  -- every node before the last is left, and nothing leaves the first hop
  have hlast : i ≠ t.routingNodeIds.idxOf destination := by
    intro hi
    rw [← hposition, heq] at hi
    exact hne ((idxOf_inj hprimary).mp hi)
  obtain ⟨j, hj⟩ := NodeSplit.exists_arc_of_mem hpath hi hlast
  have hleft := (UnitFlow.step_of_mem_arcs hpath hj).2.1
  exact hleft (by rw [← heq, hposition])

end

lemma BoundedTopology.nextHopsFrom_eq {table : TreeMap NodeId (NodeId × Option NodeId)} :
    (t.nextHopsFrom (t.nextHopCache queries) source).1 = some table ↔
      ∃ compact, (t.nextHopTable (t.nextHopCache queries) source).1 = some compact ∧
        table = .ofList (t.routingNodeIds.filterMap fun n =>
          (t.hopsTo compact n).map fun hops => (n, hops)) := by
  rw [nextHopsFrom]
  rcases t.nextHopTable (t.nextHopCache queries) source with ⟨_ | compact, cache⟩
  · simp
  · simp [eq_comm]

variable {hops : NodeId × Option NodeId}

lemma BoundedTopology.getElem?_listed {compact : List (Option CompactNextHops)} :
    (TreeMap.ofList (t.routingNodeIds.filterMap fun n =>
        (t.hopsTo compact n).map fun hops => (n, hops)))[destination]? = some hops ↔
      destination ∈ t.routingNodeIds ∧ t.hopsTo compact destination = some hops := by
  have hlisted : ∀ {n x}, (n, x) ∈ t.routingNodeIds.filterMap (fun n =>
      (t.hopsTo compact n).map fun hops => (n, hops)) ↔
        n ∈ t.routingNodeIds ∧ t.hopsTo compact n = some x := by
    intro n x
    rw [mem_filterMap]
    constructor
    · rintro ⟨m, hm, hx⟩
      obtain ⟨y, hy, heq⟩ := Option.map_eq_some_iff.mp hx
      obtain ⟨rfl, rfl⟩ := Prod.mk.inj heq
      exact ⟨hm, hy⟩
    · rintro ⟨hn, hx⟩
      exact ⟨n, hn, by rw [hx]; rfl⟩
  constructor
  · intro h
    exact hlisted.mp (mem_of_getElem?_ofList h)
  · intro h
    obtain ⟨other, hother, hmem⟩ := exists_getElem?_ofList (hlisted.mpr h)
    rw [hother, ← h.2, (hlisted.mp hmem).2]

lemma BoundedTopology.exists_nextHopsFrom (hdest : destination ∈ t.routingNodeIds)
    (hhops : t.nextHops queries source destination = some hops) :
    ∃ table, (t.nextHopsFrom (t.nextHopCache queries) source).1 = some table ∧
      table[destination]? = some hops := by
  obtain ⟨compact, hcompact, hentry⟩ := Option.bind_eq_some_iff.mp hhops
  exact ⟨_, nextHopsFrom_eq.mpr ⟨compact, hcompact, rfl⟩, getElem?_listed.mpr ⟨hdest, hentry⟩⟩

lemma BoundedTopology.nextHops_of_listed {table : TreeMap NodeId (NodeId × Option NodeId)}
    (htable : (t.nextHopsFrom (t.nextHopCache queries) source).1 = some table)
    (hentry : table[destination]? = some hops) : t.nextHops queries source destination = some hops := by
  obtain ⟨compact, hcompact, rfl⟩ := nextHopsFrom_eq.mp htable
  rw [nextHops, hcompact]
  exact (getElem?_listed.mp hentry).2

lemma Synthesized.mem_routingNodeIds (h : Synthesized nodes config t) {n : NodeId} :
    n ∈ t.routingNodeIds ↔ n ∈ nodes.map (·.nodeId) := by
  rw [h.routingNodeIds]
  exact (sortedNodeIds_perm nodes).mem_iff

lemma Synthesized.nextHops_large (h : Synthesized nodes config t) {primary : NodeId}
    {secondary : Option NodeId} (hneighbor : destination ∈ t.adjacency.neighbors source)
    (hlarge : 2 ^ 32 ≤ t.routingNodeIds.idxOf destination)
    (hhops : t.nextHops queries source destination = some (primary, secondary)) :
    primary ≠ destination ∧ secondary = none := by
  have hhop := h.hop_of_mem hneighbor
  have hsource := (h.members source).mp (Adjacency.mem_of_mem_neighbors hneighbor)
  have hdest := h.mem_of_neighbor hneighbor
  obtain ⟨-, p, l, hentry, hname, rfl⟩ :=
    (h.nextHops_eq hsource hdest (h.undirected.adj_iff.mpr hneighbor).ne).mp hhops
  obtain ⟨hfits, rfl⟩ := nextHopsTo_large hhop hlarge hentry
  refine ⟨?_, rfl⟩
  rintro rfl
  rw [(idxOf_eq_iff h.nodup hdest).mpr hname] at hlarge
  exact absurd hfits (not_lt.mpr hlarge)

/-- **From `2 ^ 32 + 1` members on the tables fall short**: some neighbour is reached neither directly
nor with an alternate. -/
theorem Synthesized.exists_large (h : Synthesized nodes config t) (hlarge : 2 ^ 32 < nodes.length) :
    ∃ source destination, destination ∈ t.adjacency.neighbors source ∧
      ∀ queries primary secondary,
        t.nextHops queries source destination = some (primary, secondary) →
        primary ≠ destination ∧ secondary = none := by
  rw [← h.length_routingNodeIds] at hlarge
  -- the last position, and the node before it on a way from the first one
  have hreach := h.hop_connected (lt_of_le_of_lt (Nat.zero_le _) hlarge) hlarge
  rcases ReflTransGen.cases_tail hreach with hzero | ⟨k, -, hlast⟩
  · omega
  obtain ⟨source, destination, -, hat, hneighbor⟩ := h.hop_iff.mp hlast
  rw [h.keys_eq] at hat
  refine ⟨source, destination, hneighbor, fun queries primary secondary hhops => ?_⟩
  refine h.nextHops_large hneighbor ?_ hhops
  rw [(idxOf_eq_iff h.nodup (mem_of_getElem? hat)).mpr hat]

end Tables

/-- On at most `2 ^ 32` members, forwarding along the primary hops of each node's own table takes as many
steps as a shortest path has, each one nearer by one. -/
theorem next_hops_descend (hashes : TopologyHashes) (nodes : List NodeRecord)
    (config : BoundedTopologyConfig) (t : BoundedTopology)
    (h : synthesize hashes nodes config = .ok t) (hcount : nodes.length ≤ 2 ^ 32)
    (queries : List NodeId) (source destination : NodeId)
    (hsource : source ∈ nodes.map (·.nodeId)) (hdest : destination ∈ nodes.map (·.nodeId))
    (hne : source ≠ destination) :
    ∃ distance route, (distancesFrom source t.adjacency)[destination]? = some distance ∧
      route.length = distance + 1 ∧ route.Nodup ∧
      Search.Trail (t.Descends queries destination) source destination route := by
  have hsyn := synthesized h
  rw [← hsyn.mem_routingNodeIds] at hsource hdest
  rw [← hsyn.length_routingNodeIds] at hcount
  obtain ⟨m, -, -, -, -, hdistance, -⟩ := hsyn.nextHops_spec hcount hsource hdest hne queries
  obtain ⟨route, hlength, hnodup, -, htrail⟩ :=
    hsyn.exists_route hcount hdest queries hsource hdistance
  exact ⟨m + 1, route, hdistance, hlength, hnodup, htrail⟩

/-- On a topology of three to `2 ^ 32` members every entry has an alternate. -/
theorem alternate_hop_survives (hashes : TopologyHashes) (nodes : List NodeRecord)
    (config : BoundedTopologyConfig) (t : BoundedTopology)
    (h : synthesize hashes nodes config = .ok t) (hthree : 3 ≤ nodes.length)
    (hcount : nodes.length ≤ 2 ^ 32) (queries : List NodeId) (source destination : NodeId)
    (hsource : source ∈ nodes.map (·.nodeId)) (hdest : destination ∈ nodes.map (·.nodeId))
    (hne : source ≠ destination) : t.HasAlternate queries source destination := by
  have hsyn := synthesized h
  rw [← hsyn.mem_routingNodeIds] at hsource hdest
  rw [← hsyn.length_routingNodeIds] at hcount
  obtain ⟨m, primary, secondary, hhops, hprimary, -, -, halternate⟩ :=
    hsyn.nextHops_spec hcount hsource hdest hne queries
  obtain ⟨alternate, rfl, hneighbor, hother, hreach⟩ := halternate hthree
  obtain ⟨table, htable, hentry⟩ := t.exists_nextHopsFrom hdest hhops
  refine ⟨table, primary, alternate, htable, hentry, hneighbor, hother, ?_⟩
  refine hsyn.exists_walk_past hdest hneighbor ?_ hreach
  exact hsyn.mem_of_neighbor hprimary

lemma synthesize_perm {hashes : TopologyHashes} {config : BoundedTopologyConfig}
    {nodes nodes' : List NodeRecord} (h : (nodes.map (·.nodeId)).Perm (nodes'.map (·.nodeId))) :
    synthesize hashes nodes config = synthesize hashes nodes' config := by
  have hsorted : (nodes.map (·.nodeId)).insertionSort (· ≤ ·) =
      (nodes'.map (·.nodeId)).insertionSort (· ≤ ·) :=
    Perm.eq_of_pairwise (fun _ _ _ _ => le_antisymm) (pairwise_insertionSort _ _)
      (pairwise_insertionSort _ _)
      ((sortedNodeIds_perm nodes).trans (h.trans (sortedNodeIds_perm nodes').symm))
  rw [synthesize, canonicalNodeIds, hsorted, ← canonicalNodeIds, ← synthesize]

lemma BoundedTopology.nextHops_queries (t : BoundedTopology) (queries queries' : List NodeId)
    (source destination : NodeId) :
    t.nextHops queries source destination = t.nextHops queries' source destination := by
  rw [nextHops, nextHopTable, nextHops, nextHopTable]
  cases t.routingNodeIndexes[source]? with
  | none => rfl
  | some s => simp only [cachedNextHops_eq]

/-- **Nodes that hold the same members route together**, in whatever order they hold them: each forwards by
its own topology and its own cached table, and the packet arrives. -/
theorem views_route_together (hashes : TopologyHashes) (config : BoundedTopologyConfig)
    (members : List NodeId) (hcount : members.length ≤ 2 ^ 32) (views : NodeId → List NodeRecord)
    (hviews : ∀ n ∈ members, ((views n).map (·.nodeId)).Perm members)
    (topologies : NodeId → BoundedTopology)
    (h : ∀ n ∈ members, synthesize hashes (views n) config = .ok (topologies n))
    (queries : NodeId → List NodeId) (source destination : NodeId) (hsource : source ∈ members)
    (hdest : destination ∈ members) (hne : source ≠ destination) :
    ∃ route, route.Nodup ∧
      Trail (fun a b => (topologies a).Descends (queries a) destination a b) source destination
        route := by
  have hsyn := synthesized (h source hsource)
  have hmem : ∀ {n}, n ∈ (topologies source).routingNodeIds ↔ n ∈ members :=
    hsyn.mem_routingNodeIds.trans (hviews source hsource).mem_iff
  have hone : ∀ n ∈ members, topologies n = topologies source := by
    intro n hn
    have hsame : synthesize hashes (views n) config = synthesize hashes (views source) config :=
      synthesize_perm ((hviews n hn).trans (hviews source hsource).symm)
    rw [h n hn, h source hsource] at hsame
    exact Except.ok.inj hsame
  have hlength : (topologies source).routingNodeIds.length ≤ 2 ^ 32 := by
    rw [hsyn.length_routingNodeIds, ← length_map, (hviews source hsource).length_eq]
    exact hcount
  obtain ⟨m, -, -, -, -, hdistance, -⟩ :=
    hsyn.nextHops_spec hlength (hmem.mpr hsource) (hmem.mpr hdest) hne []
  obtain ⟨route, -, hnodup, -, htrail⟩ :=
    hsyn.exists_route hlength (hmem.mpr hdest) (queries source) (hmem.mpr hsource) hdistance
  have hroute : ∀ n ∈ route, n ∈ members :=
    htrail.forall_mem hsource fun a b hab => hmem.mp (hsyn.mem_of_neighbor hab.2.1)
  refine ⟨route, hnodup, htrail.mono fun a ha b _ hab => ?_⟩
  obtain ⟨⟨secondary, hhops⟩, hnearer⟩ := hab
  rw [Descends, hone a (hroute a ha)]
  exact ⟨⟨secondary, by rw [nextHops_queries _ _ (queries source), hhops]⟩, hnearer⟩

namespace SampleHierarchy

theorem next_hops_descend_sample :
    ∃ distance route, (distancesFrom ⟨"a"⟩ topology.adjacency)[(⟨"c"⟩ : NodeId)]? = some distance ∧
      route.length = distance + 1 ∧ route.Nodup ∧
      Search.Trail (topology.Descends [⟨"d"⟩] ⟨"c"⟩) ⟨"a"⟩ ⟨"c"⟩ route :=
  next_hops_descend hashes (nodeIds.map record) config topology topology_eq (by decide) [⟨"d"⟩] _ _
    (by decide) (by decide) (by decide)

theorem alternate_hop_survives_sample :
    topology.nextHops [⟨"d"⟩] ⟨"a"⟩ ⟨"c"⟩ = some (⟨"e"⟩, some ⟨"b"⟩) ∧
      topology.HasAlternate [⟨"d"⟩] ⟨"a"⟩ ⟨"c"⟩ :=
  ⟨by decide +kernel, alternate_hop_survives hashes (nodeIds.map record) config topology topology_eq
    (by decide) (by decide) _ _ _ (by decide) (by decide) (by decide)⟩

theorem views_route_together_sample :
    ∃ route, route.Nodup ∧
      Trail (fun a b => topology.Descends [a] ⟨"c"⟩ a b) ⟨"a"⟩ ⟨"c"⟩ route :=
  have hperm := (reverse_perm (nodeIds.map record)).map NodeRecord.nodeId
  views_route_together hashes config nodeIds (by decide) (fun _ => (nodeIds.map record).reverse)
    (fun _ _ => hperm) (fun _ => topology) (fun _ _ => (synthesize_perm hperm).trans topology_eq)
    (fun n => [n]) _ _ (by decide) (by decide) (by decide)

end SampleHierarchy

namespace LargeMembership

/-- One member more than there are 32-bit positions. -/
def count : ℕ := 2 ^ 32 + 1

lemma exists_neighbors :
    ∃ t source destination,
      synthesize (hashes (sortedNodeIds (nodes count))) (nodes count) config = .ok t ∧
      source ∈ (nodes count).map (·.nodeId) ∧ destination ∈ (nodes count).map (·.nodeId) ∧
      source ≠ destination ∧ destination ∈ t.adjacency.neighbors source ∧
      ∀ queries primary secondary,
        t.nextHops queries source destination = some (primary, secondary) →
        primary ≠ destination ∧ secondary = none := by
  obtain ⟨t, ht⟩ := exists_topology count (by norm_num [count])
  have hsyn := synthesized ht
  obtain ⟨source, destination, hneighbor, hfails⟩ := hsyn.exists_large (by simp [nodes, count])
  have hadj := hsyn.undirected.adj_iff.mpr hneighbor
  refine ⟨t, source, destination, ht, ?_, ?_, hadj.ne, hneighbor, hfails⟩
  · exact hsyn.mem_routingNodeIds.mp ((hsyn.members _).mp (Adjacency.mem_of_mem_neighbors hneighbor))
  · exact hsyn.mem_routingNodeIds.mp (hsyn.mem_of_neighbor hneighbor)

/-- A way along the primary hops would have to take the link. -/
theorem next_hops_descend_fails :
    ∃ t source destination,
      synthesize (hashes (sortedNodeIds (nodes count))) (nodes count) config = .ok t ∧
      source ∈ (nodes count).map (·.nodeId) ∧ destination ∈ (nodes count).map (·.nodeId) ∧
      source ≠ destination ∧
      ∀ queries, ¬∃ distance route,
        (distancesFrom source t.adjacency)[destination]? = some distance ∧
        route.length = distance + 1 ∧ route.Nodup ∧
        Search.Trail (t.Descends queries destination) source destination route := by
  obtain ⟨t, source, destination, ht, hsource, hdest, hne, hneighbor, hfails⟩ := exists_neighbors
  refine ⟨t, source, destination, ht, hsource, hdest, hne, ?_⟩
  rintro queries ⟨distance, route, -, -, -, htrail⟩
  match route, htrail with
  | [], htrail => cases htrail.head
  | [a], htrail =>
    obtain rfl := Option.some.inj htrail.head
    exact hne (Option.some.inj htrail.last)
  | a :: b :: rest, htrail =>
    obtain rfl := Option.some.inj htrail.head
    obtain ⟨⟨secondary, hhops⟩, -, m, hm, hzero⟩ :=
      (List.isChain_cons_cons.mp htrail.chain).1
    have hle := ((getElem?_distancesFrom _ _ _ _).mp hm).2 1 (.tail (.refl a) hneighbor)
    obtain rfl : m = 0 := by omega
    cases ((getElem?_distancesFrom _ _ _ _).mp hzero).1
    exact (hfails queries _ _ hhops).1 rfl

theorem alternate_hop_fails :
    ∃ t source destination,
      synthesize (hashes (sortedNodeIds (nodes count))) (nodes count) config = .ok t ∧
      3 ≤ (nodes count).length ∧
      source ∈ (nodes count).map (·.nodeId) ∧ destination ∈ (nodes count).map (·.nodeId) ∧
      source ≠ destination ∧ ∀ queries, ¬t.HasAlternate queries source destination := by
  obtain ⟨t, source, destination, ht, hsource, hdest, hne, hneighbor, hfails⟩ := exists_neighbors
  refine ⟨t, source, destination, ht, by simp [nodes, count], hsource, hdest, hne, ?_⟩
  rintro queries ⟨table, primary, secondary, htable, hentry, -⟩
  have hhops := t.nextHops_of_listed htable hentry
  cases (hfails queries _ _ hhops).2

end LargeMembership

end HeteroNetwork
