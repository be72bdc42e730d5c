import HeteroNetwork.ControlPlane.Topology.Locality

/-!
# The hierarchy as a partition of the membership

`build_hierarchy` flattens its tree into a sorted list of groups that are linked by hashed ids.  Where the
ids of distinct prefixes are distinct, the list still is the tree (`hierarchy_partitions`).
-/

namespace HeteroNetwork

open List

structure Partitions (hashes : TopologyHashes) (config : BoundedTopologyConfig) (nodeIds : List NodeId)
    (hierarchy : List HierarchyGroup) (digits : HierarchyGroup → List (ℕ × ℕ)) : Prop where
  distinct : (hierarchy.map (·.blockId)).Nodup
  nodup : ∀ group ∈ hierarchy, group.nodeIds.Nodup
  named : ∀ group ∈ hierarchy, group.blockId = Block.groupId hashes (digits group) ∧
    group.depth = (digits group).length
  members : ∀ group ∈ hierarchy, ∀ n,
    n ∈ group.nodeIds ↔ n ∈ nodeIds ∧ ∀ p ∈ digits group, hashes.hashPrefixDigit n p.1 = p.2
  leaf_size : ∀ group ∈ hierarchy, group.childBlockIds = [] →
    1 ≤ group.nodeIds.length ∧ group.nodeIds.length ≤ config.blockSize
  leaf_cover : ∀ n ∈ nodeIds, ∃! leaf, leaf ∈ hierarchy ∧ leaf.childBlockIds = [] ∧ n ∈ leaf.nodeIds
  internal : ∀ group ∈ hierarchy, group.childBlockIds ≠ [] →
    config.blockSize < group.nodeIds.length ∧ 2 ≤ group.childBlockIds.length ∧
      group.childBlockIds.length ≤ config.blockSize
  child : ∀ group ∈ hierarchy, ∀ id ∈ group.childBlockIds, ∃ child ∈ hierarchy, child.blockId = id ∧
    child.parentBlockId = some group.blockId ∧ child.depth = group.depth + 1 ∧
    (∃ p, digits child = digits group ++ [p]) ∧ ∀ n ∈ child.nodeIds, n ∈ group.nodeIds
  child_cover : ∀ group ∈ hierarchy, group.childBlockIds ≠ [] → ∀ n ∈ group.nodeIds,
    ∃! child, child ∈ hierarchy ∧ child.blockId ∈ group.childBlockIds ∧ n ∈ child.nodeIds
  parent : ∀ child ∈ hierarchy, (child.parentBlockId = none ∧ child.depth = 0) ∨
    ∃ group ∈ hierarchy, child.parentBlockId = some group.blockId ∧
      child.blockId ∈ group.childBlockIds

namespace Block

variable {hashes : TopologyHashes} {config : BoundedTopologyConfig} {nodeIds : List NodeId}
  {b c d : Block} {n : NodeId}

lemma children_le (hdigit : ∀ n depth, hashes.hashPrefixDigit n depth < config.blockSize) (b : Block) :
    (children hashes config b).length ≤ config.blockSize := by
  rcases children_cases hashes config b with hnil | ⟨splitDepth, buckets, -, hsplit, hchildren⟩
  · simp [hnil]
  · rw [hchildren, length_map, ← length_map Prod.fst]
    have hnodup : (buckets.map Prod.fst).Nodup := by
      rw [nodup_iff_pairwise_ne, pairwise_map]
      exact hsplit.ordered.imp fun hlt => hlt.ne
    have hsub : ∀ digit ∈ buckets.map Prod.fst, digit ∈ List.range config.blockSize := by
      intro digit hmem
      obtain ⟨⟨_, members⟩, hbucket, rfl⟩ := mem_map.mp hmem
      obtain ⟨n, hn⟩ := exists_mem_of_ne_nil _ (hsplit.members_ne_nil hbucket)
      rw [hsplit.members_eq hbucket, mem_filter] at hn
      rw [mem_range, ← of_decide_eq_true hn.2]
      exact hdigit n splitDepth
    simpa using (hnodup.subperm hsub).length_le

lemma blockSize_lt (h : children hashes config b ≠ []) : config.blockSize < b.members.length := by
  rcases children_cases hashes config b with hnil | ⟨_, _, hlt, -⟩
  · exact absurd hnil h
  · exact hlt

variable (hashes config nodeIds) in
def digitsOf (group : HierarchyGroup) : List (ℕ × ℕ) :=
  match (inOrder hashes config nodeIds).find? fun b => toGroup hashes config b = group with
  | some b => b.digits
  | none => []

variable (hashes config nodeIds) in
def listed : List HierarchyGroup := (inOrder hashes config nodeIds).map (toGroup hashes config)

lemma mem_listed {group : HierarchyGroup} : group ∈ listed hashes config nodeIds ↔
    ∃ b ∈ blocks hashes config (root nodeIds), toGroup hashes config b = group := by
  simp only [listed, mem_map, mem_inOrder]

lemma toGroup_mem_listed (hb : b ∈ blocks hashes config (root nodeIds)) :
    toGroup hashes config b ∈ listed hashes config nodeIds := mem_listed.mpr ⟨b, hb, rfl⟩

lemma toGroup_leaf_iff : (toGroup hashes config b).childBlockIds = [] ↔ children hashes config b = [] :=
  map_eq_nil_iff

lemma leaf_bounds (hne : nodeIds ≠ []) (hsplit : FullySplit hashes config (root nodeIds))
    (hb : b ∈ blocks hashes config (root nodeIds)) (hnil : children hashes config b = []) :
    1 ≤ b.members.length ∧ b.members.length ≤ config.blockSize := by
  refine ⟨length_pos_iff.mpr ?_, ?_⟩
  · rcases mem_blocks.mp hb with rfl | hbelow
    · obtain ⟨n, hn⟩ := exists_mem_of_ne_nil _ hne
      exact ne_nil_of_mem (mem_root.mpr hn)
    · exact members_ne_nil_of_mem_below hbelow
  · by_contra hlarge
    exact hsplit b hb (not_le.mp hlarge) hnil

lemma exists_unique_leaf (hn : n ∈ nodeIds) :
    ∃! leaf, leaf ∈ listed hashes config nodeIds ∧ leaf.childBlockIds = [] ∧ n ∈ leaf.nodeIds := by
  obtain ⟨leaf, hmem, hnil, hnleaf⟩ : ∃ leaf ∈ blocks hashes config (root nodeIds),
      children hashes config leaf = [] ∧ n ∈ leaf.members := exists_leaf hashes config (mem_root.mpr hn)
  refine ⟨toGroup hashes config leaf,
    ⟨toGroup_mem_listed hmem, toGroup_leaf_iff.mpr hnil, hnleaf⟩, ?_⟩
  rintro group ⟨hgroup, hgroupNil, hngroup⟩
  obtain ⟨b, hb, rfl⟩ := mem_listed.mp hgroup
  rw [leaf_eq_of_mem hb hmem (toGroup_leaf_iff.mp hgroupNil) hnil hngroup hnleaf]

lemma parentBlockId_of_mem_children (hc : c ∈ children hashes config b) :
    (toGroup hashes config c).parentBlockId = some (toGroup hashes config b).blockId := by
  obtain ⟨-, -, splitDepth, digit, hdigits, -⟩ := mem_children hc
  show parentGroupId hashes c.digits = some (groupId hashes b.digits)
  rw [hdigits, parentGroupId_concat]

lemma depth_of_mem_children (hc : c ∈ children hashes config b) :
    (toGroup hashes config c).depth = (toGroup hashes config b).depth + 1 := by
  obtain ⟨-, -, splitDepth, digit, hdigits, -⟩ := mem_children hc
  show c.digits.length = b.digits.length + 1
  rw [hdigits, length_append, length_singleton]

section Distinct

variable (hids : DistinctGroupIds hashes (groupPrefixes hashes config nodeIds))

include hids

section

variable (hb : b ∈ blocks hashes config (root nodeIds))
include hb

lemma digitsOf_toGroup : digitsOf hashes config nodeIds (toGroup hashes config b) = b.digits := by
  rw [digitsOf]
  cases hfind : (inOrder hashes config nodeIds).find? fun c =>
      toGroup hashes config c = toGroup hashes config b with
  | none => simpa using find?_eq_none.mp hfind b (mem_inOrder.mpr hb)
  | some c =>
    have hc := mem_inOrder.mp (mem_of_find?_eq_some hfind)
    have hgroup : toGroup hashes config c = toGroup hashes config b := by
      simpa using find?_some hfind
    rw [eq_of_groupId_eq hids hc hb (congrArg HierarchyGroup.blockId hgroup)]

lemma mem_children_of_id (hd : d ∈ blocks hashes config (root nodeIds))
    (hid : groupId hashes d.digits ∈ (toGroup hashes config b).childBlockIds) :
    d ∈ children hashes config b := by
  obtain ⟨c, hc, heq⟩ := mem_map.mp hid
  rwa [← eq_of_groupId_eq hids (blocks_trans (mem_blocks_of_mem_children hc) hb) hd heq]

lemma exists_unique_child (hchildren : children hashes config b ≠ []) (hn : n ∈ b.members) :
    ∃! child, child ∈ listed hashes config nodeIds ∧
      child.blockId ∈ (toGroup hashes config b).childBlockIds ∧ n ∈ child.nodeIds := by
  obtain ⟨c, hc, hnc⟩ := exists_child_of_mem hchildren hn
  have hcmem := blocks_trans (mem_blocks_of_mem_children hc) hb
  refine ⟨toGroup hashes config c, ⟨toGroup_mem_listed hcmem, mem_map_of_mem hc, hnc⟩, ?_⟩
  rintro other ⟨hother, hid, hnother⟩
  obtain ⟨d, hd, rfl⟩ := mem_listed.mp hother
  rw [children_eq_of_mem (mem_children_of_id hids hb hd hid) hc hnother hnc]

end

lemma partitions_listed (hnodup : nodeIds.Nodup) (hne : nodeIds ≠ [])
    (hdigit : ∀ n depth, hashes.hashPrefixDigit n depth < config.blockSize)
    (hsplit : FullySplit hashes config (root nodeIds)) :
    Partitions hashes config nodeIds (listed hashes config nodeIds)
      (digitsOf hashes config nodeIds) where
  distinct := by
    rw [listed, map_map]
    refine (nodup_map_iff_inj_on inOrder_nodup).mpr fun b hb c hc heq => ?_
    exact eq_of_groupId_eq hids (mem_inOrder.mp hb) (mem_inOrder.mp hc) heq
  nodup := by
    intro group hgroup
    obtain ⟨b, hb, rfl⟩ := mem_listed.mp hgroup
    exact nodup_of_mem_blocks hnodup hb
  named := by
    intro group hgroup
    obtain ⟨b, hb, rfl⟩ := mem_listed.mp hgroup
    rw [digitsOf_toGroup hids hb]
    exact ⟨rfl, rfl⟩
  members := by
    intro group hgroup n
    obtain ⟨b, hb, rfl⟩ := mem_listed.mp hgroup
    have hroot : (root nodeIds).members =
        (root nodeIds).members.filter fun n => Matches hashes (root nodeIds).digits n := by
      simp [root, Matches]
    rw [digitsOf_toGroup hids hb]
    show n ∈ b.members ↔ n ∈ nodeIds ∧ Matches hashes b.digits n
    rw [mem_blocks_members hb hroot, mem_filter, mem_root, decide_eq_true_eq]
  leaf_size := by
    intro group hgroup hnil
    obtain ⟨b, hb, rfl⟩ := mem_listed.mp hgroup
    exact leaf_bounds hne hsplit hb (toGroup_leaf_iff.mp hnil)
  leaf_cover := fun n hn => exists_unique_leaf hn
  internal := by
    intro group hgroup hinternal
    obtain ⟨b, hb, rfl⟩ := mem_listed.mp hgroup
    have hchildren : children hashes config b ≠ [] := fun h => hinternal (toGroup_leaf_iff.mpr h)
    rw [show (toGroup hashes config b).childBlockIds.length = (children hashes config b).length from
      length_map _]
    exact ⟨blockSize_lt hchildren, two_le_children hchildren, children_le hdigit b⟩
  child := by
    intro group hgroup id hid
    obtain ⟨b, hb, rfl⟩ := mem_listed.mp hgroup
    obtain ⟨c, hc, rfl⟩ := mem_map.mp hid
    have hcmem := blocks_trans (mem_blocks_of_mem_children hc) hb
    obtain ⟨-, -, splitDepth, digit, hdigits, -⟩ := mem_children hc
    refine ⟨toGroup hashes config c, toGroup_mem_listed hcmem, rfl, parentBlockId_of_mem_children hc,
      depth_of_mem_children hc, ?_, fun n hn => mem_of_mem_child hc hn⟩
    rw [digitsOf_toGroup hids hcmem, digitsOf_toGroup hids hb]
    exact ⟨_, hdigits⟩
  child_cover := by
    intro group hgroup hinternal n hn
    obtain ⟨b, hb, rfl⟩ := mem_listed.mp hgroup
    exact exists_unique_child hids hb (fun h => hinternal (toGroup_leaf_iff.mpr h)) hn
  parent := by
    intro child hchild
    obtain ⟨c, hc, rfl⟩ := mem_listed.mp hchild
    rcases mem_blocks.mp hc with rfl | hbelow
    · exact .inl ⟨rfl, rfl⟩
    · obtain ⟨b, hb, hcb⟩ := exists_parent hbelow
      exact .inr ⟨toGroup hashes config b, toGroup_mem_listed hb, parentBlockId_of_mem_children hcb,
        mem_map_of_mem hcb⟩

end Distinct

end Block

lemma blockSize_pos_of_build {hashes : TopologyHashes} {config : BoundedTopologyConfig}
    {nodeIds : List NodeId} {hierarchy : List HierarchyGroup} (hne : nodeIds ≠ [])
    (hbuild : buildHierarchy hashes config nodeIds = .ok hierarchy) : 0 < config.blockSize := by
  obtain ⟨-, hsplit⟩ := Block.buildHierarchy_eq_ok hne hbuild
  obtain ⟨n, hn⟩ := exists_mem_of_ne_nil _ hne
  obtain ⟨leaf, ⟨hlisted, hnil, hnleaf⟩, -⟩ :=
    @Block.exists_unique_leaf hashes config nodeIds n hn
  obtain ⟨b, hb, rfl⟩ := Block.mem_listed.mp hlisted
  have hbounds := Block.leaf_bounds hne hsplit hb (Block.toGroup_leaf_iff.mp hnil)
  exact hbounds.1.trans hbounds.2

/-- A hierarchy of distinct nodes is a tree of groups that share the membership out level by level, provided
that distinct prefixes have got distinct ids. -/
theorem hierarchy_partitions (cryptographicHashU64 : List UInt8 → UInt64)
    (config : BoundedTopologyConfig) (nodeIds : List NodeId) (hierarchy : List HierarchyGroup)
    (hnodup : nodeIds.Nodup)
    (hids : Block.DistinctGroupIds (.ofDigest cryptographicHashU64 config)
      (Block.groupPrefixes (.ofDigest cryptographicHashU64 config) config nodeIds))
    (hbuild : buildHierarchy (.ofDigest cryptographicHashU64 config) config nodeIds = .ok hierarchy) :
    ∃ digits, Partitions (.ofDigest cryptographicHashU64 config) config nodeIds hierarchy digits := by
  by_cases hne : nodeIds = []
  · subst hne
    obtain rfl : [] = hierarchy := Except.ok.inj hbuild
    exact ⟨fun _ => [], by constructor <;> simp⟩
  · have hpos := blockSize_pos_of_build hne hbuild
    obtain ⟨rfl, hsplit⟩ := Block.buildHierarchy_eq_ok hne hbuild
    exact ⟨_, Block.partitions_listed hids hnodup hne (fun n depth => Nat.mod_lt _ hpos) hsplit⟩

namespace SampleHierarchy

def lastByte (material : List UInt8) : UInt64 := (material.getLast?.getD 0).toUInt64

def fourLeaves : List HierarchyGroup :=
  ((buildHierarchy (.ofDigest lastByte config) config nodeIds).toOption).getD []

theorem hierarchy_partitions_sample :
    fourLeaves.map (·.nodeIds.map (·.asStr)) = [["a", "b", "c", "d", "e"], ["d"], ["a", "e"], ["b"], ["c"]] ∧
    ∃ digits, Partitions (.ofDigest lastByte config) config nodeIds fourLeaves digits :=
  ⟨by decide +kernel,
    hierarchy_partitions lastByte config nodeIds fourLeaves (by decide) (by decide +kernel)
      (by decide +kernel)⟩

end SampleHierarchy

end HeteroNetwork
