import HeteroNetwork.ControlPlane.Topology.Wiring

/-!
# A departure stays local

When a node leaves, a group that is still there has lost that node and no other, and a group that never
held it keeps its representatives: a digit sequence selects the same nodes wherever it occurs, and a block
brings its subtree and all earlier promises of its members with it.
-/

namespace HeteroNetwork

namespace Block

variable {hashes : TopologyHashes} {config : BoundedTopologyConfig}
  {membership membership' : List NodeId} {ports ports' : Block → List TopologyRepresentative}
  {b c : Block} {n x : NodeId}

variable (hashes config) in
lemma exists_leaf (hn : n ∈ b.members) :
    ∃ leaf ∈ blocks hashes config b, children hashes config leaf = [] ∧ n ∈ leaf.members := by
  induction b using tree_induction hashes config with
  | step b ih =>
    by_cases hleaf : children hashes config b = []
    · exact ⟨b, self_mem_blocks b, hleaf, hn⟩
    · obtain ⟨c, hc, hnc⟩ := exists_child_of_mem hleaf hn
      obtain ⟨leaf, hmem, hnil, hnleaf⟩ := ih c hc hnc
      exact ⟨leaf, blocks_trans hmem (mem_blocks_of_mem_children hc), hnil, hnleaf⟩

section

variable (hnodup : membership.Nodup) (hnodup' : membership'.Nodup)
    (hb : b ∈ blocks hashes config (root membership))
    (hb' : b ∈ blocks hashes config (root membership'))
include hnodup hnodup' hb hb'

lemma degree_leafAdjacency_eq (hn : n ∈ b.members) :
    (leafAdjacency hashes config membership).degree n =
      (leafAdjacency hashes config membership').degree n := by
  obtain ⟨leaf, hleaf, hnil, hnleaf⟩ := exists_leaf hashes config hn
  refine Adjacency.degree_congr fun m => ?_
  rw [mem_neighbors_leafAdjacency hnodup (blocks_trans hleaf hb) hnil hnleaf,
    mem_neighbors_leafAdjacency hnodup' (blocks_trans hleaf hb') hnil hnleaf]

/-- **The subtree of a common block has the same ports in both memberships.** -/
theorem ports_eq_of_common
    (hchosen : ∀ d ∈ blocks hashes config b,
      Chosen hashes config (leafAdjacency hashes config membership) ports d)
    (hchosen' : ∀ d ∈ blocks hashes config b,
      Chosen hashes config (leafAdjacency hashes config membership') ports' d) :
    ∀ d ∈ blocks hashes config b, ports d = ports' d := by
  induction b using tree_induction hashes config with
  | step b ih =>
    have hbelow : ∀ d ∈ below hashes config b, ports d = ports' d := by
      intro d hd
      obtain ⟨c, hc, hdc⟩ := mem_below.mp hd
      have hmem := mem_blocks_of_mem_children hc
      exact ih c hc (blocks_trans hmem hb) (blocks_trans hmem hb')
        (fun e he => hchosen e (blocks_trans he hmem))
        (fun e he => hchosen' e (blocks_trans he hmem)) d hdc
    intro d hd
    rcases mem_blocks.mp hd with rfl | hd
    · -- the same candidates with the same loads
      have hselect := hchosen d (self_mem_blocks d)
      have hselect' := hchosen' d (self_mem_blocks d)
      rw [Chosen] at hselect hselect'
      rw [selectGroupRepresentatives_congr fun n hn => by
        rw [degree_leafAdjacency_eq hnodup hnodup' hb hb' hn,
          promised_congr fun e he => hbelow e (List.mem_toFinset.mp he)], hselect'] at hselect
      exact (Except.ok.inj hselect).symm
    · exact hbelow d hd

end

lemma members_eq_filter (h : b ∈ blocks hashes config (root membership)) :
    b.members = (root membership).members.filter fun n => Matches hashes b.digits n :=
  mem_blocks_members h (by simp [root, Matches])

lemma root_erase : (root (membership.erase x)).members = (root membership).members.erase x := by
  have hperm : (root (membership.erase x)).members.Perm ((root membership).members.erase x) :=
    (List.perm_insertionSort _ _).trans ((List.perm_insertionSort _ membership).erase x).symm
  refine hperm.eq_of_pairwise (fun a b _ _ hab hba => le_antisymm hab hba)
    (root_sorted (membership.erase x)) ?_
  exact (root_sorted membership).sublist List.erase_sublist

lemma members_erase (hnodup : membership.Nodup) (hb : b ∈ blocks hashes config (root membership))
    (hc : c ∈ blocks hashes config (root (membership.erase x))) (hdigits : b.digits = c.digits) :
    c.members = b.members.erase x := by
  have hrootNodup : (root membership).members.Nodup :=
    (List.perm_insertionSort _ _).nodup_iff.mpr hnodup
  have hblockNodup := nodup_of_mem_blocks hnodup hb
  rw [members_eq_filter hc, root_erase, hrootNodup.erase_eq_filter,
    hblockNodup.erase_eq_filter, members_eq_filter hb, hdigits, List.filter_filter,
    List.filter_filter]
  exact List.filter_congr fun n _ => Bool.and_comm _ _

/-- **A departure stays local.**  With and without `x`, a group holds the same nodes except `x`; and if it
never held `x`, its representatives are the same. -/
theorem departure_local (hashes : TopologyHashes) (config : BoundedTopologyConfig)
    (membership : List NodeId) (x : NodeId) (hierarchy hierarchy' : List HierarchyGroup)
    (hnodup : membership.Nodup) (hx : x ∈ membership)
    (hbuild : buildHierarchy hashes config membership = .ok hierarchy)
    (hbuild' : buildHierarchy hashes config (membership.erase x) = .ok hierarchy')
    (hids : DistinctGroupIds hashes
      (groupPrefixes hashes config membership ++ groupPrefixes hashes config (membership.erase x))) :
    (∀ group ∈ hierarchy, ∀ group' ∈ hierarchy', group.blockId = group'.blockId →
      group'.nodeIds = group.nodeIds.erase x) ∧
    ∀ groups layout groups' layout',
      layOut hashes config membership hierarchy = .ok (groups, layout) →
      layOut hashes config (membership.erase x) hierarchy' = .ok (groups', layout') →
      ∀ group ∈ groups, ∀ group' ∈ groups', group.blockId = group'.blockId →
        x ∉ group.nodeIds → group'.representatives = group.representatives := by
  have hne : membership ≠ [] := List.ne_nil_of_mem hx
  obtain ⟨rfl, -⟩ := buildHierarchy_eq_ok hne hbuild
  by_cases hne' : membership.erase x = []
  · -- nobody is left
    rw [hne'] at hbuild' ⊢
    obtain rfl : [] = hierarchy' := Except.ok.inj hbuild'
    refine ⟨by simp, ?_⟩
    intro groups layout groups' layout' _ hlayOut'
    obtain rfl : [] = groups' := (Prod.mk.inj (Except.ok.inj hlayOut')).1
    simp
  · obtain ⟨rfl, -⟩ := buildHierarchy_eq_ok hne' hbuild'
    have hnodup' : (membership.erase x).Nodup := hnodup.erase x
    have hsame : ∀ b ∈ blocks hashes config (root membership),
        ∀ c ∈ blocks hashes config (root (membership.erase x)),
        groupId hashes b.digits = groupId hashes c.digits → b.digits = c.digits :=
      fun b hb c hc => digits_eq_of_groupId hids
        (fun h => List.mem_append_left _ (digits_mem_groupPrefixes hb h))
        (fun h => List.mem_append_right _ (digits_mem_groupPrefixes hc h))
    constructor
    · intro group hgroup group' hgroup' hid
      obtain ⟨b, hb, rfl⟩ := List.mem_map.mp hgroup
      obtain ⟨c, hc, rfl⟩ := List.mem_map.mp hgroup'
      rw [mem_inOrder] at hb hc
      exact members_erase hnodup hb hc (hsame b hb c hc hid)
    · intro groups layout groups' layout' hlayOut hlayOut' group hgroup group' hgroup' hid hfree
      obtain ⟨ports, rfl, hchosen⟩ := layOut_eq_ok hlayOut
      obtain ⟨ports', rfl, hchosen'⟩ := layOut_eq_ok hlayOut'
      obtain ⟨b, hb, rfl⟩ := List.mem_map.mp hgroup
      obtain ⟨c, hc, rfl⟩ := List.mem_map.mp hgroup'
      rw [mem_inOrder] at hb hc
      have hfree : x ∉ b.members := hfree
      have hdigits := hsame b hb c hc hid
      have hmembers := members_erase hnodup hb hc hdigits
      rw [List.erase_of_not_mem hfree] at hmembers
      obtain rfl : b = c := Block.ext hdigits hmembers.symm
      -- the root holds `x`, so the common block is below it
      have hbelow : b ∈ below hashes config (root membership) := by
        rcases mem_blocks.mp hb with rfl | hbelow
        · exact absurd (mem_root.mpr hx) hfree
        · exact hbelow
      have hbelow' : b ∈ below hashes config (root (membership.erase x)) := by
        rcases digits_cases hc with ⟨hnil, -⟩ | ⟨-, hbelow', -⟩
        · exact absurd (length_digits_lt hbelow) (by rw [hnil]; exact Nat.not_lt_zero _)
        · exact hbelow'
      exact (ports_eq_of_common hnodup hnodup' hb hc
        (fun d hd => hchosen d (below_of_mem_blocks hd hbelow))
        (fun d hd => hchosen' d (below_of_mem_blocks hd hbelow')) b (self_mem_blocks b)).symm

end Block

namespace SampleHierarchy

def sixNodeIds : List NodeId := nodeIds ++ [⟨"f"⟩]

def sixHierarchy : List HierarchyGroup :=
  [{ blockId := "group-root", nodeIds := sixNodeIds, parentBlockId := none,
     childBlockIds := ["group-0000000000000000", "group-0000000000000001"], depth := 0,
     representatives := [] },
   { blockId := "group-0000000000000000", nodeIds := [⟨"a"⟩, ⟨"b"⟩],
     parentBlockId := some "group-root", childBlockIds := [], depth := 1, representatives := [] },
   { blockId := "group-0000000000000001", nodeIds := [⟨"c"⟩, ⟨"d"⟩, ⟨"e"⟩, ⟨"f"⟩],
     parentBlockId := some "group-root", childBlockIds := [], depth := 1, representatives := [] }]

theorem departure_local_sample :
    ((layOut hashes config sixNodeIds sixHierarchy).isOk ∧
      (layOut hashes config (sixNodeIds.erase ⟨"f"⟩) hierarchy).isOk) ∧
    (∀ group ∈ sixHierarchy, ∀ group' ∈ hierarchy, group.blockId = group'.blockId →
      group'.nodeIds = group.nodeIds.erase ⟨"f"⟩) ∧
    ∀ groups layout groups' layout',
      layOut hashes config sixNodeIds sixHierarchy = .ok (groups, layout) →
      layOut hashes config (sixNodeIds.erase ⟨"f"⟩) hierarchy = .ok (groups', layout') →
      ∀ group ∈ groups, ∀ group' ∈ groups', group.blockId = group'.blockId →
        ⟨"f"⟩ ∉ group.nodeIds → group'.representatives = group.representatives :=
  ⟨by decide +kernel,
    Block.departure_local hashes config sixNodeIds ⟨"f"⟩ sixHierarchy hierarchy (by decide)
      (by decide) (by decide +kernel) (by decide +kernel) (by decide +kernel)⟩

end SampleHierarchy

end HeteroNetwork
