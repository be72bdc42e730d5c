import HeteroNetwork.ControlPlane.Topology.Hierarchy

/-!
# The hierarchy as a tree of blocks

A block is a digit sequence together with the members that it selects.  Its children are a function of the
block alone (`Block.children`), so the same block in two hierarchies has the same descendants.
-/

namespace HeteroNetwork

open List

@[ext] structure Block where
  digits : List (ℕ × ℕ)
  members : List NodeId
deriving DecidableEq

namespace Block

variable (hashes : TopologyHashes) (config : BoundedTopologyConfig)

def hashDepth (b : Block) : ℕ := b.digits.getLast?.elim 0 fun last => last.1 + 1

def extend (b : Block) (splitDepth : ℕ) (bucket : ℕ × List NodeId) : Block :=
  ⟨b.digits ++ [(splitDepth, bucket.1)], bucket.2⟩

def children (b : Block) : List Block :=
  if b.members.length ≤ config.blockSize then []
  else match findSplit hashes b.members b.hashDepth with
    | none => []
    | some (splitDepth, buckets) => buckets.map (b.extend splitDepth)

lemma children_cases (b : Block) :
    children hashes config b = [] ∨
      ∃ splitDepth buckets, config.blockSize < b.members.length ∧
        IsSplit hashes b.members splitDepth buckets ∧
        children hashes config b = buckets.map (b.extend splitDepth) := by
  unfold children
  split_ifs with hleaf
  · exact Or.inl rfl
  · split
    · exact Or.inl rfl
    · rename_i splitDepth buckets hsplit
      exact Or.inr ⟨splitDepth, buckets, not_le.mp hleaf, (isSplit_of_findSplit hsplit).1, rfl⟩

variable {hashes config} {b c d e : Block} {n : NodeId}

lemma mem_children (h : c ∈ children hashes config b) :
    c.members ≠ [] ∧ c.members.length < b.members.length ∧
      ∃ splitDepth digit, c.digits = b.digits ++ [(splitDepth, digit)] ∧
        c.members = b.members.filter fun n => hashes.hashPrefixDigit n splitDepth = digit := by
  rcases children_cases hashes config b with hnil | ⟨splitDepth, buckets, -, hsplit, hchildren⟩
  · rw [hnil] at h
    exact absurd h not_mem_nil
  · rw [hchildren, mem_map] at h
    obtain ⟨⟨digit, members⟩, hbucket, rfl⟩ := h
    exact ⟨hsplit.members_ne_nil hbucket, hsplit.members_length_lt hbucket, splitDepth, digit, rfl,
      hsplit.members_eq hbucket⟩

lemma length_lt_of_mem_children (h : c ∈ children hashes config b) :
    c.members.length < b.members.length := (mem_children h).2.1

variable (hashes config) in
/-- Induction over the tree below a block. -/
theorem tree_induction {motive : Block → Prop}
    (step : ∀ b, (∀ c ∈ children hashes config b, motive c) → motive b) (b : Block) : motive b := by
  induction hlength : b.members.length using Nat.strong_induction_on generalizing b with
  | _ length ih =>
    refine step b fun c hc => ih c.members.length ?_ c rfl
    rw [← hlength]
    exact length_lt_of_mem_children hc

lemma children_eq_of_mem (hc : c ∈ children hashes config b) (hd : d ∈ children hashes config b)
    (hnc : n ∈ c.members) (hnd : n ∈ d.members) : c = d := by
  rcases children_cases hashes config b with hnil | ⟨splitDepth, buckets, -, hsplit, hchildren⟩
  · rw [hnil] at hc
    exact absurd hc not_mem_nil
  · rw [hchildren, mem_map] at hc hd
    obtain ⟨⟨digit, members⟩, hbucket, rfl⟩ := hc
    obtain ⟨⟨digit', members'⟩, hbucket', rfl⟩ := hd
    simp only [extend] at hnc hnd ⊢
    obtain rfl := hsplit.members_eq hbucket
    obtain rfl := hsplit.members_eq hbucket'
    simp only [mem_filter, decide_eq_true_eq] at hnc hnd
    obtain rfl : digit = digit' := hnc.2.symm.trans hnd.2
    rfl

lemma exists_child_of_mem (hsplit : children hashes config b ≠ []) (hn : n ∈ b.members) :
    ∃ c ∈ children hashes config b, n ∈ c.members := by
  rcases children_cases hashes config b with hnil | ⟨splitDepth, buckets, -, hbuckets, hchildren⟩
  · exact absurd hnil hsplit
  · rw [hchildren]
    let members := b.members.filter fun m =>
      hashes.hashPrefixDigit m splitDepth = hashes.hashPrefixDigit n splitDepth
    have hmem : n ∈ members := by simp [members, hn]
    have hbucket : (hashes.hashPrefixDigit n splitDepth, members) ∈ buckets :=
      (hbuckets.mem_iff _ _).mpr ⟨rfl, ne_nil_of_mem hmem⟩
    exact ⟨_, mem_map.mpr ⟨_, hbucket, rfl⟩, hmem⟩

lemma mem_of_mem_child (hc : c ∈ children hashes config b) (hn : n ∈ c.members) : n ∈ b.members := by
  obtain ⟨-, -, _, _, -, hmembers⟩ := mem_children hc
  rw [hmembers] at hn
  exact mem_of_mem_filter hn

lemma two_le_children (h : children hashes config b ≠ []) : 2 ≤ (children hashes config b).length := by
  rcases children_cases hashes config b with hnil | ⟨_, buckets, -, hsplit, hchildren⟩
  · exact absurd hnil h
  · rw [hchildren, length_map]
    exact hsplit.two_le

variable (hashes config) in
lemma children_digits_nodup (b : Block) : ((children hashes config b).map digits).Nodup := by
  rcases children_cases hashes config b with hnil | ⟨splitDepth, buckets, -, hsplit, hchildren⟩
  · simp [hnil]
  · rw [hchildren, map_map, nodup_iff_pairwise_ne, pairwise_map]
    refine hsplit.ordered.imp fun {x y} hlt => ?_
    simp [extend, hlt.ne]

/-! ## Subtrees -/

variable (hashes config) in
def blocks (b : Block) : List Block :=
  b :: (children hashes config b).attach.flatMap fun c => blocks c.1
termination_by b.members.length
decreasing_by exact length_lt_of_mem_children c.2

variable (hashes config) in
def below (b : Block) : List Block := (children hashes config b).flatMap (blocks hashes config)

lemma blocks_eq (b : Block) : blocks hashes config b = b :: below hashes config b := by
  rw [blocks, below, flatMap_subtype (g := blocks hashes config) fun _ _ => rfl,
    unattach_attach]

@[simp] lemma mem_blocks : d ∈ blocks hashes config b ↔ d = b ∨ d ∈ below hashes config b := by
  rw [blocks_eq, mem_cons]

@[simp] lemma mem_below : d ∈ below hashes config b ↔
    ∃ c ∈ children hashes config b, d ∈ blocks hashes config c := mem_flatMap

lemma self_mem_blocks (b : Block) : b ∈ blocks hashes config b := mem_blocks.mpr (Or.inl rfl)

lemma digits_of_mem_blocks (h : d ∈ blocks hashes config b) : ∃ t, d.digits = b.digits ++ t := by
  induction b using tree_induction hashes config with
  | step b ih =>
    rcases mem_blocks.mp h with rfl | hbelow
    · exact ⟨[], by simp⟩
    · obtain ⟨c, hc, hd⟩ := mem_below.mp hbelow
      obtain ⟨t, ht⟩ := ih c hc hd
      obtain ⟨-, -, splitDepth, digit, hdigits, -⟩ := mem_children hc
      exact ⟨(splitDepth, digit) :: t, by rw [ht, hdigits]; simp⟩

lemma length_digits_lt (h : d ∈ below hashes config b) : b.digits.length < d.digits.length := by
  obtain ⟨c, hc, hd⟩ := mem_below.mp h
  obtain ⟨t, ht⟩ := digits_of_mem_blocks hd
  obtain ⟨-, -, splitDepth, digit, hdigits, -⟩ := mem_children hc
  rw [ht, hdigits]
  simp only [length_append, length_cons, length_nil]
  omega

lemma mem_of_mem_blocks (h : d ∈ blocks hashes config b) (hn : n ∈ d.members) : n ∈ b.members := by
  induction b using tree_induction hashes config with
  | step b ih =>
    rcases mem_blocks.mp h with rfl | hbelow
    · exact hn
    · obtain ⟨c, hc, hd⟩ := mem_below.mp hbelow
      exact mem_of_mem_child hc (ih c hc hd)

lemma blocks_trans (hd : d ∈ blocks hashes config c) (hc : c ∈ blocks hashes config b) :
    d ∈ blocks hashes config b := by
  induction b using tree_induction hashes config with
  | step b ih =>
    rcases mem_blocks.mp hc with rfl | hbelow
    · exact hd
    · obtain ⟨a, ha, hca⟩ := mem_below.mp hbelow
      exact mem_blocks.mpr (Or.inr (mem_below.mpr ⟨a, ha, ih a ha hca⟩))

lemma mem_blocks_of_mem_children (hc : c ∈ children hashes config b) : c ∈ blocks hashes config b :=
  mem_blocks.mpr (Or.inr (mem_below.mpr ⟨c, hc, self_mem_blocks c⟩))

lemma below_of_mem_blocks (hd : d ∈ blocks hashes config c) (hc : c ∈ below hashes config b) :
    d ∈ below hashes config b := by
  obtain ⟨a, ha, hca⟩ := mem_below.mp hc
  exact mem_below.mpr ⟨a, ha, blocks_trans hd hca⟩

lemma below_of_mem_children (hd : d ∈ children hashes config c) (hc : c ∈ blocks hashes config b) :
    d ∈ below hashes config b := by
  rcases mem_blocks.mp hc with rfl | hbelow
  · exact mem_below.mpr ⟨d, hd, self_mem_blocks d⟩
  · exact below_of_mem_blocks (mem_blocks_of_mem_children hd) hbelow

lemma exists_parent (h : d ∈ below hashes config b) :
    ∃ p ∈ blocks hashes config b, d ∈ children hashes config p := by
  induction b using tree_induction hashes config with
  | step b ih =>
    obtain ⟨c, hc, hd⟩ := mem_below.mp h
    rcases mem_blocks.mp hd with rfl | hbelow
    · exact ⟨b, self_mem_blocks b, hc⟩
    · obtain ⟨p, hp, hdp⟩ := ih c hc hbelow
      exact ⟨p, blocks_trans hp (mem_blocks_of_mem_children hc), hdp⟩

lemma members_ne_nil_of_mem_below (h : d ∈ below hashes config b) : d.members ≠ [] := by
  obtain ⟨p, -, hd⟩ := exists_parent h
  exact (mem_children hd).1

/-- **Blocks with a common member lie on one branch.** -/
lemma comparable_of_mem (hd : d ∈ blocks hashes config b) (he : e ∈ blocks hashes config b)
    (hnd : n ∈ d.members) (hne : n ∈ e.members) :
    d ∈ blocks hashes config e ∨ e ∈ below hashes config d := by
  induction b using tree_induction hashes config with
  | step b ih =>
    rcases mem_blocks.mp hd with rfl | hd
    · rcases mem_blocks.mp he with rfl | he
      · exact Or.inl (self_mem_blocks _)
      · exact Or.inr he
    · rcases mem_blocks.mp he with rfl | he
      · exact Or.inl (mem_blocks.mpr (Or.inr hd))
      · obtain ⟨c, hc, hdc⟩ := mem_below.mp hd
        obtain ⟨c', hc', hec⟩ := mem_below.mp he
        -- the member puts both in the subtree of the same child
        obtain rfl := children_eq_of_mem hc hc' (mem_of_mem_blocks hdc hnd)
          (mem_of_mem_blocks hec hne)
        exact ih c hc hdc hec

lemma digits_ne_of_children (hc : c ∈ children hashes config b) (hd : d ∈ children hashes config b)
    (hne : c.digits ≠ d.digits) {c' d' : Block} (hc' : c' ∈ blocks hashes config c)
    (hd' : d' ∈ blocks hashes config d) : c'.digits ≠ d'.digits := by
  obtain ⟨t, ht⟩ := digits_of_mem_blocks hc'
  obtain ⟨u, hu⟩ := digits_of_mem_blocks hd'
  obtain ⟨-, -, _, _, hcdigits, -⟩ := mem_children hc
  obtain ⟨-, -, _, _, hddigits, -⟩ := mem_children hd
  intro heq
  rw [ht, hu] at heq
  refine hne (append_inj_left heq ?_)
  rw [hcdigits, hddigits]
  simp

variable (hashes config) in
lemma digits_nodup (b : Block) : ((blocks hashes config b).map digits).Nodup := by
  induction b using tree_induction hashes config with
  | step b ih =>
    rw [blocks_eq, map_cons, nodup_cons]
    constructor
    · intro hmem
      obtain ⟨d, hd, hdigits⟩ := mem_map.mp hmem
      exact absurd (length_digits_lt hd) (by rw [hdigits]; exact lt_irrefl _)
    · rw [below, map_flatMap, nodup_flatMap]
      refine ⟨ih, ?_⟩
      have hdistinct := pairwise_map.mp (children_digits_nodup hashes config b)
      refine hdistinct.imp_of_mem fun {c d} hc hd hne => ?_
      simp only [Function.onFun, disjoint_left, mem_map]
      rintro digits ⟨c', hc', rfl⟩ ⟨d', hd', heq⟩
      exact digits_ne_of_children hc hd hne hc' hd' heq.symm

variable (hashes config) in
lemma blocks_nodup (b : Block) : (blocks hashes config b).Nodup :=
  (digits_nodup hashes config b).of_map _

variable (hashes config) in
lemma below_nodup (b : Block) : (below hashes config b).Nodup := by
  have h := blocks_nodup hashes config b
  rw [blocks_eq] at h
  exact h.of_cons

lemma eq_of_digits_eq (hd : d ∈ blocks hashes config b) (he : e ∈ blocks hashes config b)
    (h : d.digits = e.digits) : d = e :=
  inj_on_of_nodup_map (digits_nodup hashes config b) hd he h

variable (hashes) in
def Matches (digits : List (ℕ × ℕ)) (n : NodeId) : Prop :=
  ∀ p ∈ digits, hashes.hashPrefixDigit n p.1 = p.2

instance {digits : List (ℕ × ℕ)} : DecidablePred (Matches hashes digits) := fun n =>
  inferInstanceAs (Decidable (∀ p ∈ digits, hashes.hashPrefixDigit n p.1 = p.2))

lemma matches_append {s t : List (ℕ × ℕ)} :
    Matches hashes (s ++ t) n ↔ Matches hashes s n ∧ Matches hashes t n := by
  simp only [Matches, mem_append]
  constructor
  · intro h
    exact ⟨fun p hp => h p (Or.inl hp), fun p hp => h p (Or.inr hp)⟩
  · rintro ⟨hs, ht⟩ p (hp | hp)
    · exact hs p hp
    · exact ht p hp

/-- **A block holds exactly the nodes that agree with its digits.** -/
lemma mem_blocks_members {membership : List NodeId} (h : d ∈ blocks hashes config b)
    (hb : b.members = membership.filter fun n => Matches hashes b.digits n) :
    d.members = membership.filter fun n => Matches hashes d.digits n := by
  induction b using tree_induction hashes config with
  | step b ih =>
    rcases mem_blocks.mp h with rfl | hbelow
    · exact hb
    · obtain ⟨c, hc, hd⟩ := mem_below.mp hbelow
      refine ih c hc hd ?_
      obtain ⟨-, -, splitDepth, digit, hdigits, hmembers⟩ := mem_children hc
      rw [hmembers, hb, hdigits, filter_filter]
      apply filter_congr
      intro n _
      simp only [matches_append, Bool.decide_and]
      rw [Bool.and_comm]
      simp [Matches]

lemma sorted_of_mem_blocks (h : d ∈ blocks hashes config b) (hb : b.members.Pairwise (· ≤ ·)) :
    d.members.Pairwise (· ≤ ·) := by
  induction b using tree_induction hashes config with
  | step b ih =>
    rcases mem_blocks.mp h with rfl | hbelow
    · exact hb
    · obtain ⟨c, hc, hd⟩ := mem_below.mp hbelow
      obtain ⟨-, -, _, _, -, hmembers⟩ := mem_children hc
      exact ih c hc hd (hmembers ▸ hb.filter _)

/-! ## The code builds the subtree -/

variable (hashes) in
def groupId (digits : List (ℕ × ℕ)) : String :=
  if digits = [] then rootGroupId else hierarchyGroupId hashes digits

variable (hashes) in
def parentGroupId (digits : List (ℕ × ℕ)) : Option String :=
  if digits = [] then none else some (groupId hashes digits.dropLast)

@[simp] lemma groupId_concat (digits : List (ℕ × ℕ)) (p : ℕ × ℕ) :
    groupId hashes (digits ++ [p]) = hierarchyGroupId hashes (digits ++ [p]) := by
  simp [groupId]

@[simp] lemma parentGroupId_concat (digits : List (ℕ × ℕ)) (p : ℕ × ℕ) :
    parentGroupId hashes (digits ++ [p]) = some (groupId hashes digits) := by
  simp [parentGroupId]

variable (hashes config) in
/-- The group that stands for a block, before any representative is selected. -/
def toGroup (b : Block) : HierarchyGroup where
  blockId := groupId hashes b.digits
  nodeIds := b.members
  parentBlockId := parentGroupId hashes b.digits
  childBlockIds := (children hashes config b).map fun c => groupId hashes c.digits
  depth := b.digits.length
  representatives := []

variable (hashes config) in
def FullySplit (b : Block) : Prop :=
  ∀ d ∈ blocks hashes config b, config.blockSize < d.members.length → children hashes config d ≠ []

variable (hashes config) in
def build (b : Block) : Synthesis (List HierarchyGroup) :=
  buildHierarchyGroup hashes config b.members (parentGroupId hashes b.digits)
    (groupId hashes b.digits) b.digits.length b.hashDepth b.digits

section

variable (hsorted : b.members.Pairwise (· ≤ ·))
include hsorted

lemma build_leaf (hleaf : b.members.length ≤ config.blockSize) :
    build hashes config b = .ok [toGroup hashes config b] := by
  have hchildren : children hashes config b = [] := by simp [children, hleaf]
  unfold build
  rw [buildHierarchyGroup]
  simp only [hsorted.insertionSort_eq, hleaf, if_true, toGroup, hchildren, map_nil]

lemma build_large (hlarge : ¬b.members.length ≤ config.blockSize) :
    build hashes config b = if children hashes config b = [] then
        reject (.invariantViolation "hash-prefix hierarchy could not split an oversized leaf")
      else (children hashes config b).mapM (build hashes config) >>= fun subtrees =>
        .ok (toGroup hashes config b :: subtrees.flatten) := by
  conv_lhs => rw [build, buildHierarchyGroup]
  simp only [hsorted.insertionSort_eq, if_neg hlarge]
  split
  · rename_i hnone
    rw [hsorted.insertionSort_eq] at hnone
    rw [if_pos (by simp [children, hnone])]
  · rename_i splitDepth buckets hsplit
    rw [hsorted.insertionSort_eq] at hsplit
    have hchildren : children hashes config b = buckets.map (b.extend splitDepth) := by
      simp [children, hlarge, hsplit]
    have htwo := (isSplit_of_findSplit hsplit).1.two_le
    have hne : children hashes config b ≠ [] := by
      rw [hchildren]
      intro hnil
      simp [map_eq_nil_iff.mp hnil] at htwo
    have hcalls : build hashes config ∘ b.extend splitDepth = fun bucket =>
        buildHierarchyGroup hashes config bucket.2 (some (groupId hashes b.digits))
          (hierarchyGroupId hashes (b.digits ++ [(splitDepth, bucket.1)])) (b.digits.length + 1)
          (splitDepth + 1) (b.digits ++ [(splitDepth, bucket.1)]) := by
      funext bucket
      simp [build, extend, hashDepth]
    have hgroup : toGroup hashes config b =
        { blockId := groupId hashes b.digits, nodeIds := b.members,
          parentBlockId := parentGroupId hashes b.digits,
          childBlockIds := buckets.map fun bucket =>
            hierarchyGroupId hashes (b.digits ++ [(splitDepth, bucket.1)]),
          depth := b.digits.length, representatives := [] } := by
      simp [toGroup, hchildren, extend, Function.comp_def]
    have hattach : ∀ call : ℕ × List NodeId → Synthesis (List HierarchyGroup),
        buckets.mapM call = buckets.attach.mapM (call ∘ Subtype.val) := by
      intro call
      rw [← mapM_map, attach_map_subtype_val]
    rw [if_neg hne, hgroup, hchildren, mapM_map, hcalls, hattach]
    rfl

lemma build_split {groups : List HierarchyGroup}
    (hlarge : ¬b.members.length ≤ config.blockSize) (hbuild : build hashes config b = .ok groups) :
    children hashes config b ≠ [] ∧ ∃ subtrees,
      (children hashes config b).mapM (build hashes config) = .ok subtrees ∧
      groups = toGroup hashes config b :: subtrees.flatten := by
  rw [build_large hsorted hlarge] at hbuild
  split_ifs at hbuild with hnil
  · cases hbuild
  · obtain ⟨subtrees, hsubtrees, hgroups⟩ := Checked.bind_eq_ok.mp hbuild
    exact ⟨hnil, subtrees, hsubtrees, (Except.ok.inj hgroups).symm⟩

/-- **The list that the code builds is the subtree of the block, in preorder**, and it is built only
if every oversized block could be split. -/
theorem build_eq_ok {groups : List HierarchyGroup} (hbuild : build hashes config b = .ok groups) :
    groups = (blocks hashes config b).map (toGroup hashes config) ∧ FullySplit hashes config b := by
  induction b using tree_induction hashes config generalizing groups with
  | step b ih =>
    by_cases hleaf : b.members.length ≤ config.blockSize
    · have hbelow : below hashes config b = [] := by simp [below, children, hleaf]
      rw [build_leaf hsorted hleaf] at hbuild
      refine ⟨?_, ?_⟩
      · rw [blocks_eq, hbelow, ← Except.ok.inj hbuild]
        rfl
      · intro d hd hlarge
        rw [blocks_eq, hbelow, mem_singleton] at hd
        subst hd
        exact absurd hleaf (not_le.mpr hlarge)
    · obtain ⟨hchildren, subtrees, hsubtrees, rfl⟩ := build_split hsorted hleaf hbuild
      have hcalls := Checked.mapM_eq_ok.mp hsubtrees
      have hchild : ∀ c ∈ children hashes config b, ∃ groups,
          build hashes config c = .ok groups ∧
            groups = (blocks hashes config c).map (toGroup hashes config) ∧
            FullySplit hashes config c := by
        intro c hc
        obtain ⟨groups, -, hcall⟩ := mem_map.mp (hcalls ▸ mem_map_of_mem hc)
        have hsortedChild := sorted_of_mem_blocks (mem_blocks_of_mem_children hc) hsorted
        exact ⟨groups, hcall.symm, ih c hc hsortedChild hcall.symm⟩
      refine ⟨?_, ?_⟩
      · have hmap : subtrees.map (.ok : _ → Synthesis _) = ((children hashes config b).map fun c =>
            (blocks hashes config c).map (toGroup hashes config)).map .ok := by
          rw [← hcalls, map_map]
          refine map_congr_left fun c hc => ?_
          obtain ⟨groups, hcall, hgroups, -⟩ := hchild c hc
          rw [hcall, hgroups]
          rfl
        rw [map_injective_iff.mpr (fun _ _ => Except.ok.inj) hmap, blocks_eq, below,
          map_cons, map_flatMap, flatMap_def]
      · intro d hd hlarge
        rcases mem_blocks.mp hd with rfl | hbelow
        · exact hchildren
        · obtain ⟨c, hc, hdc⟩ := mem_below.mp hbelow
          obtain ⟨groups, -, -, hsplit⟩ := hchild c hc
          exact hsplit d hdc hlarge

end

/-! ## The hierarchy of a membership -/

def root (nodeIds : List NodeId) : Block := ⟨[], nodeIds.insertionSort (· ≤ ·)⟩

variable {nodeIds : List NodeId}

lemma mem_root : n ∈ (root nodeIds).members ↔ n ∈ nodeIds := mem_insertionSort _

lemma root_sorted (nodeIds : List NodeId) : (root nodeIds).members.Pairwise (· ≤ ·) :=
  pairwise_insertionSort _ _

lemma nodup_of_mem_blocks (hnodup : nodeIds.Nodup) (h : d ∈ blocks hashes config (root nodeIds)) :
    d.members.Nodup := by
  have hroot : (root nodeIds).members =
      (root nodeIds).members.filter fun n => Matches hashes (root nodeIds).digits n := by
    simp [root, Matches]
  rw [mem_blocks_members h hroot]
  exact ((perm_insertionSort _ _).nodup_iff.mpr hnodup).filter _

variable (hashes config) in
/-- The blocks of a membership in the order that `build_hierarchy` returns them. -/
def inOrder (nodeIds : List NodeId) : List Block :=
  (blocks hashes config (root nodeIds)).insertionSort fun b c =>
    depthThenId (toGroup hashes config b) (toGroup hashes config c)

lemma inOrder_perm : (inOrder hashes config nodeIds).Perm (blocks hashes config (root nodeIds)) :=
  perm_insertionSort _ _

lemma mem_inOrder : d ∈ inOrder hashes config nodeIds ↔ d ∈ blocks hashes config (root nodeIds) :=
  inOrder_perm.mem_iff

lemma inOrder_nodup : (inOrder hashes config nodeIds).Nodup :=
  inOrder_perm.nodup_iff.mpr (blocks_nodup hashes config _)

lemma build_root :
    build hashes config (root nodeIds) =
      buildHierarchyGroup hashes config nodeIds none rootGroupId 0 0 [] := by
  show buildHierarchyGroup hashes config (nodeIds.insertionSort (· ≤ ·)) none rootGroupId 0 0 [] = _
  rw [buildHierarchyGroup, buildHierarchyGroup]
  generalize hsort : (nodeIds.insertionSort (· ≤ ·)).insertionSort (· ≤ ·) = sorted
  obtain rfl : nodeIds.insertionSort (· ≤ ·) = sorted := by
    rw [← hsort, (pairwise_insertionSort _ nodeIds).insertionSort_eq]
  rfl

/-- **The hierarchy that the code returns is the tree of blocks of its membership.** -/
theorem buildHierarchy_eq_ok {hierarchy : List HierarchyGroup} (hne : nodeIds ≠ [])
    (hbuild : buildHierarchy hashes config nodeIds = .ok hierarchy) :
    hierarchy = (inOrder hashes config nodeIds).map (toGroup hashes config) ∧
      FullySplit hashes config (root nodeIds) := by
  rw [buildHierarchy, if_neg hne] at hbuild
  obtain ⟨groups, hgroups, hsort⟩ := Checked.bind_eq_ok.mp hbuild
  obtain ⟨rfl, hsplit⟩ := build_eq_ok (root_sorted nodeIds) (build_root.trans hgroups)
  refine ⟨?_, hsplit⟩
  rw [← Except.ok.inj hsort, inOrder]
  exact (map_insertionSort _ depthThenId (toGroup hashes config) _
    fun _ _ _ _ => Iff.rfl).symm

variable (hashes config) in
/-- The digit sequences that `build_hierarchy` hands to `hierarchy_group_id`. -/
def groupPrefixes (nodeIds : List NodeId) : List (List (ℕ × ℕ)) :=
  (below hashes config (root nodeIds)).map digits

variable (hashes) in
/-- `hierarchy_group_id` gives distinct ids to distinct ones among these digit sequences. -/
def DistinctGroupIds (sequences : List (List (ℕ × ℕ))) : Prop :=
  ∀ s ∈ sequences, ∀ t ∈ sequences, hierarchyGroupId hashes s = hierarchyGroupId hashes t → s = t

instance {sequences : List (List (ℕ × ℕ))} : Decidable (DistinctGroupIds hashes sequences) :=
  inferInstanceAs (Decidable (∀ s ∈ sequences, ∀ t ∈ sequences,
    hierarchyGroupId hashes s = hierarchyGroupId hashes t → s = t))

lemma digits_cases (h : d ∈ blocks hashes config (root nodeIds)) :
    d.digits = [] ∧ d = root nodeIds ∨
      d.digits ≠ [] ∧ d ∈ below hashes config (root nodeIds) ∧
        d.digits ∈ groupPrefixes hashes config nodeIds := by
  rcases mem_blocks.mp h with rfl | hbelow
  · exact Or.inl ⟨rfl, rfl⟩
  · refine Or.inr ⟨?_, hbelow, mem_map.mpr ⟨d, hbelow, rfl⟩⟩
    intro hnil
    have hlt := length_digits_lt hbelow
    rw [hnil] at hlt
    exact absurd hlt (Nat.not_lt_zero _)

lemma digits_eq_of_groupId {sequences : List (List (ℕ × ℕ))}
    (hids : DistinctGroupIds hashes sequences) {s t : List (ℕ × ℕ)}
    (hs : s ≠ [] → s ∈ sequences) (ht : t ≠ [] → t ∈ sequences)
    (h : groupId hashes s = groupId hashes t) : s = t := by
  unfold groupId at h
  split_ifs at h with hsnil htnil htnil
  · rw [hsnil, htnil]
  · exact absurd h.symm (hierarchyGroupId_ne_root hashes t)
  · exact absurd h (hierarchyGroupId_ne_root hashes s)
  · exact hids s (hs hsnil) t (ht htnil) h

lemma digits_mem_groupPrefixes (h : d ∈ blocks hashes config (root nodeIds))
    (hne : d.digits ≠ []) : d.digits ∈ groupPrefixes hashes config nodeIds := by
  rcases digits_cases h with ⟨hnil, -⟩ | ⟨-, -, hmem⟩
  · exact absurd hnil hne
  · exact hmem

lemma eq_of_groupId_eq (hids : DistinctGroupIds hashes (groupPrefixes hashes config nodeIds))
    (hd : d ∈ blocks hashes config (root nodeIds)) (he : e ∈ blocks hashes config (root nodeIds))
    (h : groupId hashes d.digits = groupId hashes e.digits) : d = e :=
  eq_of_digits_eq hd he (digits_eq_of_groupId hids (digits_mem_groupPrefixes hd)
    (digits_mem_groupPrefixes he) h)

end Block

end HeteroNetwork
