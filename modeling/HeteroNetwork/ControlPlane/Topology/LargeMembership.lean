import HeteroNetwork.ControlPlane.Topology.Synthesis

/-!
# Backbones of any size

There is a backbone for every number of nodes up to `64 ^ 6`: six letters out of sixty-four name a node, and
the digits that the hierarchy goes by are its letters, again and again.
-/

namespace HeteroNetwork

open List Block

/-! ## Numbers by their digits -/

lemma eq_of_digits (base width : ℕ) {a b : ℕ} (ha : a < base ^ width) (hb : b < base ^ width)
    (h : ∀ i < width, a / base ^ i % base = b / base ^ i % base) : a = b := by
  induction width generalizing a b with
  | zero =>
    rw [pow_zero] at ha hb
    omega
  | succ width ih =>
    have hlow : a % base = b % base := by simpa using h 0 (Nat.succ_pos _)
    have hhigh : a / base = b / base := by
      rw [pow_succ'] at ha hb
      refine ih (Nat.div_lt_of_lt_mul ha) (Nat.div_lt_of_lt_mul hb) fun i hi => ?_
      have hdigit := h (i + 1) (by omega)
      rwa [pow_succ', ← Nat.div_div_eq_div_mul, ← Nat.div_div_eq_div_mul] at hdigit
    rw [← Nat.div_add_mod a base, ← Nat.div_add_mod b base, hlow, hhigh]

lemma hexDigit_inj {a b : ℕ} (h : hexDigit a = hexDigit b) : a % 16 = b % 16 := by
  have hall : ∀ i j : Fin 16, "0123456789abcdef".toList.getD i '0' =
      "0123456789abcdef".toList.getD j '0' → i = j := by decide
  have hfin := hall ⟨a % 16, Nat.mod_lt _ (by omega)⟩ ⟨b % 16, Nat.mod_lt _ (by omega)⟩ h
  exact congrArg Fin.val hfin

lemma hex16_injective : Function.Injective hex16 := by
  intro m n h
  have hlist := String.ofList_injective h
  refine UInt64.toNat_inj.mp (eq_of_digits 16 16 ?_ ?_ fun i hi => ?_)
  · exact m.toNat_lt
  · exact n.toNat_lt
  · have hdigit := map_inj_left.mp hlist (15 - i) (mem_range.mpr (by omega))
    have hindex : 15 - (15 - i) = i := by omega
    rw [hindex] at hdigit
    exact hexDigit_inj hdigit

/-! ## What it takes to build a hierarchy -/

namespace Block

variable {hashes hashes' : TopologyHashes} {config : BoundedTopologyConfig} {b c d : Block}
  {nodeIds : List NodeId}

variable (config) in
lemma blocks_congr (h : hashes.hashPrefixDigit = hashes'.hashPrefixDigit) (b : Block) :
    blocks hashes config b = blocks hashes' config b := by
  have hchildren : ∀ b, children hashes config b = children hashes' config b := by
    intro b
    have hbuckets : bucketsAt hashes = bucketsAt hashes' := by
      funext nodeIds probe
      rw [bucketsAt, bucketsAt, h]
    rw [children, children, findSplit, findSplit, hbuckets]
  induction b using tree_induction hashes config with
  | step b ih =>
    rw [blocks_eq, blocks_eq, below, below, ← hchildren]
    congr 1
    rw [flatMap_def, flatMap_def, map_congr_left ih]

lemma groupPrefixes_congr (h : hashes.hashPrefixDigit = hashes'.hashPrefixDigit) :
    groupPrefixes hashes config nodeIds = groupPrefixes hashes' config nodeIds := by
  have hblocks := blocks_congr config h (root nodeIds)
  rw [blocks_eq, blocks_eq] at hblocks
  rw [groupPrefixes, groupPrefixes, (List.cons.inj hblocks).2]

variable (hashes config) in
lemma length_blocks_lt (hnodup : b.members.Nodup) (hne : b.members ≠ []) :
    (blocks hashes config b).length < 2 * b.members.length := by
  induction b using tree_induction hashes config with
  | step b ih =>
    have hpos := length_pos_iff.mpr hne
    rw [blocks_eq, length_cons, below, length_flatMap]
    by_cases hleaf : children hashes config b = []
    · rw [hleaf, map_nil, sum_nil]
      omega
    · have hmembers : ∀ c ∈ children hashes config b, c.members.Nodup := by
        intro c hc
        obtain ⟨-, -, _, _, -, hfilter⟩ := mem_children hc
        exact hfilter ▸ hnodup.filter _
      -- the children share the members out
      have hshare : ((children hashes config b).map fun c => c.members.length).sum ≤
          b.members.length := by
        have hdistinct : ((children hashes config b).flatMap members).Nodup := by
          refine nodup_flatMap.mpr ⟨hmembers, ?_⟩
          have hdigits := (children_digits_nodup hashes config b).of_map
          refine (nodup_iff_pairwise_ne.mp hdigits).imp_of_mem fun {c d} hc hd hcd => ?_
          exact disjoint_left.mpr fun n hnc hnd => hcd (children_eq_of_mem hc hd hnc hnd)
        rw [← length_flatMap]
        refine (subperm_of_subset hdistinct fun n hn => ?_).length_le
        obtain ⟨c, hc, hnc⟩ := mem_flatMap.mp hn
        exact mem_of_mem_child hc hnc
      have htwo := two_le_children hleaf
      have hsum : ((children hashes config b).map fun c => (blocks hashes config c).length + 1).sum ≤
          ((children hashes config b).map fun c => 2 * c.members.length).sum :=
        sum_le_sum fun c hc => ih c hc (hmembers c hc) (mem_children hc).1
      rw [sum_map_add, map_const', sum_replicate, sum_map_mul_left] at hsum
      simp only [smul_eq_mul, mul_one] at hsum
      omega

/-- A hierarchy whose blocks can be split is built. -/
theorem build_of_fullySplit (hsorted : b.members.Pairwise (· ≤ ·))
    (hsplit : FullySplit hashes config b) : ∃ groups, build hashes config b = .ok groups := by
  induction b using tree_induction hashes config with
  | step b ih =>
    by_cases hleaf : b.members.length ≤ config.blockSize
    · exact ⟨_, build_leaf hsorted hleaf⟩
    · have hne := hsplit b (self_mem_blocks b) (not_le.mp hleaf)
      have hbelow : ∀ c ∈ children hashes config b, ∃ groups, build hashes config c = .ok groups := by
        intro c hc
        have hmem := mem_blocks_of_mem_children hc
        exact ih c hc (sorted_of_mem_blocks hmem hsorted) fun d hd => hsplit d (blocks_trans hd hmem)
      choose! groups hgroups using hbelow
      have hmap : (children hashes config b).mapM (build hashes config) =
          .ok ((children hashes config b).map groups) := by
        rw [Checked.mapM_eq_ok, map_map]
        exact map_congr_left hgroups
      rw [build_large hsorted hleaf, if_neg hne, hmap]
      exact ⟨_, rfl⟩

lemma hashDepth_le (h : c ∈ children hashes config b) :
    c.hashDepth ≤ b.hashDepth + maxHashPrefixProbes := by
  rw [children] at h
  split_ifs at h
  · cases h
  · split at h
    · cases h
    · rename_i splitDepth buckets hsplit
      obtain ⟨bucket, -, rfl⟩ := mem_map.mp h
      obtain ⟨probe, hprobe, hfound⟩ := exists_of_findSome?_eq_some hsplit
      obtain ⟨-, heq⟩ := Option.ite_none_right_eq_some.mp hfound
      obtain ⟨rfl, -⟩ := Prod.mk.inj (Option.some.inj heq)
      have hrange := (mem_range'_1.mp hprobe).2
      simp only [extend, hashDepth, getLast?_append, getLast?_singleton, Option.some_or,
        Option.elim_some] at hrange ⊢
      omega

lemma hashDepth_add_le (h : d ∈ blocks hashes config b) :
    d.hashDepth + maxHashPrefixProbes * d.members.length ≤
      b.hashDepth + maxHashPrefixProbes * b.members.length := by
  induction b using tree_induction hashes config with
  | step b ih =>
    rcases mem_blocks.mp h with rfl | hbelow
    · exact le_refl _
    · obtain ⟨c, hc, hd⟩ := mem_below.mp hbelow
      refine (ih c hc hd).trans ?_
      have hdepth := hashDepth_le hc
      have hless := length_lt_of_mem_children hc
      simp only [maxHashPrefixProbes] at hdepth ⊢
      omega

lemma children_ne_nil (probe : ℕ) {m n : NodeId} (hlarge : config.blockSize < b.members.length)
    (hm : m ∈ b.members) (hn : n ∈ b.members) (hlow : b.hashDepth ≤ probe)
    (hhigh : probe < b.hashDepth + maxHashPrefixProbes) (husize : probe < usizeMax)
    (hne : hashes.hashPrefixDigit m probe ≠ hashes.hashPrefixDigit n probe) :
    children hashes config b ≠ [] := by
  have hbucket : ∀ x ∈ b.members, hashes.hashPrefixDigit x probe ∈ bucketsAt hashes b.members probe := by
    intro x hx
    rw [Std.TreeMap.mem_iff_isSome_getElem?, bucketsAt_getElem?]
    have hmem : x ∈ b.members.filter fun y =>
        hashes.hashPrefixDigit y probe = hashes.hashPrefixDigit x probe := by simp [hx]
    split
    · rename_i hnil
      rw [hnil] at hmem
      cases hmem
    · rfl
  have htwo : 1 < (bucketsAt hashes b.members probe).size := by
    rw [← Std.TreeMap.length_keys]
    have hpair : [hashes.hashPrefixDigit m probe, hashes.hashPrefixDigit n probe].Nodup := by
      simpa using hne
    refine (subperm_of_subset hpair fun digit hdigit => ?_).length_le
    rw [Std.TreeMap.mem_keys]
    rcases mem_cons.mp hdigit with rfl | hdigit
    · exact hbucket m hm
    · rw [mem_singleton.mp hdigit]
      exact hbucket n hn
  cases hfind : findSplit hashes b.members b.hashDepth with
  | none =>
    have hnone := findSome?_eq_none_iff.mp hfind probe
      (mem_range'_1.mpr ⟨hlow, by omega⟩)
    rw [if_pos htwo] at hnone
    cases hnone
  | some split =>
    have hsplit := (isSplit_of_findSplit hfind).1.two_le
    simp only [children, not_le.mpr hlarge, hfind, if_false]
    intro hnil
    rw [map_eq_nil_iff.mp hnil] at hsplit
    cases hsplit

end Block

/-! ## Nodes of six letters -/

namespace LargeMembership

def letter (k : ℕ) : Char := Char.ofNat (48 + k % 64)

def node (k : ℕ) : NodeId := ⟨String.ofList ((List.range 6).map fun i => letter (k / 64 ^ i))⟩

def config : BoundedTopologyConfig := { maxDegree := 4, blockSize := 64, permutationSeed := "seed" }

/-- The digits go by the letters, again and again. -/
def hashPrefixDigit (n : NodeId) (depth : ℕ) : ℕ :=
  ((n.asStr.toList.getD (depth % 6) '0').toNat - 48) % config.blockSize

def byDigit : TopologyHashes where
  hashPrefixDigit := hashPrefixDigit
  hierarchyGroupHash _ := 0
  representativeScore _ _ _ := 0
  topologyEpoch _ := 0

/-- The group hashes count the groups of a membership through. -/
def hashes (nodeIds : List NodeId) : TopologyHashes :=
  { byDigit with hierarchyGroupHash := fun digits =>
      UInt64.ofNat ((Block.groupPrefixes byDigit config nodeIds).idxOf digits) }

def nodes (count : ℕ) : List NodeRecord := (List.range count).map fun k => SampleHierarchy.record (node k)

lemma accepted : config.Accepted := ⟨by decide, by decide, by decide⟩

lemma letter_toNat (k : ℕ) : (letter k).toNat - 48 = k % 64 := by
  have hall : ∀ i : Fin 64, (Char.ofNat (48 + i.val)).toNat - 48 = i.val := by decide
  exact hall ⟨k % 64, Nat.mod_lt _ (by omega)⟩

lemma hashPrefixDigit_node (k depth : ℕ) :
    hashPrefixDigit (node k) depth = k / 64 ^ (depth % 6) % 64 := by
  have hlt : depth % 6 < 6 := Nat.mod_lt _ (by omega)
  rw [hashPrefixDigit, node, String.toList_ofList, getD_eq_getElem _ _ (by simpa using hlt),
    getElem_map, getElem_range, letter_toNat]
  exact Nat.mod_mod _ _

lemma exists_digit_ne {k l : ℕ} (hk : k < 64 ^ 6) (hl : l < 64 ^ 6) (hne : k ≠ l) :
    ∃ i < 6, ∀ depth, depth % 6 = i →
      hashPrefixDigit (node k) depth ≠ hashPrefixDigit (node l) depth := by
  by_contra hnone
  push Not at hnone
  refine hne (eq_of_digits 64 6 hk hl fun i hi => ?_)
  obtain ⟨depth, hdepth, heq⟩ := hnone i hi
  rwa [hashPrefixDigit_node, hashPrefixDigit_node, hdepth] at heq

variable {count : ℕ}

lemma node_injOn {k l : ℕ} (hk : k < 64 ^ 6) (hl : l < 64 ^ 6) (h : node k = node l) : k = l := by
  by_contra hne
  obtain ⟨i, hi, hdigits⟩ := exists_digit_ne hk hl hne
  exact hdigits i (Nat.mod_eq_of_lt hi) (by rw [h])

lemma nodup_nodes (hcount : count ≤ 64 ^ 6) : ((nodes count).map (·.nodeId)).Nodup := by
  rw [nodes, map_map]
  refine nodup_range.map_on fun k hk l hl heq => ?_
  rw [mem_range] at hk hl
  exact node_injOn (hk.trans_le hcount) (hl.trans_le hcount) heq

lemma fullySplit (hcount : count ≤ 64 ^ 6) :
    FullySplit (hashes (sortedNodeIds (nodes count))) config
      (root (sortedNodeIds (nodes count))) := by
  intro d hd hlarge
  have hnodup := nodup_of_mem_blocks
    ((sortedNodeIds_perm _).nodup_iff.mpr (nodup_nodes hcount)) hd
  have hnode : ∀ n ∈ d.members, ∃ k < 64 ^ 6, n = node k := by
    intro n hn
    have hmem := (sortedNodeIds_perm _).mem_iff.mp (mem_root.mp (mem_of_mem_blocks hd hn))
    rw [nodes, map_map] at hmem
    obtain ⟨k, hk, rfl⟩ := mem_map.mp hmem
    exact ⟨k, (mem_range.mp hk).trans_le hcount, rfl⟩
  have hlength : 1 < d.members.length := by
    have : config.blockSize = 64 := rfl
    omega
  obtain ⟨m, hm, n, hn, hne⟩ : ∃ m ∈ d.members, ∃ n ∈ d.members, m ≠ n := by
    refine ⟨d.members[0], getElem_mem _, d.members[1], getElem_mem _, fun heq => ?_⟩
    exact absurd (hnodup.getElem_inj_iff.mp heq) (by omega)
  obtain ⟨k, hk, rfl⟩ := hnode m hm
  obtain ⟨l, hl, rfl⟩ := hnode n hn
  obtain ⟨i, hi, hdigits⟩ := exists_digit_ne hk hl fun heq => hne (by rw [heq])
  have hdepth := hashDepth_add_le hd
  have hroot : (root (sortedNodeIds (nodes count))).members.length ≤ 64 ^ 6 := by
    rw [root, length_insertionSort, (sortedNodeIds_perm _).length_eq, nodes]
    simpa using hcount
  have hstart : (root (sortedNodeIds (nodes count))).hashDepth = 0 := rfl
  rw [hstart] at hdepth
  -- the letter comes up within six probes
  have hprobe : (d.hashDepth + (i + 6 - d.hashDepth % 6) % 6) % 6 = i := by omega
  simp only [maxHashPrefixProbes] at hdepth
  refine children_ne_nil (d.hashDepth + (i + 6 - d.hashDepth % 6) % 6) hlarge hm hn (by omega)
    (by simp only [maxHashPrefixProbes]; omega) (by simp only [usizeMax]; omega)
    (hdigits _ hprobe)

lemma distinctGroupIds (hcount : count ≤ 64 ^ 6) :
    DistinctGroupIds (hashes (sortedNodeIds (nodes count)))
      (groupPrefixes (hashes (sortedNodeIds (nodes count))) config
        (sortedNodeIds (nodes count))) := by
  generalize hids : sortedNodeIds (nodes count) = nodeIds
  have hnodup : nodeIds.Nodup := hids ▸ (sortedNodeIds_perm _).nodup_iff.mpr (nodup_nodes hcount)
  have hlength : nodeIds.length ≤ 64 ^ 6 := by
    rw [← hids, (sortedNodeIds_perm _).length_eq, nodes]
    simpa using hcount
  by_cases hne : nodeIds = []
  · subst hne
    exact fun s hs => by simp [groupPrefixes, root, below, children] at hs
  have hcongr : groupPrefixes (hashes nodeIds) config nodeIds =
      groupPrefixes byDigit config nodeIds := groupPrefixes_congr rfl
  have hfew : (groupPrefixes byDigit config nodeIds).length < 2 ^ 64 := by
    have hroot := (perm_insertionSort (· ≤ ·) nodeIds).nodup_iff.mpr hnodup
    have hblocks := length_blocks_lt byDigit config (b := root nodeIds) hroot (by
        intro hnil
        exact hne (length_eq_zero_iff.mp (by
          rw [← length_insertionSort (· ≤ ·) nodeIds, length_eq_zero_iff]
          exact hnil)))
    rw [blocks_eq, length_cons, root, length_insertionSort] at hblocks
    rw [groupPrefixes, length_map, root]
    omega
  rw [hcongr]
  intro s hs u hu heq
  have hhex : hex16 ((hashes nodeIds).hierarchyGroupHash s) =
      hex16 ((hashes nodeIds).hierarchyGroupHash u) := by
    simpa [hierarchyGroupId] using heq
  have hposition := congrArg UInt64.toNat (hex16_injective hhex)
  have hs' := idxOf_lt_length_iff.mpr hs
  have hu' := idxOf_lt_length_iff.mpr hu
  simp only [hashes, UInt64.toNat_ofNat', Nat.mod_eq_of_lt (hs'.trans hfew),
    Nat.mod_eq_of_lt (hu'.trans hfew)] at hposition
  exact (idxOf_inj hs).mp hposition

/-- **There is a backbone of every size up to `64 ^ 6`.** -/
theorem exists_topology (count : ℕ) (hcount : count ≤ 64 ^ 6) :
    ∃ t, synthesize (hashes (sortedNodeIds (nodes count))) (nodes count) config = .ok t := by
  have hnodup := nodup_nodes hcount
  have hsorted := (sortedNodeIds_perm (nodes count)).nodup_iff.mpr hnodup
  obtain ⟨hierarchy, hbuild⟩ : ∃ hierarchy, buildHierarchy (hashes (sortedNodeIds (nodes count)))
      config (sortedNodeIds (nodes count)) = .ok hierarchy := by
    rw [buildHierarchy]
    split_ifs
    · exact ⟨_, rfl⟩
    · obtain ⟨groups, hgroups⟩ := build_of_fullySplit (root_sorted _) (fullySplit hcount)
      rw [build_root] at hgroups
      rw [hgroups]
      exact ⟨_, rfl⟩
  obtain ⟨groups, layout, hlayOut, hwired⟩ :=
    exists_wired accepted hsorted hbuild (distinctGroupIds hcount)
  have hok := synthesize_of_wired accepted (canonicalNodeIds_of_nodup hnodup) hbuild hlayOut
    hwired
  cases hsynthesize : synthesize (hashes (sortedNodeIds (nodes count))) (nodes count) config with
  | ok t => exact ⟨t, rfl⟩
  | error e =>
    rw [hsynthesize] at hok
    cases hok

end LargeMembership

end HeteroNetwork
