import HeteroNetwork.ControlPlane.Topology.Blocks
import HeteroNetwork.ControlPlane.Topology.AdjacencyGraph

/-!
# Representatives never run out

Each block below the root promises two links of its members to its parent, a choice that depends on its own
subtree only (`Chosen`).  A leaf has four spare links before its own choice, and an internal block gets two
from each of its children.  So every block finds four and leaves two (`two_le_spare`).
-/

namespace HeteroNetwork

open List

/-! ## One selection -/

section Selection

variable {hashes : TopologyHashes} {config : BoundedTopologyConfig} {id : String}
  {candidates : List NodeId} {load : NodeId → ℕ} {n : NodeId}

lemma maxByKey_mem {α β : Type} [LE β] [DecidableLE β] {key : α → β} {l : List α} {a : α}
    (h : maxByKey key l = some a) : a ∈ l := by
  cases l with
  | nil => simp [maxByKey] at h
  | cons b rest =>
    obtain rfl := Option.some.inj h
    clear h
    induction rest generalizing b with
    | nil => simp
    | cons c rest ih =>
      have hstep := ih (if key b ≤ key c then c else b)
      rw [foldl_cons]
      rcases mem_cons.mp hstep with heq | hmem
      · rw [heq]
        split_ifs <;> simp
      · simp [hmem]

lemma exists_maxByKey {α β : Type} [LE β] [DecidableLE β] (key : α → β) {l : List α}
    (h : l ≠ []) : ∃ a, maxByKey key l = some a := by
  obtain ⟨b, rest, rfl⟩ := exists_cons_of_ne_nil h
  exact ⟨_, rfl⟩

lemma mem_admissible {selected : List TopologyRepresentative} :
    n ∈ admissible config candidates 1 load selected ↔
      n ∈ candidates ∧ (∀ r ∈ selected, r.nodeId ≠ n) ∧ load n + 1 ≤ config.maxDegree := by
  simp [admissible]

lemma selectForPlane_eq_ok {selected reps : List TopologyRepresentative} {plane : ℕ}
    (h : selectForPlane hashes config id candidates 1 load selected plane = .ok reps) :
    ∃ n ∈ candidates, (∀ r ∈ selected, r.nodeId ≠ n) ∧ load n + 1 ≤ config.maxDegree ∧
      reps = selected ++ [⟨n, plane⟩] := by
  unfold selectForPlane at h
  split at h
  · rename_i n hmax
    obtain ⟨hn, hfresh, hload⟩ := mem_admissible.mp (maxByKey_mem hmax)
    exact ⟨n, hn, hfresh, hload, (Except.ok.inj h).symm⟩
  · exact absurd h (by simp [reject])

variable (hashes id) in
lemma exists_selectForPlane {selected : List TopologyRepresentative} (plane : ℕ)
    (hn : n ∈ admissible config candidates 1 load selected) :
    ∃ reps, selectForPlane hashes config id candidates 1 load selected plane = .ok reps := by
  obtain ⟨m, hm⟩ := exists_maxByKey (scoreThenId hashes id plane) (ne_nil_of_mem hn)
  unfold selectForPlane
  rw [hm]
  exact ⟨_, rfl⟩

lemma selectGroupRepresentatives_eq_ok {reps : List TopologyRepresentative}
    (h : selectGroupRepresentatives hashes config id candidates 1 load = .ok reps) :
    ∃ entry ∈ candidates, ∃ exit ∈ candidates, reps = [⟨entry, 0⟩, ⟨exit, 1⟩] ∧
      (candidates = [entry] ∧ entry = exit ∧ load entry + 2 ≤ config.maxDegree ∨
        entry ≠ exit ∧ load entry + 1 ≤ config.maxDegree ∧ load exit + 1 ≤ config.maxDegree) := by
  unfold selectGroupRepresentatives at h
  split at h
  · rename_i n
    split_ifs at h with hfull
    · exact absurd h (by simp [reject])
    · exact ⟨n, by simp, n, by simp, (Except.ok.inj h).symm, Or.inl ⟨rfl, rfl, by omega⟩⟩
  · simp only [foldlM_cons, foldlM_nil, Checked.bind_eq_ok] at h
    obtain ⟨first, hfirst, second, hsecond, hreps⟩ := h
    obtain ⟨entry, hentry, -, hentryLoad, rfl⟩ := selectForPlane_eq_ok hfirst
    obtain ⟨exit, hexit, hfresh, hexitLoad, rfl⟩ := selectForPlane_eq_ok hsecond
    exact ⟨entry, hentry, exit, hexit, (Except.ok.inj hreps).symm,
      Or.inr ⟨hfresh ⟨entry, 0⟩ (by simp), hentryLoad, hexitLoad⟩⟩

lemma exists_selectGroupRepresentatives
    (h : (∃ n, candidates = [n] ∧ load n + 2 ≤ config.maxDegree) ∨
      ∃ a ∈ candidates, ∃ b ∈ candidates, a ≠ b ∧ load a + 1 ≤ config.maxDegree ∧
        load b + 1 ≤ config.maxDegree) :
    ∃ reps, selectGroupRepresentatives hashes config id candidates 1 load = .ok reps := by
  unfold selectGroupRepresentatives
  rcases h with ⟨n, rfl, hload⟩ | ⟨a, ha, b, hb, hne, hloadA, hloadB⟩
  · simp only [Nat.not_lt.mpr hload, if_false]
    exact ⟨_, rfl⟩
  · split
    · rename_i n
      exact absurd ((mem_singleton.mp ha).trans (mem_singleton.mp hb).symm) hne
    · obtain ⟨first, hfirst⟩ := exists_selectForPlane hashes id 0
        (mem_admissible.mpr ⟨ha, forall_mem_nil _, hloadA⟩)
      obtain ⟨entry, -, -, -, rfl⟩ := selectForPlane_eq_ok hfirst
      -- whoever was selected first, one of the two is still there
      obtain ⟨c, hc⟩ : ∃ c, c ∈ admissible config candidates 1 load ([] ++ [⟨entry, 0⟩]) := by
        by_cases hentry : entry = a
        · exact ⟨b, mem_admissible.mpr ⟨hb, by simpa [hentry] using hne, hloadB⟩⟩
        · exact ⟨a, mem_admissible.mpr ⟨ha, by simpa using hentry, hloadA⟩⟩
      obtain ⟨second, hsecond⟩ := exists_selectForPlane hashes id 1 hc
      refine ⟨second, ?_⟩
      simp only [foldlM_cons, foldlM_nil, Checked.bind_eq_ok]
      exact ⟨_, hfirst, _, hsecond, rfl⟩

lemma selectGroupRepresentatives_congr {other : NodeId → ℕ} (h : ∀ n ∈ candidates, load n = other n) :
    selectGroupRepresentatives hashes config id candidates 1 load =
      selectGroupRepresentatives hashes config id candidates 1 other := by
  have hplane : selectForPlane hashes config id candidates 1 load =
      selectForPlane hashes config id candidates 1 other := by
    funext selected plane
    have hfilter : admissible config candidates 1 load selected =
        admissible config candidates 1 other selected :=
      filter_congr fun n hn => by rw [h n hn]
    rw [selectForPlane, hfilter]
    rfl
  unfold selectGroupRepresentatives
  split
  · rw [h _ (by simp)]
  · rw [hplane]

end Selection

/-! ## Promises within a subtree -/

namespace Block

variable (hashes : TopologyHashes) (config : BoundedTopologyConfig) (adjacency : Adjacency)
  (ports : Block → List TopologyRepresentative)

def promised (s : Finset Block) (n : NodeId) : ℕ :=
  ∑ d ∈ s, (ports d).countP (·.nodeId = n)

/-- The ports of a block are what the code selects when all blocks below have their ports. -/
def Chosen (b : Block) : Prop :=
  selectGroupRepresentatives hashes config (groupId hashes b.digits) b.members 1
    (fun n => adjacency.degree n + promised ports (below hashes config b).toFinset n) = .ok (ports b)

/-- The links of a node that are neither used nor promised. -/
def spare (s : Finset Block) (n : NodeId) : ℕ :=
  config.maxDegree - (adjacency.degree n + promised ports s n)

/-- What the leaf cycles of a subtree leave: every leaf node uses two links at most, and in a small
leaf no more than it has partners. -/
def LeafDegrees (b : Block) : Prop :=
  ∀ leaf ∈ blocks hashes config b, children hashes config leaf = [] →
    ∀ n ∈ leaf.members, adjacency.degree n ≤ min 2 (leaf.members.length - 1)

variable {hashes config adjacency ports} {b c : Block} {n : NodeId}

lemma LeafDegrees.mono (h : LeafDegrees hashes config adjacency b)
    (hc : c ∈ blocks hashes config b) : LeafDegrees hashes config adjacency c :=
  fun leaf hleaf => h leaf (blocks_trans hleaf hc)

lemma Chosen.mem_members (h : Chosen hashes config adjacency ports b) :
    ∀ r ∈ ports b, r.nodeId ∈ b.members := by
  obtain ⟨entry, hentry, exit, hexit, hports, -⟩ := selectGroupRepresentatives_eq_ok h
  rw [hports]
  simp [hentry, hexit]

lemma Chosen.countP_eq_zero (h : Chosen hashes config adjacency ports b) (hn : n ∉ b.members) :
    (ports b).countP (·.nodeId = n) = 0 := by
  rw [List.countP_eq_zero]
  intro r hr heq
  exact hn (of_decide_eq_true heq ▸ h.mem_members r hr)

lemma promised_eq_of_subset {s t : Finset Block} (hst : s ⊆ t)
    (h : ∀ d ∈ t, d ∉ s → (ports d).countP (·.nodeId = n) = 0) :
    promised ports s n = promised ports t n :=
  Finset.sum_subset hst h

lemma promised_blocks (b : Block) (n : NodeId) :
    promised ports (blocks hashes config b).toFinset n =
      promised ports (below hashes config b).toFinset n + (ports b).countP (·.nodeId = n) := by
  have hfresh : b ∉ (below hashes config b).toFinset := by
    rw [mem_toFinset]
    exact fun h => lt_irrefl _ (length_digits_lt h)
  rw [promised, promised, blocks_eq, toFinset_cons, Finset.sum_insert hfresh, add_comm]

lemma promised_below_child (hchosen : ∀ d ∈ below hashes config b,
      Chosen hashes config adjacency ports d) (hc : c ∈ children hashes config b) (hn : n ∈ c.members) :
    promised ports (blocks hashes config c).toFinset n =
      promised ports (below hashes config b).toFinset n := by
  refine promised_eq_of_subset ?_ ?_
  · intro d hd
    rw [mem_toFinset] at hd ⊢
    exact mem_below.mpr ⟨c, hc, hd⟩
  · intro d hd hdc
    rw [mem_toFinset] at hd hdc
    refine (hchosen d hd).countP_eq_zero fun hnd => hdc ?_
    obtain ⟨c', hc', hd'⟩ := mem_below.mp hd
    rwa [children_eq_of_mem hc hc' hn (mem_of_mem_blocks hd' hnd)]

lemma sum_members (hsplit : children hashes config b ≠ []) (f : NodeId → ℕ) :
    ∑ n ∈ b.members.toFinset, f n =
      ∑ c ∈ (children hashes config b).toFinset, ∑ n ∈ c.members.toFinset, f n := by
  have hunion : b.members.toFinset =
      (children hashes config b).toFinset.biUnion fun c => c.members.toFinset := by
    ext n
    simp only [mem_toFinset, Finset.mem_biUnion]
    exact ⟨exists_child_of_mem hsplit, fun ⟨c, hc, hn⟩ => mem_of_mem_child hc hn⟩
  rw [hunion, Finset.sum_biUnion]
  intro c hc d hd hne
  simp only [Function.onFun, Finset.disjoint_left, mem_toFinset]
  simp only [Finset.mem_coe, mem_toFinset] at hc hd
  exact fun n hnc hnd => hne (children_eq_of_mem hc hd hnc hnd)

variable (hashes config) in
lemma children_nodup (b : Block) : (children hashes config b).Nodup :=
  (children_digits_nodup hashes config b).of_map _

lemma sum_countP_le (s : Finset NodeId) (l : List TopologyRepresentative) :
    ∑ n ∈ s, l.countP (·.nodeId = n) ≤ l.length := by
  induction l with
  | nil => simp
  | cons r l ih =>
    have hone : ∑ n ∈ s, (if r.nodeId = n then 1 else 0) ≤ 1 := by
      rw [Finset.sum_ite_eq]
      split_ifs <;> omega
    simp only [countP_cons, decide_eq_true_eq, Finset.sum_add_distrib, length_cons]
    omega

/-! ## Spare links -/

def spareIn (hashes : TopologyHashes) (config : BoundedTopologyConfig) (adjacency : Adjacency)
    (ports : Block → List TopologyRepresentative) (b : Block) : ℕ :=
  ∑ n ∈ b.members.toFinset, spare config adjacency ports (blocks hashes config b).toFinset n

def spareBelow (hashes : TopologyHashes) (config : BoundedTopologyConfig) (adjacency : Adjacency)
    (ports : Block → List TopologyRepresentative) (b : Block) : ℕ :=
  ∑ n ∈ b.members.toFinset, spare config adjacency ports (below hashes config b).toFinset n

lemma spareBelow_le (hchosen : Chosen hashes config adjacency ports b) :
    spareBelow hashes config adjacency ports b ≤ spareIn hashes config adjacency ports b + 2 := by
  obtain ⟨entry, -, exit, -, hports, -⟩ := selectGroupRepresentatives_eq_ok hchosen
  have htwo := sum_countP_le b.members.toFinset (ports b)
  have hlength : (ports b).length = 2 := by rw [hports]; rfl
  calc spareBelow hashes config adjacency ports b
      ≤ ∑ n ∈ b.members.toFinset,
          (spare config adjacency ports (blocks hashes config b).toFinset n +
            (ports b).countP (·.nodeId = n)) := by
        refine Finset.sum_le_sum fun n _ => ?_
        rw [spare, spare, promised_blocks]
        omega
    _ = spareIn hashes config adjacency ports b +
          ∑ n ∈ b.members.toFinset, (ports b).countP (·.nodeId = n) := Finset.sum_add_distrib
    _ ≤ spareIn hashes config adjacency ports b + 2 := by omega

variable (ports) in
lemma spare_leaf (hfour : 4 ≤ config.maxDegree) (hdegrees : LeafDegrees hashes config adjacency b)
    (hleaf : children hashes config b = []) (hn : n ∈ b.members) :
    4 ≤ spare config adjacency ports (below hashes config b).toFinset n +
      min 2 (b.members.length - 1) := by
  have hdegree := hdegrees b (self_mem_blocks b) hleaf n hn
  have hbelow : below hashes config b = [] := by simp [below, hleaf]
  have hnone : promised ports (below hashes config b).toFinset n = 0 := by simp [promised, hbelow]
  rw [spare, hnone]
  omega

lemma four_le_spareBelow_leaf (hfour : 4 ≤ config.maxDegree)
    (hdegrees : LeafDegrees hashes config adjacency b) (hleaf : children hashes config b = [])
    (hnodup : b.members.Nodup) (hne : b.members ≠ []) :
    4 ≤ spareBelow hashes config adjacency ports b := by
  have hsum : b.members.toFinset.card * (4 - min 2 (b.members.length - 1)) ≤
      spareBelow hashes config adjacency ports b := by
    refine Finset.card_nsmul_le_sum _ _ _ fun n hn => ?_
    have := spare_leaf ports hfour hdegrees hleaf (mem_toFinset.mp hn)
    omega
  rw [toFinset_card_of_nodup hnodup] at hsum
  have hpos : 0 < b.members.length := length_pos_iff.mpr hne
  rcases Nat.lt_or_ge b.members.length 3 with hsmall | hlarge
  · interval_cases b.members.length <;> omega
  · have htwo : 4 - min 2 (b.members.length - 1) = 2 := by omega
    rw [htwo] at hsum
    omega

lemma spareBelow_eq_sum (hsplit : children hashes config b ≠ [])
    (hchosen : ∀ d ∈ below hashes config b, Chosen hashes config adjacency ports d) :
    spareBelow hashes config adjacency ports b =
      ∑ c ∈ (children hashes config b).toFinset, spareIn hashes config adjacency ports c := by
  rw [spareBelow, sum_members hsplit]
  refine Finset.sum_congr rfl fun c hc => Finset.sum_congr rfl fun n hn => ?_
  rw [mem_toFinset] at hc hn
  rw [spare, spare, promised_below_child hchosen hc hn]

structure Proper (hashes : TopologyHashes) (config : BoundedTopologyConfig) (b : Block) : Prop where
  nodup : ∀ d ∈ blocks hashes config b, d.members.Nodup
  nonempty : b.members ≠ []

lemma Proper.child (h : Proper hashes config b) (hc : c ∈ children hashes config b) :
    Proper hashes config c where
  nodup d hd := h.nodup d (blocks_trans hd (mem_blocks_of_mem_children hc))
  nonempty := (mem_children hc).1

section

variable (hfour : 4 ≤ config.maxDegree) (hdegrees : LeafDegrees hashes config adjacency b)
    (hproper : Proper hashes config b)
include hfour hdegrees hproper

lemma four_le_spareBelow (hchosen : ∀ d ∈ below hashes config b, Chosen hashes config adjacency ports d)
    (hchildren : ∀ c ∈ children hashes config b, 2 ≤ spareIn hashes config adjacency ports c) :
    4 ≤ spareBelow hashes config adjacency ports b := by
  by_cases hleaf : children hashes config b = []
  · exact four_le_spareBelow_leaf hfour hdegrees hleaf (hproper.nodup b (self_mem_blocks b))
      hproper.nonempty
  · have hcard : (children hashes config b).toFinset.card * 2 ≤
        ∑ c ∈ (children hashes config b).toFinset, spareIn hashes config adjacency ports c :=
      Finset.card_nsmul_le_sum _ _ _ fun c hc => hchildren c (mem_toFinset.mp hc)
    rw [toFinset_card_of_nodup (children_nodup hashes config b)] at hcard
    have htwo := two_le_children hleaf
    rw [spareBelow_eq_sum hleaf hchosen]
    omega

/-- **Every subtree keeps two spare links after the choice of its root.** -/
theorem two_le_spareIn
    (hchosen : ∀ d ∈ blocks hashes config b, Chosen hashes config adjacency ports d) :
    2 ≤ spareIn hashes config adjacency ports b := by
  induction b using tree_induction hashes config with
  | step b ih =>
    have hbelow : ∀ d ∈ below hashes config b, Chosen hashes config adjacency ports d :=
      fun d hd => hchosen d (mem_blocks.mpr (Or.inr hd))
    have hchildren : ∀ c ∈ children hashes config b,
        2 ≤ spareIn hashes config adjacency ports c := by
      intro c hc
      have hmem := mem_blocks_of_mem_children hc
      exact ih c hc (hdegrees.mono hmem) (hproper.child hc) fun d hd =>
        hchosen d (blocks_trans hd hmem)
    have hroom := four_le_spareBelow hfour hdegrees hproper hbelow hchildren
    have hcost := spareBelow_le (hchosen b (self_mem_blocks b))
    omega

lemma exists_spare_member
    (hchosen : ∀ d ∈ below hashes config b, Chosen hashes config adjacency ports d)
    (hc : c ∈ children hashes config b) :
    ∃ n ∈ c.members, adjacency.degree n +
      promised ports (below hashes config b).toFinset n + 1 ≤ config.maxDegree := by
  have hmem := mem_blocks_of_mem_children hc
  have htwo := two_le_spareIn hfour (hdegrees.mono hmem) (hproper.child hc) fun d hd =>
    hchosen d (mem_below.mpr ⟨c, hc, hd⟩)
  obtain ⟨n, hn, hpos⟩ := Finset.exists_ne_zero_of_sum_ne_zero
    (show spareIn hashes config adjacency ports c ≠ 0 by omega)
  rw [mem_toFinset] at hn
  rw [spare, promised_below_child hchosen hc hn] at hpos
  exact ⟨n, hn, by omega⟩

/-- **A block whose subtree has chosen can choose**: a single node has two free links, and a larger
block two nodes with one. -/
theorem exists_choice (hchosen : ∀ d ∈ below hashes config b, Chosen hashes config adjacency ports d) :
    ∃ reps, selectGroupRepresentatives hashes config (groupId hashes b.digits) b.members 1
      (fun n => adjacency.degree n + promised ports (below hashes config b).toFinset n) = .ok reps := by
  apply exists_selectGroupRepresentatives
  have hnodup := hproper.nodup b (self_mem_blocks b)
  by_cases hleaf : children hashes config b = []
  · have hspare := fun n hn => spare_leaf (n := n) ports hfour hdegrees hleaf hn
    match hmembers : b.members, hproper.nonempty with
    | [n], _ =>
      have hn := hspare n (by rw [hmembers]; simp)
      rw [spare, hmembers, length_singleton] at hn
      exact Or.inl ⟨n, rfl, by omega⟩
    | a :: b' :: rest, _ =>
      have ha := hspare a (by rw [hmembers]; simp)
      have hb := hspare b' (by rw [hmembers]; simp)
      rw [spare] at ha hb
      rw [hmembers] at hnodup
      refine Or.inr ⟨a, by simp, b', by simp, ?_, by omega, by omega⟩
      rintro rfl
      exact (nodup_cons.mp hnodup).1 (by simp)
  · match hchildren : children hashes config b, two_le_children hleaf with
    | c :: c' :: rest, _ =>
      have hc : c ∈ children hashes config b := by rw [hchildren]; simp
      have hc' : c' ∈ children hashes config b := by rw [hchildren]; simp
      obtain ⟨n, hn, hload⟩ := exists_spare_member hfour hdegrees hproper hchosen hc
      obtain ⟨n', hn', hload'⟩ := exists_spare_member hfour hdegrees hproper hchosen hc'
      refine Or.inr ⟨n, mem_of_mem_child hc hn, n', mem_of_mem_child hc' hn', ?_, hload, hload'⟩
      rintro rfl
      have hdistinct := children_nodup hashes config b
      rw [hchildren, children_eq_of_mem hc hc' hn hn'] at hdistinct
      exact (nodup_cons.mp hdistinct).1 (by simp)

end

/-- **No node promises more links than it may have.** -/
theorem load_le (htwo : 2 ≤ config.maxDegree) (hdegrees : LeafDegrees hashes config adjacency b)
    (hchosen : ∀ d ∈ blocks hashes config b, Chosen hashes config adjacency ports d)
    (hn : n ∈ b.members) :
    adjacency.degree n + promised ports (blocks hashes config b).toFinset n ≤ config.maxDegree := by
  induction b using tree_induction hashes config with
  | step b ih =>
    have hbelow : ∀ d ∈ below hashes config b, Chosen hashes config adjacency ports d :=
      fun d hd => hchosen d (mem_blocks.mpr (Or.inr hd))
    -- what the node carries before the choice of this block
    have hload : adjacency.degree n + promised ports (below hashes config b).toFinset n ≤
        config.maxDegree := by
      by_cases hleaf : children hashes config b = []
      · have hdegree := hdegrees b (self_mem_blocks b) hleaf n hn
        have hnone : promised ports (below hashes config b).toFinset n = 0 := by
          simp [promised, below, hleaf]
        omega
      · obtain ⟨c, hc, hnc⟩ := exists_child_of_mem hleaf hn
        have hmem := mem_blocks_of_mem_children hc
        rw [← promised_below_child hbelow hc hnc]
        exact ih c hc (hdegrees.mono hmem) (fun d hd => hchosen d (blocks_trans hd hmem)) hnc
    rw [promised_blocks]
    obtain ⟨entry, -, exit, -, hports, hcases⟩ :=
      selectGroupRepresentatives_eq_ok (hchosen b (self_mem_blocks b))
    rw [hports]
    simp only [countP_cons, countP_nil, decide_eq_true_eq]
    rcases hcases with ⟨-, rfl, hroom⟩ | ⟨hne, hentry, hexit⟩
    · split_ifs with heq
      · subst heq
        omega
      · omega
    · split_ifs with hx he he
      · exact absurd (he.trans hx.symm) hne
      · subst hx
        omega
      · subst he
        omega
      · omega

end Block

end HeteroNetwork
