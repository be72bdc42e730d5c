import HeteroNetwork.ControlPlane.Topology.Representatives

/-!
# The allocation loop

`allocate_representatives_and_hierarchy_edges` walks the groups below the root by decreasing depth.  When a
block's turn comes, the blocks below it have had theirs and no other block with one of its members has, so
the loop selects what the block's own subtree determines.
-/

namespace HeteroNetwork

open Function List

namespace Block

variable (hashes : TopologyHashes) (config : BoundedTopologyConfig)

def withPorts (ports : Block → List TopologyRepresentative) (b : Block) : HierarchyGroup :=
  { toGroup hashes config b with representatives := ports b }

/-- The blocks below the root with their indices, deepest first. -/
def turns (nodeIds : List NodeId) : List (Block × ℕ) :=
  ((inOrder hashes config nodeIds).zipIdx.filter fun p => p.1.digits ≠ []).insertionSort
    fun p q => deepestFirst (toGroup hashes config p.1, p.2) (toGroup hashes config q.1, q.2)

variable {hashes config} {nodeIds : List NodeId} {adjacency : Adjacency}
  {ports : Block → List TopologyRepresentative} {b d : Block} {n : NodeId}

/-! ## The order of the turns -/

instance : Std.Total deepestFirst where
  total a b := by
    unfold deepestFirst
    rcases lt_trichotomy a.1.depth b.1.depth with h | h | h
    · exact Or.inr (Or.inl h)
    · rcases le_total a.1.blockId b.1.blockId with hid | hid
      · exact Or.inl (Or.inr ⟨h.symm, hid⟩)
      · exact Or.inr (Or.inr ⟨h, hid⟩)
    · exact Or.inl (Or.inl h)

instance : IsTrans (HierarchyGroup × ℕ) deepestFirst where
  trans a b c := by
    unfold deepestFirst
    rintro (hab | ⟨hab, hab'⟩) (hbc | ⟨hbc, hbc'⟩)
    · exact Or.inl (hbc.trans hab)
    · exact Or.inl (hbc ▸ hab)
    · exact Or.inl (hab ▸ hbc)
    · exact Or.inr ⟨hbc.trans hab, hab'.trans hbc'⟩

lemma groupOrder_eq :
    groupOrder ((inOrder hashes config nodeIds).map (toGroup hashes config)) =
      (turns hashes config nodeIds).map Prod.snd := by
  have hfilter : ((inOrder hashes config nodeIds).map (toGroup hashes config)).zipIdx.filter
      (·.1.parentBlockId.isSome) =
        ((inOrder hashes config nodeIds).zipIdx.filter fun p => p.1.digits ≠ []).map
          fun p => (toGroup hashes config p.1, p.2) := by
    rw [zipIdx_map, filter_map]
    congr 1
    apply filter_congr
    rintro ⟨b, i⟩ -
    by_cases hdigits : b.digits = [] <;> simp [toGroup, parentGroupId, hdigits]
  rw [groupOrder, hfilter, turns, ← map_insertionSort _ deepestFirst _ _
    fun _ _ _ _ => Iff.rfl, map_map]
  rfl

lemma mem_turns {i : ℕ} : (b, i) ∈ turns hashes config nodeIds ↔
    (inOrder hashes config nodeIds)[i]? = some b ∧ b.digits ≠ [] := by
  rw [turns, mem_insertionSort, mem_filter, mem_zipIdx_iff_getElem?]
  simp

variable (hashes config nodeIds) in
lemma turns_pairwise : (turns hashes config nodeIds).Pairwise fun p q =>
    q.1.digits.length ≤ p.1.digits.length := by
  have hsorted := pairwise_insertionSort deepestFirst
    (((inOrder hashes config nodeIds).zipIdx.filter fun p => p.1.digits ≠ []).map
      fun p => (toGroup hashes config p.1, p.2))
  rw [← map_insertionSort (fun p q => deepestFirst (toGroup hashes config p.1, p.2)
    (toGroup hashes config q.1, q.2)) deepestFirst _ _ fun _ _ _ _ => Iff.rfl,
    pairwise_map] at hsorted
  refine hsorted.imp ?_
  rintro p q (hlt | ⟨heq, -⟩)
  · exact hlt.le
  · exact heq.le

variable (hashes config nodeIds) in
lemma turns_nodup : ((turns hashes config nodeIds).map Prod.fst).Nodup := by
  have hperm := (perm_insertionSort (fun p q => deepestFirst (toGroup hashes config p.1, p.2)
    (toGroup hashes config q.1, q.2))
    ((inOrder hashes config nodeIds).zipIdx.filter fun p => p.1.digits ≠ [])).map Prod.fst
  refine hperm.nodup_iff.mpr ?_
  refine List.Nodup.sublist (List.Sublist.map _ filter_sublist) ?_
  rw [zipIdx_map_fst]
  exact inOrder_nodup

lemma mem_turns_map : b ∈ (turns hashes config nodeIds).map Prod.fst ↔
    b ∈ below hashes config (root nodeIds) := by
  rw [mem_map]
  constructor
  · rintro ⟨⟨b, i⟩, hmem, rfl⟩
    obtain ⟨hget, hdigits⟩ := mem_turns.mp hmem
    rcases digits_cases (mem_inOrder.mp (mem_of_getElem? hget)) with ⟨hnil, -⟩ | ⟨-, hbelow, -⟩
    · exact absurd hnil hdigits
    · exact hbelow
  · intro hbelow
    have hmem : b ∈ inOrder hashes config nodeIds := mem_inOrder.mpr (mem_blocks.mpr (Or.inr hbelow))
    obtain ⟨i, hi⟩ := mem_iff_getElem?.mp hmem
    refine ⟨(b, i), mem_turns.mpr ⟨hi, ?_⟩, rfl⟩
    intro hnil
    have hlt := length_digits_lt hbelow
    rw [hnil] at hlt
    exact absurd hlt (Nat.not_lt_zero _)

/-! ## One turn -/

lemma getD_foldl_reserve (reps : List TopologyRepresentative) (reserved : ReservedDegrees)
    (n : NodeId) :
    (reps.foldl (reserve 1) reserved).getD n 0 = reserved.getD n 0 + reps.countP (·.nodeId = n) := by
  induction reps generalizing reserved with
  | nil => rfl
  | cons r reps ih =>
    rw [foldl_cons, ih, countP_cons, reserve, Std.TreeMap.getD_insert]
    by_cases hr : r.nodeId = n
    · subst hr
      simp only [Std.LawfulEqOrd.compare_eq_iff_eq, if_true, decide_true]
      omega
    · simp [hr]

lemma promised_congr {s : Finset Block} {other : Block → List TopologyRepresentative}
    (h : ∀ d ∈ s, ports d = other d) : promised ports s n = promised other s n :=
  Finset.sum_congr rfl fun d hd => by rw [h d hd]

lemma Chosen.congr {other : Block → List TopologyRepresentative}
    (h : Chosen hashes config adjacency ports b)
    (hports : ∀ d ∈ blocks hashes config b, ports d = other d) :
    Chosen hashes config adjacency other b := by
  have hbelow : ∀ d ∈ (below hashes config b).toFinset, ports d = other d :=
    fun d hd => hports d (mem_blocks.mpr (Or.inr (mem_toFinset.mp hd)))
  rw [Chosen, ← hports b (self_mem_blocks b), ← h]
  exact selectGroupRepresentatives_congr fun n _ => by rw [promised_congr hbelow]

variable (hashes config nodeIds adjacency) in
/-- Where the loop stands when the blocks `done` have had their turn. -/
structure Allocated (done : List Block) (state : List HierarchyGroup × ReservedDegrees)
    (ports : Block → List TopologyRepresentative) : Prop where
  groups : state.1 = (inOrder hashes config nodeIds).map (withPorts hashes config ports)
  reserved : ∀ n, state.2.getD n 0 = promised ports done.toFinset n
  chosen : ∀ b ∈ done, Chosen hashes config adjacency ports b
  pending : ∀ b ∉ done, ports b = []

structure HasTurn (hashes : TopologyHashes) (config : BoundedTopologyConfig)
    (nodeIds : List NodeId) (done : List Block) (b : Block) : Prop where
  mem : b ∈ blocks hashes config (root nodeIds)
  first : b ∉ done
  subtree : ∀ d ∈ below hashes config b, d ∈ done
  deeper : ∀ d ∈ done, d ∈ blocks hashes config (root nodeIds) ∧ b.digits.length ≤ d.digits.length

lemma HasTurn.promised_eq {done : List Block} (h : HasTurn hashes config nodeIds done b)
    (hchosen : ∀ d ∈ done, Chosen hashes config adjacency ports d) (hn : n ∈ b.members) :
    promised ports (below hashes config b).toFinset n = promised ports done.toFinset n := by
  refine promised_eq_of_subset ?_ ?_
  · intro d hd
    rw [mem_toFinset] at hd ⊢
    exact h.subtree d hd
  · intro d hd hdb
    rw [mem_toFinset] at hd hdb
    refine (hchosen d hd).countP_eq_zero fun hnd => ?_
    obtain ⟨hmem, hdepth⟩ := h.deeper d hd
    rcases comparable_of_mem hmem h.mem hnd hn with hblocks | habove
    · rcases mem_blocks.mp hblocks with rfl | hbelow
      · exact h.first hd
      · exact hdb hbelow
    · exact absurd (length_digits_lt habove) (not_lt.mpr hdepth)

lemma map_withPorts_update {i : ℕ} {reps : List TopologyRepresentative}
    (hi : (inOrder hashes config nodeIds)[i]? = some b) :
    ((inOrder hashes config nodeIds).map (withPorts hashes config ports)).set i
        { withPorts hashes config ports b with representatives := reps } =
      (inOrder hashes config nodeIds).map (withPorts hashes config (update ports b reps)) := by
  apply ext_getElem?
  intro j
  rw [getElem?_set, getElem?_map, getElem?_map]
  obtain ⟨hlt, hget⟩ := List.getElem?_eq_some_iff.mp hi
  by_cases hij : i = j
  · subst hij
    rw [if_pos rfl, length_map, if_pos hlt, hi]
    simp [withPorts]
  · rw [if_neg hij]
    cases hj : (inOrder hashes config nodeIds)[j]? with
    | none => rfl
    | some c =>
      have hne : c ≠ b := by
        rintro rfl
        exact hij ((getElem?_inj hlt inOrder_nodup).mp (hi.trans hj.symm))
      simp [withPorts, update_of_ne hne]

def afterTurn (hashes : TopologyHashes) (config : BoundedTopologyConfig)
    (ports : Block → List TopologyRepresentative) (state : List HierarchyGroup × ReservedDegrees)
    (b : Block) (i : ℕ) (reps : List TopologyRepresentative) :
    List HierarchyGroup × ReservedDegrees :=
  (state.1.set i { withPorts hashes config ports b with representatives := reps },
    reps.foldl (reserve 1) state.2)

section Turn

variable {done : List Block} {state : List HierarchyGroup × ReservedDegrees} {i : ℕ}

section

variable (hstate : Allocated hashes config nodeIds adjacency done state ports)
    (hi : (inOrder hashes config nodeIds)[i]? = some b) (hturn : HasTurn hashes config nodeIds done b)
include hstate hi hturn

/-- **One turn of the loop** selects what the subtree of the block determines. -/
lemma allocateGroup_eq_ok {state' : List HierarchyGroup × ReservedDegrees} :
    allocateGroup hashes config adjacency state i = .ok state' ↔
      ∃ reps, selectGroupRepresentatives hashes config (groupId hashes b.digits) b.members 1
          (fun n => adjacency.degree n + promised ports (below hashes config b).toFinset n) =
            .ok reps ∧ afterTurn hashes config ports state b i reps = state' := by
  have hselect : selectGroupRepresentatives hashes config (groupId hashes b.digits) b.members 1
      (fun n => adjacency.degree n + promised ports (below hashes config b).toFinset n) =
        selectGroupRepresentatives hashes config (groupId hashes b.digits) b.members 1
          (representativeLoad adjacency state.2) := by
    refine selectGroupRepresentatives_congr fun n hn => ?_
    rw [representativeLoad, hstate.reserved, hturn.promised_eq hstate.chosen hn]
  have hget : state.1[i]? = some (withPorts hashes config ports b) := by
    rw [hstate.groups, getElem?_map, hi]
    rfl
  rw [hselect]
  simp only [allocateGroup, hget, expect, Checked.ok_bind, Checked.bind_eq_ok, Except.ok.injEq]
  rfl

lemma allocated_afterTurn {reps : List TopologyRepresentative}
    (hreps : selectGroupRepresentatives hashes config (groupId hashes b.digits) b.members 1
      (fun n => adjacency.degree n + promised ports (below hashes config b).toFinset n) = .ok reps) :
    Allocated hashes config nodeIds adjacency (done ++ [b])
      (afterTurn hashes config ports state b i reps) (update ports b reps) := by
  have hold : ∀ d ∈ done, ∀ e ∈ blocks hashes config d,
      ports e = update ports b reps e := by
    intro d hd e he
    rw [update_of_ne]
    rintro rfl
    rcases mem_blocks.mp he with rfl | hbelow
    · exact hturn.first hd
    · exact absurd (length_digits_lt hbelow) (not_lt.mpr (hturn.deeper d hd).2)
  have hdone : ∀ d ∈ done.toFinset, ports d = update ports b reps d :=
    fun d hd => hold d (mem_toFinset.mp hd) d (self_mem_blocks d)
  constructor
  · rw [afterTurn, hstate.groups]
    exact map_withPorts_update hi
  · intro n
    have hfresh : b ∉ done.toFinset := fun h => hturn.first (mem_toFinset.mp h)
    have hinsert : (done ++ [b]).toFinset = insert b done.toFinset := by
      ext d
      simp
    rw [afterTurn, getD_foldl_reserve, hstate.reserved, hinsert, promised_congr hdone, promised,
      promised, Finset.sum_insert hfresh, update_self, add_comm]
  · intro d hd
    rcases mem_append.mp hd with hd | hd
    · exact (hstate.chosen d hd).congr (hold d hd)
    · obtain rfl := mem_singleton.mp hd
      have hbelow : ∀ e ∈ (below hashes config d).toFinset,
          ports e = update ports d reps e :=
        fun e he => hdone e (mem_toFinset.mpr (hturn.subtree e (mem_toFinset.mp he)))
      rw [Chosen, update_self, ← hreps]
      exact selectGroupRepresentatives_congr fun n _ => by rw [promised_congr hbelow]
  · intro d hd
    simp only [mem_append, mem_singleton, not_or] at hd
    rw [update_of_ne hd.2]
    exact hstate.pending d hd.1

end

end Turn

/-! ## All turns -/

variable {done rest : List (Block × ℕ)}

section

variable {p : Block × ℕ} (h : turns hashes config nodeIds = done ++ p :: rest)
include h

lemma hasTurn_of_turns : HasTurn hashes config nodeIds (done.map Prod.fst) p.1 := by
  have hmem : ∀ d, d ∈ (turns hashes config nodeIds).map Prod.fst →
      d ∈ blocks hashes config (root nodeIds) :=
    fun d hd => mem_blocks.mpr (Or.inr (mem_turns_map.mp hd))
  have hdepth := turns_pairwise hashes config nodeIds
  have hnodup := turns_nodup hashes config nodeIds
  rw [h] at hmem hdepth hnodup
  rw [map_append, map_cons] at hmem hnodup
  obtain ⟨-, hlater, hearlier⟩ := pairwise_append.mp hdepth
  constructor
  · exact hmem _ (by simp)
  · intro hdone
    exact (nodup_append.mp hnodup).2.2 p.1 hdone p.1 (by simp) rfl
  · intro d hd
    have hturn : d ∈ (turns hashes config nodeIds).map Prod.fst := by
      rw [mem_turns_map]
      have hp := mem_turns_map.mp (show p.1 ∈ (turns hashes config nodeIds).map Prod.fst by
        rw [h]; simp)
      exact below_of_mem_blocks (mem_blocks.mpr (Or.inr hd)) hp
    rw [h, map_append, map_cons, mem_append, mem_cons] at hturn
    rcases hturn with hdone | rfl | hrest
    · exact hdone
    · exact absurd (length_digits_lt hd) (lt_irrefl _)
    · -- a block below cannot come later
      obtain ⟨q, hq, rfl⟩ := mem_map.mp hrest
      exact absurd (length_digits_lt hd)
        (not_lt.mpr ((pairwise_cons.mp hlater).1 q hq))
  · intro d hd
    obtain ⟨q, hq, rfl⟩ := mem_map.mp hd
    exact ⟨hmem _ (by simp [hd]), hearlier q hq p (by simp)⟩

lemma getElem?_of_turns : (inOrder hashes config nodeIds)[p.2]? = some p.1 := by
  have hmem : (p.1, p.2) ∈ turns hashes config nodeIds := by
    rw [h]
    simp
  exact (mem_turns.mp hmem).1

end

variable {state : List HierarchyGroup × ReservedDegrees}

lemma allocated_of_foldlM {state' : List HierarchyGroup × ReservedDegrees}
    (h : turns hashes config nodeIds = done ++ rest)
    (hstate : Allocated hashes config nodeIds adjacency (done.map Prod.fst) state ports)
    (hrun : (rest.map Prod.snd).foldlM (allocateGroup hashes config adjacency) state = .ok state') :
    ∃ ports', Allocated hashes config nodeIds adjacency ((done ++ rest).map Prod.fst) state' ports' := by
  induction rest generalizing done state ports with
  | nil =>
    obtain rfl : state = state' := Except.ok.inj hrun
    exact ⟨ports, by simpa using hstate⟩
  | cons p rest ih =>
    rw [map_cons, foldlM_cons, Checked.bind_eq_ok] at hrun
    obtain ⟨state₁, hstep, hrest⟩ := hrun
    have hturn := hasTurn_of_turns h
    have hindex := getElem?_of_turns h
    obtain ⟨reps, hreps, rfl⟩ := (allocateGroup_eq_ok hstate hindex hturn).mp hstep
    have hnext := allocated_afterTurn hstate hindex hturn hreps
    have hsplit : turns hashes config nodeIds = (done ++ [p]) ++ rest := by simp [h]
    obtain ⟨ports', hend⟩ := ih hsplit (by simpa using hnext) hrest
    exact ⟨ports', by simpa using hend⟩

lemma exists_foldlM (hfour : 4 ≤ config.maxDegree)
    (hdegrees : LeafDegrees hashes config adjacency (root nodeIds)) (hnodup : nodeIds.Nodup)
    (h : turns hashes config nodeIds = done ++ rest)
    (hstate : Allocated hashes config nodeIds adjacency (done.map Prod.fst) state ports) :
    ∃ state', (rest.map Prod.snd).foldlM (allocateGroup hashes config adjacency) state =
      .ok state' := by
  induction rest generalizing done state ports with
  | nil => exact ⟨state, rfl⟩
  | cons p rest ih =>
    have hturn := hasTurn_of_turns h
    have hindex := getElem?_of_turns h
    have hbelow : p.1 ∈ below hashes config (root nodeIds) := by
      refine mem_turns_map.mp ?_
      rw [h]
      simp
    have hproper : Proper hashes config p.1 :=
      { nodup := fun d hd => nodup_of_mem_blocks hnodup (blocks_trans hd hturn.mem)
        nonempty := members_ne_nil_of_mem_below hbelow }
    obtain ⟨reps, hreps⟩ := exists_choice hfour (hdegrees.mono hturn.mem) hproper fun d hd =>
      hstate.chosen d (hturn.subtree d hd)
    have hstep := (allocateGroup_eq_ok hstate hindex hturn).mpr ⟨reps, hreps, rfl⟩
    have hnext := allocated_afterTurn hstate hindex hturn hreps
    have hsplit : turns hashes config nodeIds = (done ++ [p]) ++ rest := by simp [h]
    obtain ⟨state', hrest⟩ := ih hsplit (by simpa using hnext)
    refine ⟨state', ?_⟩
    rw [map_cons, foldlM_cons, hstep]
    exact hrest

variable (hashes config nodeIds adjacency) in
def allocationLoop : Synthesis (List HierarchyGroup × ReservedDegrees) :=
  (groupOrder ((inOrder hashes config nodeIds).map (toGroup hashes config))).foldlM
    (allocateGroup hashes config adjacency)
    ((inOrder hashes config nodeIds).map (toGroup hashes config), ∅)

variable (hashes config nodeIds adjacency) in
lemma allocated_start :
    Allocated hashes config nodeIds adjacency (([] : List (Block × ℕ)).map Prod.fst)
      ((inOrder hashes config nodeIds).map (toGroup hashes config), ∅) fun _ => [] where
  groups := map_congr_left fun _ _ => rfl
  reserved n := by simp [promised]
  chosen b hb := absurd hb not_mem_nil
  pending _ _ := rfl

/-- **The allocation loop selects for every block below the root what its subtree determines.** -/
theorem allocationLoop_eq_ok (h : allocationLoop hashes config nodeIds adjacency = .ok state) :
    ∃ ports, state.1 = (inOrder hashes config nodeIds).map (withPorts hashes config ports) ∧
      (∀ b ∈ below hashes config (root nodeIds), Chosen hashes config adjacency ports b) ∧
      ports (root nodeIds) = [] := by
  rw [allocationLoop, groupOrder_eq] at h
  obtain ⟨ports, hend⟩ := allocated_of_foldlM (nil_append _).symm
    (allocated_start hashes config nodeIds adjacency) h
  refine ⟨ports, hend.groups, fun b hb => hend.chosen b (mem_turns_map.mpr hb), ?_⟩
  refine hend.pending _ fun hmem => ?_
  exact absurd (length_digits_lt (mem_turns_map.mp hmem)) (lt_irrefl _)

/-- **The allocation loop never fails** when a node may have four links. -/
theorem exists_allocationLoop (hfour : 4 ≤ config.maxDegree)
    (hdegrees : LeafDegrees hashes config adjacency (root nodeIds)) (hnodup : nodeIds.Nodup) :
    ∃ state, allocationLoop hashes config nodeIds adjacency = .ok state := by
  rw [allocationLoop, groupOrder_eq]
  exact exists_foldlM hfour hdegrees hnodup (nil_append _).symm
    (allocated_start hashes config nodeIds adjacency)

end Block

end HeteroNetwork
