import HeteroNetwork.Lib.UnitFlow
import HeteroNetwork.ControlPlane.Topology.Hierarchy

/-!
# The residual graph of the path search

Every arc is stored as two edges that name each other's place, with capacities that say whether the arc
is in use.  `StoresFlow` ties such a graph to a set of arcs and a flow over them.
-/

namespace HeteroNetwork

open Std (TreeMap)

open Search (Trail)
open UnitFlow List

structure ResidualEdge where
  target : ℕ
  reverseIndex : ℕ
  capacity : ℕ
  initialCapacity : ℕ
deriving DecidableEq

abbrev ResidualGraph := List (List ResidualEdge)

namespace ResidualGraph

def row (graph : ResidualGraph) (u : ℕ) : List ResidualEdge := graph.getD u []

def edge? (graph : ResidualGraph) (u i : ℕ) : Option ResidualEdge := (graph.row u)[i]?

def modifyEdge (graph : ResidualGraph) (u i : ℕ) (f : ResidualEdge → ResidualEdge) : ResidualGraph :=
  graph.modify u fun row => row.modify i f

def pushEdge (graph : ResidualGraph) (u : ℕ) (edge : ResidualEdge) : ResidualGraph :=
  graph.modify u fun row => row ++ [edge]

/-- One unit over the edge `i` of `u`, whose reverse is the edge `j` of `v`. -/
def moveUnit (graph : ResidualGraph) (u i v j : ℕ) : ResidualGraph :=
  (graph.modifyEdge u i fun edge => { edge with capacity := edge.capacity - 1 }).modifyEdge v j
    fun edge => { edge with capacity := edge.capacity + 1 }

end ResidualGraph

open ResidualGraph

def addResidualEdge (graph : ResidualGraph) (source target capacity : ℕ) : ResidualGraph :=
  let forwardReverseIndex := (graph.row target).length
  let reverseReverseIndex := (graph.row source).length
  (graph.pushEdge source ⟨target, forwardReverseIndex, capacity, capacity⟩).pushEdge target
    ⟨source, reverseReverseIndex, 0, 0⟩

def usableTargets (graph : ResidualGraph) (usable : ℕ → ℕ → ResidualEdge → Bool) (current : ℕ) :
    List (ℕ × ℕ × ℕ) :=
  ((graph.row current).zipIdx.filter fun (edge, i) => usable current i edge).map
    fun (edge, i) => (edge.target, (current, i))

/-- The search that `augment_unit_flow` and `extract_flow_path` share: breadth first over the edges that
are usable, up to the sink, with the edge into every vertex. -/
def searchEdges (graph : ResidualGraph) (usable : ℕ → ℕ → ResidualEdge → Bool) (source sink : ℕ) :
    Search.State ℕ (ℕ × ℕ) :=
  Search.loop (fun v => v = sink) (fun current _ => usableTargets graph usable current) graph.length
    (Search.start [(source, (source, usizeMax))])

/-- The second loop of `augment_unit_flow`: one unit along the predecessors. -/
def pushAlong (source : ℕ) (predecessor : TreeMap ℕ (ℕ × ℕ)) :
    ℕ → ResidualGraph → ℕ → Option ResidualGraph
  | 0, _, _ => none
  | fuel + 1, graph, cursor =>
    if cursor = source then some graph
    else match predecessor[cursor]? with
      | none => none
      | some (previous, edgeIndex) =>
        match graph.edge? previous edgeIndex with
        | none => none
        | some edge =>
          pushAlong source predecessor fuel
            (graph.moveUnit previous edgeIndex cursor edge.reverseIndex) previous

def augmentUnitFlow (graph : ResidualGraph) (source sink : ℕ) : Option ResidualGraph :=
  let search := searchEdges graph (fun _ _ edge => edge.capacity ≠ 0) source sink
  if search.found then pushAlong source search.labels (search.labels.size + 1) graph sink else none

def flowAt (remaining : List (List ℕ)) (u i : ℕ) : ℕ := (remaining.getD u []).getD i 0

def takeAlong (source : ℕ) (predecessor : TreeMap ℕ (ℕ × ℕ)) :
    ℕ → List (List ℕ) → ℕ → List ℕ → Option (List ℕ × List (List ℕ))
  | 0, _, _, _ => none
  | fuel + 1, remaining, cursor, path =>
    if cursor = source then some (path, remaining)
    else match predecessor[cursor]? with
      | none => none
      | some (previous, edgeIndex) =>
        takeAlong source predecessor fuel
          (remaining.modify previous fun row => row.modify edgeIndex fun flow => flow - 1)
          previous (previous :: path)

def extractFlowPath (graph : ResidualGraph) (remaining : List (List ℕ)) (source sink : ℕ) :
    Option (List ℕ × List (List ℕ)) :=
  let search := searchEdges graph (fun current i _ => flowAt remaining current i ≠ 0) source sink
  if search.found then takeAlong source search.labels (search.labels.size + 1) remaining sink [sink]
  else none

def remainingFlow (graph : ResidualGraph) : List (List ℕ) :=
  graph.map fun edges => edges.map fun edge => edge.initialCapacity - edge.capacity

/-! ## Places -/

namespace ResidualGraph

variable {graph : ResidualGraph} {u v i j : ℕ} {edge e : ResidualEdge} {f : ResidualEdge → ResidualEdge}

lemma row_eq (graph : ResidualGraph) (u : ℕ) : graph.row u = graph[u]?.getD [] :=
  getD_eq_getElem?_getD

lemma edge?_modifyEdge : (graph.modifyEdge u i f).edge? v j =
    if u = v ∧ i = j then (graph.edge? v j).map f else graph.edge? v j := by
  rw [edge?, edge?, row_eq, row_eq, modifyEdge, getElem?_modify]
  by_cases huv : u = v
  · subst huv
    cases graph[u]? with
    | none => simp
    | some row =>
      by_cases hij : i = j
      · simp [hij]
      · simp [hij]
  · cases graph[v]? with
    | none | some => simp [huv]

lemma length_modifyEdge : (graph.modifyEdge u i f).length = graph.length := length_modify _ _ _

lemma length_moveUnit : (graph.moveUnit u i v j).length = graph.length := by
  rw [moveUnit, length_modifyEdge, length_modifyEdge]

lemma length_pushEdge : (graph.pushEdge u edge).length = graph.length := length_modify _ _ _

lemma row_pushEdge (hu : u < graph.length) :
    (graph.pushEdge u edge).row v = if u = v then graph.row u ++ [edge] else graph.row v := by
  rw [row_eq, row_eq, row_eq, pushEdge, getElem?_modify]
  by_cases huv : u = v
  · subst huv
    simp [getElem?_eq_getElem hu]
  · simp [huv]

lemma edge?_pushEdge (hu : u < graph.length) : (graph.pushEdge u edge).edge? v j =
    if u = v ∧ j = (graph.row u).length then some edge else graph.edge? v j := by
  rw [edge?, row_pushEdge hu]
  by_cases huv : u = v
  · subst huv
    rw [if_pos rfl, edge?]
    by_cases hj : j = (graph.row u).length
    · rw [if_pos ⟨rfl, hj⟩, hj, getElem?_concat_length]
    · rw [if_neg fun h => hj h.2]
      rcases lt_or_gt_of_ne hj with hlt | hgt
      · exact getElem?_append_left hlt
      · rw [getElem?_eq_none (by simp; omega), getElem?_eq_none (by omega)]
  · rw [if_neg huv, if_neg fun h => huv h.1, edge?]

lemma edge?_moveUnit {a b : ℕ} : (graph.moveUnit u i v j).edge? a b =
    (graph.edge? a b).map fun edge =>
      let spent := if u = a ∧ i = b then edge.capacity - 1 else edge.capacity
      { edge with capacity := if v = a ∧ j = b then spent + 1 else spent } := by
  rw [moveUnit, edge?_modifyEdge, edge?_modifyEdge]
  cases graph.edge? a b with
  | none => simp
  | some edge =>
    by_cases hspent : u = a ∧ i = b <;> by_cases hgained : v = a ∧ j = b <;> simp [hspent, hgained]

end ResidualGraph

def residualCapacity (A F : Finset (ℕ × ℕ)) (u v : ℕ) : ℕ :=
  if (u, v) ∈ A then (if (u, v) ∈ F then 0 else 1) else (if (v, u) ∈ F then 1 else 0)

/-- The graph stores the arcs `A`, each with its reverse, and the flow `F`. -/
structure StoresFlow (graph : ResidualGraph) (A F : Finset (ℕ × ℕ)) : Prop where
  inside : ∀ u v, (u, v) ∈ A → u < graph.length ∧ v < graph.length
  oneWay : ∀ u v, (u, v) ∈ A → (v, u) ∉ A
  flow : F ⊆ A
  arc : ∀ u i e, graph.edge? u i = some e → (u, e.target) ∈ A ∨ (e.target, u) ∈ A
  initial : ∀ u i e, graph.edge? u i = some e →
    e.initialCapacity = if (u, e.target) ∈ A then 1 else 0
  capacity : ∀ u i e, graph.edge? u i = some e → e.capacity = residualCapacity A F u e.target
  paired : ∀ u i e, graph.edge? u i = some e →
    ∃ e', graph.edge? e.target e.reverseIndex = some e' ∧ e'.target = u ∧ e'.reverseIndex = i
  complete : ∀ u v, (u, v) ∈ A ∨ (v, u) ∈ A → ∃ i e, graph.edge? u i = some e ∧ e.target = v
  simple : ∀ u i j e e', graph.edge? u i = some e → graph.edge? u j = some e' →
    e.target = e'.target → i = j

section Stored

variable {graph : ResidualGraph} {A F : Finset (ℕ × ℕ)} {u v i : ℕ} {e : ResidualEdge}

lemma StoresFlow.capacity_ne_zero (h : StoresFlow graph A F) (he : graph.edge? u i = some e) :
    e.capacity ≠ 0 ↔ Residual A F u e.target := by
  rw [h.capacity u i e he, residualCapacity, Residual]
  rcases h.arc u i e he with hA | hA
  · have hback : (e.target, u) ∉ F := fun hF => h.oneWay _ _ hA (h.flow hF)
    simp [hA, hback]
  · have hforward : (u, e.target) ∉ A := h.oneWay _ _ hA
    simp [hforward]

lemma StoresFlow.residual_arc (h : StoresFlow graph A F) (hres : Residual A F u v) :
    (u, v) ∈ A ∨ (v, u) ∈ A :=
  hres.imp (fun hfree => hfree.1) fun hback => h.flow hback

lemma storesFlow_empty (n : ℕ) : StoresFlow (List.replicate n []) ∅ ∅ := by
  have hnone : ∀ u i, (ResidualGraph.edge? (List.replicate n []) u i) = none := by
    intro u i
    rw [edge?, row_eq, getElem?_replicate]
    split_ifs <;> simp
  refine ⟨by simp, by simp, by simp, ?_, ?_, ?_, ?_, by simp, ?_⟩
  all_goals
    intro u i
    simp [hnone]

end Stored

section AddEdge

variable {graph : ResidualGraph} {A : Finset (ℕ × ℕ)} {u v : ℕ}

lemma edge?_addResidualEdge (hu : u < graph.length) (hv : v < graph.length) (hne : u ≠ v) {a b : ℕ}
    {e : ResidualEdge} : (addResidualEdge graph u v 1).edge? a b = some e ↔
      (a = u ∧ b = (graph.row u).length ∧ e = ⟨v, (graph.row v).length, 1, 1⟩) ∨
      (a = v ∧ b = (graph.row v).length ∧ e = ⟨u, (graph.row u).length, 0, 0⟩) ∨
      graph.edge? a b = some e := by
  rw [addResidualEdge, edge?_pushEdge (by rwa [length_pushEdge]), edge?_pushEdge hu,
    row_pushEdge hu, if_neg hne]
  have hend : ∀ w, graph.edge? w (graph.row w).length = none :=
    fun w => getElem?_eq_none (le_refl _)
  by_cases hback : v = a ∧ b = (graph.row v).length
  · obtain ⟨rfl, rfl⟩ := hback
    simp [hend, Ne.symm hne, eq_comm]
  · rw [if_neg hback]
    by_cases hforward : u = a ∧ b = (graph.row u).length
    · obtain ⟨rfl, rfl⟩ := hforward
      simp [hend, hne, eq_comm]
    · rw [if_neg hforward]
      have hback' : ¬(a = v ∧ b = (graph.row v).length ∧ e = ⟨u, (graph.row u).length, 0, 0⟩) :=
        fun h => hback ⟨h.1.symm, h.2.1⟩
      have hforward' : ¬(a = u ∧ b = (graph.row u).length ∧ e = ⟨v, (graph.row v).length, 1, 1⟩) :=
        fun h => hforward ⟨h.1.symm, h.2.1⟩
      simp [hback', hforward']

/-- A new arc is stored without flow. -/
theorem storesFlow_addResidualEdge (h : StoresFlow graph A ∅) (hu : u < graph.length)
    (hv : v < graph.length) (hne : u ≠ v) (hforward : (u, v) ∉ A) (hback : (v, u) ∉ A) :
    StoresFlow (addResidualEdge graph u v 1) (insert (u, v) A) ∅ := by
  have hlength : (addResidualEdge graph u v 1).length = graph.length := by
    rw [addResidualEdge, length_pushEdge, length_pushEdge]
  have hedge := @edge?_addResidualEdge graph u v hu hv hne
  -- an old edge is not parallel to the new arc
  have hold : ∀ a b e, graph.edge? a b = some e → (a, e.target) ≠ (u, v) ∧ (a, e.target) ≠ (v, u) := by
    intro a b e he
    have harc := h.arc a b e he
    refine ⟨fun heq => ?_, fun heq => ?_⟩
    all_goals
      obtain ⟨rfl, htarget⟩ := Prod.mk.inj heq
      rw [htarget] at harc
      exact harc.elim (by assumption) (by assumption)
  refine ⟨?_, ?_, Finset.empty_subset _, ?_, ?_, ?_, ?_, ?_, ?_⟩
  · intro a b hab
    rw [hlength]
    rcases Finset.mem_insert.mp hab with hab | hab
    · obtain ⟨rfl, rfl⟩ := Prod.mk.inj hab
      exact ⟨hu, hv⟩
    · exact h.inside a b hab
  · intro a b hab hba
    rcases Finset.mem_insert.mp hab with hnew | hstored <;>
      rcases Finset.mem_insert.mp hba with hnew' | hstored'
    · obtain ⟨rfl, rfl⟩ := Prod.mk.inj hnew
      exact hne (Prod.mk.inj hnew').2
    · obtain ⟨rfl, rfl⟩ := Prod.mk.inj hnew
      exact hback hstored'
    · obtain ⟨rfl, rfl⟩ := Prod.mk.inj hnew'
      exact hback hstored
    · exact h.oneWay a b hstored hstored'
  · intro a b e he
    rcases hedge.mp he with ⟨rfl, -, rfl⟩ | ⟨rfl, -, rfl⟩ | he
    · exact .inl (Finset.mem_insert_self _ _)
    · exact .inr (Finset.mem_insert_self _ _)
    · exact (h.arc a b e he).imp Finset.mem_insert_of_mem Finset.mem_insert_of_mem
  · intro a b e he
    rcases hedge.mp he with ⟨rfl, -, rfl⟩ | ⟨rfl, -, rfl⟩ | he
    · simp
    · simp [hne, Ne.symm hne, hback]
    · simp only [h.initial a b e he, Finset.mem_insert, or_iff_right (hold a b e he).1]
  · intro a b e he
    rcases hedge.mp he with ⟨rfl, -, rfl⟩ | ⟨rfl, -, rfl⟩ | he
    · simp [residualCapacity]
    · simp [residualCapacity, hne, Ne.symm hne, hback]
    · simp only [h.capacity a b e he, residualCapacity, Finset.mem_insert,
        or_iff_right (hold a b e he).1]
  · intro a b e he
    rcases hedge.mp he with ⟨rfl, rfl, rfl⟩ | ⟨rfl, rfl, rfl⟩ | he
    · exact ⟨_, hedge.mpr (.inr (.inl ⟨rfl, rfl, rfl⟩)), rfl, rfl⟩
    · exact ⟨_, hedge.mpr (.inl ⟨rfl, rfl, rfl⟩), rfl, rfl⟩
    · obtain ⟨e', he', hback'⟩ := h.paired a b e he
      exact ⟨e', hedge.mpr (.inr (.inr he')), hback'⟩
  · intro a b hab
    by_cases hnew : (a, b) = (u, v) ∨ (b, a) = (u, v)
    · rcases hnew with hnew | hnew
      · obtain ⟨rfl, rfl⟩ := Prod.mk.inj hnew
        exact ⟨_, _, hedge.mpr (.inl ⟨rfl, rfl, rfl⟩), rfl⟩
      · obtain ⟨rfl, rfl⟩ := Prod.mk.inj hnew
        exact ⟨_, _, hedge.mpr (.inr (.inl ⟨rfl, rfl, rfl⟩)), rfl⟩
    · rw [not_or] at hnew
      rw [Finset.mem_insert, or_iff_right hnew.1, Finset.mem_insert, or_iff_right hnew.2] at hab
      obtain ⟨j, e, he, htarget⟩ := h.complete a b hab
      exact ⟨j, e, hedge.mpr (.inr (.inr he)), htarget⟩
  · intro a b c e e' he he' htarget
    rcases hedge.mp he with ⟨rfl, rfl, rfl⟩ | ⟨rfl, rfl, rfl⟩ | hstored <;>
      rcases hedge.mp he' with ⟨hplace, rfl, rfl⟩ | ⟨hplace, rfl, rfl⟩ | hstored'
    · rfl
    · exact absurd hplace hne
    · exact absurd (by rw [← htarget]) (hold a c e' hstored').1
    · exact absurd hplace (Ne.symm hne)
    · rfl
    · exact absurd (by rw [← htarget]) (hold a c e' hstored').2
    · exact absurd (by rw [htarget, hplace]) (hold a b e hstored).1
    · exact absurd (by rw [htarget, hplace]) (hold a b e hstored).2
    · exact h.simple a b c e e' hstored hstored' htarget

lemma storesFlow_foldl {arcs : List (ℕ × ℕ)} (h : StoresFlow graph A ∅) (hnodup : arcs.Nodup)
    (hinside : ∀ arc ∈ arcs, arc.1 < graph.length ∧ arc.2 < graph.length)
    (hnew : ∀ arc ∈ arcs, arc ∉ A ∧ arc.swap ∉ A) (honeWay : ∀ arc ∈ arcs, arc.swap ∉ arcs) :
    StoresFlow (arcs.foldl (fun graph arc => addResidualEdge graph arc.1 arc.2 1) graph)
      (A ∪ arcs.toFinset) ∅ := by
  induction arcs generalizing graph A with
  | nil => simpa using h
  | cons arc rest ih =>
    obtain ⟨u, v⟩ := arc
    have hlength : (addResidualEdge graph u v 1).length = graph.length := by
      rw [addResidualEdge, length_pushEdge, length_pushEdge]
    obtain ⟨hu, hv⟩ := hinside (u, v) mem_cons_self
    obtain ⟨hforward, hback⟩ := hnew (u, v) mem_cons_self
    have hne : u ≠ v := by
      rintro rfl
      exact honeWay (u, u) mem_cons_self mem_cons_self
    rw [nodup_cons] at hnodup
    have hnext := ih (storesFlow_addResidualEdge h hu hv hne hforward hback) hnodup.2
      (fun arc harc => hlength ▸ hinside arc (mem_cons_of_mem _ harc)) ?_
      (fun arc harc hswap => honeWay arc (mem_cons_of_mem _ harc) (mem_cons_of_mem _ hswap))
    · rw [foldl_cons, toFinset_cons, ← Finset.insert_union_comm]
      exact hnext
    · intro arc harc
      have hold := hnew arc (mem_cons_of_mem _ harc)
      simp only [Finset.mem_insert, not_or]
      refine ⟨⟨fun heq => hnodup.1 (heq ▸ harc), hold.1⟩, fun heq => ?_, hold.2⟩
      exact honeWay arc (mem_cons_of_mem _ harc) (heq ▸ mem_cons_self)

end AddEdge

section MoveUnit

variable {graph : ResidualGraph} {A F : Finset (ℕ × ℕ)} {u i : ℕ} {e : ResidualEdge}

lemma target_moveUnit {v j a b : ℕ} :
    ((graph.moveUnit u i v j).edge? a b).map ResidualEdge.target =
      (graph.edge? a b).map ResidualEdge.target := by
  rw [edge?_moveUnit, Option.map_map]
  rfl

lemma residualCapacity_push_of_ne {v x y : ℕ} (hforward : (x, y) ≠ (u, v)) (hback : (x, y) ≠ (v, u)) :
    residualCapacity A (push F u v) x y = residualCapacity A F x y := by
  have hswap : (y, x) ≠ (u, v) ∧ (y, x) ≠ (v, u) := by
    simp only [ne_eq, Prod.mk.injEq] at hforward hback ⊢
    exact ⟨fun hc => hback ⟨hc.2, hc.1⟩, fun hc => hforward ⟨hc.2, hc.1⟩⟩
  simp only [residualCapacity, mem_push_of_ne hforward hback, mem_push_of_ne hswap.1 hswap.2]

section

variable (h : StoresFlow graph A F) (he : graph.edge? u i = some e) (hres : Residual A F u e.target)
include h he hres

lemma StoresFlow.residualCapacity_push :
    residualCapacity A (push F u e.target) u e.target = residualCapacity A F u e.target - 1 ∧
    residualCapacity A (push F u e.target) e.target u = residualCapacity A F e.target u + 1 := by
  rcases h.arc u i e he with hA | hA
  · have hback : (e.target, u) ∉ A := h.oneWay _ _ hA
    have hbackF : (e.target, u) ∉ F := fun hF => hback (h.flow hF)
    have hfree : (u, e.target) ∉ F := by
      rcases hres with hfree | hF
      · exact hfree.2
      · exact absurd hF hbackF
    simp [residualCapacity, push, hA, hback, hbackF, hfree]
  · have hforward : (u, e.target) ∉ A := h.oneWay _ _ hA
    have hF : (e.target, u) ∈ F := by
      rcases hres with hfree | hF
      · exact absurd hfree.1 hforward
      · exact hF
    simp [residualCapacity, push, hA, hforward, hF]

/-- Moving a unit over an edge with capacity pushes it over the arc. -/
theorem StoresFlow.moveUnit :
    StoresFlow (graph.moveUnit u i e.target e.reverseIndex) A (push F u e.target) := by
  -- every edge of the new graph is one of the old graph with another capacity
  have hold : ∀ {a b e'}, (graph.moveUnit u i e.target e.reverseIndex).edge? a b = some e' →
      ∃ e₀, graph.edge? a b = some e₀ ∧ e'.target = e₀.target ∧ e'.reverseIndex = e₀.reverseIndex ∧
        e'.initialCapacity = e₀.initialCapacity ∧
        e'.capacity = if e.target = a ∧ e.reverseIndex = b
          then (if u = a ∧ i = b then e₀.capacity - 1 else e₀.capacity) + 1
          else if u = a ∧ i = b then e₀.capacity - 1 else e₀.capacity := by
    intro a b e' he'
    rw [edge?_moveUnit] at he'
    obtain ⟨e₀, he₀, rfl⟩ := Option.map_eq_some_iff.mp he'
    exact ⟨e₀, he₀, rfl, rfl, rfl, rfl⟩
  have hnew : ∀ {a b e₀}, graph.edge? a b = some e₀ →
      ∃ e', (graph.moveUnit u i e.target e.reverseIndex).edge? a b = some e' ∧
        e'.target = e₀.target ∧ e'.reverseIndex = e₀.reverseIndex := by
    intro a b e₀ he₀
    rw [edge?_moveUnit, he₀]
    exact ⟨_, rfl, rfl, rfl⟩
  obtain ⟨er, her, hertarget, herindex⟩ := h.paired u i e he
  have hloop : e.target ≠ u := by
    intro heq
    have harc := h.arc u i e he
    rw [heq, or_self] at harc
    exact h.oneWay u u harc harc
  refine ⟨?_, h.oneWay, push_sub h.flow hres, ?_, ?_, ?_, ?_, ?_, ?_⟩
  · rw [length_moveUnit]
    exact h.inside
  · intro a b e' he'
    obtain ⟨e₀, he₀, htarget, -⟩ := hold he'
    rw [htarget]
    exact h.arc a b e₀ he₀
  · intro a b e' he'
    obtain ⟨e₀, he₀, htarget, -, hinitial, -⟩ := hold he'
    rw [htarget, hinitial]
    exact h.initial a b e₀ he₀
  · intro a b e' he'
    obtain ⟨e₀, he₀, htarget, -, -, hcapacity⟩ := hold he'
    rw [hcapacity, htarget]
    obtain ⟨hspent, hgained⟩ := h.residualCapacity_push he hres
    by_cases hforward : u = a ∧ i = b
    · obtain ⟨rfl, rfl⟩ := hforward
      obtain rfl : e = e₀ := Option.some.inj (he.symm.trans he₀)
      rw [if_neg fun hc => hloop hc.1, if_pos ⟨rfl, rfl⟩, hspent, h.capacity u i e he]
    · rw [if_neg hforward]
      by_cases hback : e.target = a ∧ e.reverseIndex = b
      · obtain ⟨rfl, rfl⟩ := hback
        obtain rfl : er = e₀ := Option.some.inj (her.symm.trans he₀)
        rw [if_pos ⟨rfl, rfl⟩, hertarget, hgained, h.capacity _ _ er her, hertarget]
      · rw [if_neg hback, h.capacity a b e₀ he₀]
        -- another place holds an edge between other vertices
        refine (residualCapacity_push_of_ne (fun heq => ?_) fun heq => ?_).symm
        · obtain ⟨rfl, hsame⟩ := Prod.mk.inj heq
          exact hforward ⟨rfl, h.simple a i b e e₀ he he₀ hsame.symm⟩
        · obtain ⟨rfl, hsame⟩ := Prod.mk.inj heq
          exact hback ⟨rfl, h.simple _ _ b er e₀ her he₀ (hertarget.trans hsame.symm)⟩
  · intro a b e' he'
    obtain ⟨e₀, he₀, htarget, hindex, -⟩ := hold he'
    obtain ⟨e₁, he₁, hback⟩ := h.paired a b e₀ he₀
    obtain ⟨e₂, he₂, htarget₂, hindex₂⟩ := hnew he₁
    rw [htarget, hindex]
    exact ⟨e₂, he₂, htarget₂.trans hback.1, hindex₂.trans hback.2⟩
  · intro a b hab
    obtain ⟨j, e₀, he₀, htarget⟩ := h.complete a b hab
    obtain ⟨e', he', htarget', -⟩ := hnew he₀
    exact ⟨j, e', he', htarget'.trans htarget⟩
  · intro a b c e₁ e₂ he₁ he₂ htarget
    obtain ⟨e₃, he₃, htarget₃, -⟩ := hold he₁
    obtain ⟨e₄, he₄, htarget₄, -⟩ := hold he₂
    exact h.simple a b c e₃ e₄ he₃ he₄ (by rw [← htarget₃, ← htarget₄, htarget])

end

end MoveUnit

/-! ## Augmenting -/

section Augment

variable {graph : ResidualGraph} {A F : Finset (ℕ × ℕ)} {source sink : ℕ}

variable {usable : ℕ → ℕ → ResidualEdge → Bool}

lemma mem_usableTargets {a b : ℕ} {place : ℕ × ℕ} :
    (b, place) ∈ usableTargets graph usable a ↔
    place.1 = a ∧ ∃ e, graph.edge? a place.2 = some e ∧ e.target = b ∧ usable a place.2 e = true := by
  obtain ⟨c, j⟩ := place
  simp only [usableTargets, mem_map, mem_filter, Prod.exists, Prod.mk.injEq, mem_zipIdx_iff_getElem?,
    edge?]
  constructor
  · rintro ⟨e, i, ⟨he, husable⟩, rfl, rfl, rfl⟩
    exact ⟨rfl, e, he, rfl, husable⟩
  · rintro ⟨rfl, e, he, rfl, husable⟩
    exact ⟨e, j, ⟨he, husable⟩, rfl, rfl, rfl⟩

variable {r : ℕ → ℕ → Prop}

lemma search_edges (usable : ℕ → ℕ → ResidualEdge → Bool) (h : StoresFlow graph A F)
    (hr : ∀ a i e, graph.edge? a i = some e → (usable a i e = true ↔ r a e.target))
    (hsub : ∀ a b, r a b → (a, b) ∈ A ∨ (b, a) ∈ A) (hsource : source < graph.length)
    (hne : source ≠ sink) :
    Search.Found (fun current _ => usableTargets graph usable current) Prod.fst r source sink
      (searchEdges graph usable source sink) := by
  refine Search.search_path (fun v => decide (v = sink)) _ Prod.fst source (source, usizeMax) (by simp)
    ?_ ?_ (Finset.range graph.length) ?_ (Finset.mem_range.mpr hsource) (by simp) hne
  · intro a l b
    constructor
    · rintro ⟨place, hmem⟩
      obtain ⟨-, e, he, rfl, husable⟩ := mem_usableTargets.mp hmem
      exact (hr a _ e he).mp husable
    · intro hab
      obtain ⟨i, e, he, rfl⟩ := h.complete a b (hsub a b hab)
      exact ⟨(a, i), mem_usableTargets.mpr ⟨rfl, e, he, rfl, (hr a i e he).mpr hab⟩⟩
  · rintro a l ⟨b, place⟩ hmem
    exact (mem_usableTargets.mp hmem).1
  · intro a _ b hab
    rcases hsub a b hab with hA | hA
    · exact Finset.mem_range.mpr (h.inside a b hA).2
    · exact Finset.mem_range.mpr (h.inside b a hA).1

lemma places_of_found {labels : TreeMap ℕ (ℕ × ℕ)} {trail : List ℕ}
    (h : Trail (fun x y => r x y ∧ y ≠ source ∧ ∃ l, labels[y]? = some l ∧ l.1 = x ∧
      ∃ _ : ℕ × ℕ, (y, l) ∈ usableTargets graph usable x) source sink trail) :
    Trail (fun x y => y ≠ source ∧ ∃ i, labels[y]? = some (x, i) ∧
      (graph.edge? x i).map ResidualEdge.target = some y) source sink trail := by
  refine h.mono fun x _ y _ hxy => ?_
  obtain ⟨-, hy, ⟨_, i⟩, hlabel, rfl, -, hmem⟩ := hxy
  obtain ⟨-, e, he, htarget, -⟩ := mem_usableTargets.mp hmem
  exact ⟨hy, i, hlabel, by rw [he, Option.map_some, htarget]⟩

lemma exists_closed_set (hunlabelled : sink ∉ (searchEdges graph usable source sink).labels)
    (hclosed : ∀ u ∈ (searchEdges graph usable source sink).labels, ∀ v, r u v →
      v ∈ (searchEdges graph usable source sink).labels) :
    ∃ R : Finset ℕ, source ∈ R ∧ sink ∉ R ∧ ∀ u ∈ R, ∀ v, r u v → v ∈ R := by
  have hsource : source ∈ (searchEdges graph usable source sink).labels := by
    refine OrderedMap.mem_of_getElem? (v := (source, usizeMax)) (Search.loop_keeps ?_)
    exact (OrderedMap.getElem?_ofList (by simp)).mpr (by simp)
  refine ⟨(searchEdges graph usable source sink).labels.keys.toFinset, ?_, ?_, ?_⟩
  · rwa [mem_toFinset, TreeMap.mem_keys]
  · rwa [mem_toFinset, TreeMap.mem_keys]
  · intro u hu v huv
    rw [mem_toFinset, TreeMap.mem_keys] at hu ⊢
    exact hclosed u hu v huv

lemma pushAlong_trail {predecessor : TreeMap ℕ (ℕ × ℕ)} {trail : List ℕ} {cursor fuel : ℕ}
    (h : StoresFlow graph A F) (htrail : Trail (fun x y => Residual A F x y) source cursor trail)
    (hplaces : Trail (fun x y => y ≠ source ∧ ∃ i, predecessor[y]? = some (x, i) ∧
      (graph.edge? x i).map ResidualEdge.target = some y) source cursor trail)
    (hnodup : trail.Nodup) (hfuel : trail.length ≤ fuel) :
    ∃ graph', pushAlong source predecessor fuel graph cursor = some graph' ∧
      graph'.length = graph.length ∧ StoresFlow graph' A (pushTrail F trail) := by
  induction trail using List.reverseRecOn generalizing cursor fuel graph F with
  | nil => cases htrail.head
  | append_singleton init c ih =>
    rw [length_append, length_singleton] at hfuel
    obtain ⟨fuel, rfl⟩ : ∃ n, fuel = n + 1 := ⟨fuel - 1, by omega⟩
    obtain ⟨rfl, ⟨rfl, rfl⟩ | ⟨d, hinit, hne, i, hpred, htarget⟩⟩ := hplaces.of_concat
    · exact ⟨graph, by simp [pushAlong], rfl, h⟩
    · obtain ⟨e, he, rfl⟩ := Option.map_eq_some_iff.mp htarget
      obtain ⟨-, ⟨rfl, -⟩ | ⟨d', hinit', hlink⟩⟩ := htrail.of_concat
      · cases hinit.head
      · obtain rfl : d' = d := Option.some.inj (hinit'.last.symm.trans hinit.last)
        rw [nodup_append] at hnodup
        have hc : e.target ∉ init := fun hmem => hnodup.2.2 _ hmem _ (by simp) rfl
        have hrest : Trail (fun x y => y ≠ source ∧ ∃ j, predecessor[y]? = some (x, j) ∧
            ((graph.moveUnit d' i e.target e.reverseIndex).edge? x j).map ResidualEdge.target = some y)
            source d' init := by
          refine hinit.mono fun x _ y _ hxy => ?_
          simp only [target_moveUnit]
          exact hxy
        have hfuel' : init.length ≤ fuel := by omega
        obtain ⟨graph', hpush, hlength, hstores⟩ := ih (h.moveUnit he hlink) (residual_init hinit' hc) hrest
          hnodup.1 hfuel'
        refine ⟨graph', ?_, ?_, ?_⟩
        · rw [pushAlong, if_neg hne, hpred]
          dsimp only
          rw [he]
          exact hpush
        · rw [hlength, length_moveUnit]
        · rw [pushTrail_concat hinit.last]
          exact hstores

/-- `augment_unit_flow` pushes a unit along a walk of the residual graph; if it fails, the residual
graph does not leave some set around the source. -/
theorem augmentUnitFlow_spec (h : StoresFlow graph A F) (hsource : source < graph.length)
    (hne : source ≠ sink) :
    (∃ graph' trail, augmentUnitFlow graph source sink = some graph' ∧ graph'.length = graph.length ∧
      Trail (Residual A F) source sink trail ∧ trail.Nodup ∧ StoresFlow graph' A (pushTrail F trail)) ∨
    (augmentUnitFlow graph source sink = none ∧ ∃ R : Finset ℕ, source ∈ R ∧ sink ∉ R ∧
      ∀ u ∈ R, ∀ v, Residual A F u v → v ∈ R) := by
  have hsearch := search_edges (fun _ _ edge => decide (edge.capacity ≠ 0)) h
    (fun a i e he => by simpa using h.capacity_ne_zero he) (fun a b => h.residual_arc) hsource hne
  rw [augmentUnitFlow]
  cases hsearch with
  | nothing hfound hunlabelled hclosed hnone =>
    exact .inr ⟨if_neg (Bool.eq_false_iff.mp hfound), exists_closed_set hunlabelled hclosed⟩
  | path hfound trail hnodup hlabelled htrail hshortest =>
    left
    have hresidual : Trail (Residual A F) source sink trail :=
      htrail.mono fun x _ y _ hxy => hxy.1
    obtain ⟨graph', hpush, hlength, hstores⟩ := pushAlong_trail h hresidual (places_of_found htrail) hnodup
      ((Search.length_le_size hnodup hlabelled).trans (Nat.le_succ _))
    exact ⟨graph', trail, by rw [if_pos hfound, hpush], hlength, hresidual, hnodup, hstores⟩

end Augment

/-! ## Taking paths out -/

section Extract

variable {graph : ResidualGraph} {A F G : Finset (ℕ × ℕ)} {source sink : ℕ}
  {remaining : List (List ℕ)}

def Remains (graph : ResidualGraph) (remaining : List (List ℕ)) (G : Finset (ℕ × ℕ)) : Prop :=
  ∀ u i e, graph.edge? u i = some e → flowAt remaining u i = if (u, e.target) ∈ G then 1 else 0

lemma flowAt_remainingFlow (graph : ResidualGraph) (u i : ℕ) : flowAt (remainingFlow graph) u i =
    ((graph.edge? u i).map fun e => e.initialCapacity - e.capacity).getD 0 := by
  rw [flowAt, remainingFlow, edge?, row_eq, getD_eq_getElem?_getD, getD_eq_getElem?_getD,
    getElem?_map]
  cases graph[u]? with
  | none | some => simp

lemma remains_remainingFlow (h : StoresFlow graph A F) : Remains graph (remainingFlow graph) F := by
  intro u i e he
  rw [flowAt_remainingFlow, he, Option.map_some, Option.getD_some, h.initial u i e he,
    h.capacity u i e he, residualCapacity]
  by_cases hA : (u, e.target) ∈ A
  · by_cases hF : (u, e.target) ∈ F <;> simp [hA, hF]
  · have hF : (u, e.target) ∉ F := fun hF => hA (h.flow hF)
    simp [hA, hF]

lemma flowAt_modify {u i v j : ℕ} :
    flowAt (remaining.modify v fun row => row.modify j fun flow => flow - 1) u i =
    if v = u ∧ j = i then flowAt remaining u i - 1 else flowAt remaining u i := by
  rw [flowAt, flowAt, getD_eq_getElem?_getD, getD_eq_getElem?_getD,
    getD_eq_getElem?_getD, getD_eq_getElem?_getD, getElem?_modify]
  by_cases hvu : v = u
  · subst hvu
    cases remaining[v]? with
    | none => simp
    | some row =>
      by_cases hji : j = i
      · subst hji
        cases hrow : row[j]? with
        | none | some => simp [hrow]
      · simp [hji]
  · cases remaining[u]? with
    | none | some => simp [hvu]

section

variable (h : StoresFlow graph A F) (hremains : Remains graph remaining G)
include h hremains

lemma Remains.erase {u i : ℕ}
    {e : ResidualEdge} (he : graph.edge? u i = some e) (hG : (u, e.target) ∈ G) :
    Remains graph (remaining.modify u fun row => row.modify i fun flow => flow - 1)
      (G.erase (u, e.target)) := by
  intro a b e' he'
  rw [flowAt_modify, hremains a b e' he']
  by_cases hplace : u = a ∧ i = b
  · obtain ⟨rfl, rfl⟩ := hplace
    obtain rfl : e = e' := Option.some.inj (he.symm.trans he')
    simp [hG]
  · have hother : (a, e'.target) ≠ (u, e.target) := by
      intro heq
      obtain ⟨rfl, hsame⟩ := Prod.mk.inj heq
      exact hplace ⟨rfl, h.simple a i b e e' he he' hsame.symm⟩
    rw [if_neg hplace]
    simp only [Finset.mem_erase, hother, ne_eq, not_false_eq_true, true_and]

lemma takeAlong_trail {predecessor : TreeMap ℕ (ℕ × ℕ)} {trail : List ℕ} {cursor fuel : ℕ}
    (htrail : Trail (fun x y => (x, y) ∈ G) source cursor trail)
    (hplaces : Trail (fun x y => y ≠ source ∧ ∃ i, predecessor[y]? = some (x, i) ∧
      (graph.edge? x i).map ResidualEdge.target = some y) source cursor trail)
    (hnodup : trail.Nodup) (hfuel : trail.length ≤ fuel) (rest : List ℕ) :
    ∃ remaining', takeAlong source predecessor fuel remaining cursor (cursor :: rest) =
        some (trail ++ rest, remaining') ∧ Remains graph remaining' (dropTrail G trail) := by
  induction trail using List.reverseRecOn generalizing cursor fuel remaining G rest with
  | nil => cases htrail.head
  | append_singleton init c ih =>
    rw [length_append, length_singleton] at hfuel
    obtain ⟨fuel, rfl⟩ : ∃ n, fuel = n + 1 := ⟨fuel - 1, by omega⟩
    obtain ⟨rfl, ⟨rfl, rfl⟩ | ⟨d, hinit, hne, i, hpred, htarget⟩⟩ := hplaces.of_concat
    · exact ⟨remaining, by simp [takeAlong], hremains⟩
    · obtain ⟨e, he, rfl⟩ := Option.map_eq_some_iff.mp htarget
      obtain ⟨-, ⟨rfl, -⟩ | ⟨d', hinit', hlink⟩⟩ := htrail.of_concat
      · cases hinit.head
      · obtain rfl : d' = d := Option.some.inj (hinit'.last.symm.trans hinit.last)
        rw [nodup_append] at hnodup
        have hc : e.target ∉ init := fun hmem => hnodup.2.2 _ hmem _ (by simp) rfl
        have hfuel' : init.length ≤ fuel := by omega
        obtain ⟨remaining', htake, hnext⟩ := ih (hremains.erase h he hlink) (arc_init hinit' hc)
          hinit hnodup.1 hfuel' (e.target :: rest)
        refine ⟨remaining', ?_, ?_⟩
        · rw [takeAlong, if_neg hne, hpred]
          dsimp only
          rw [htake, append_assoc]
          rfl
        · rw [dropTrail_concat hinit.last]
          exact hnext

/-- As long as the remaining flow has value, `extract_flow_path` takes a walk out of it. -/
theorem extractFlowPath_spec
    (hsub : G ⊆ A) (hsource : source < graph.length) (hne : source ≠ sink) {k : ℤ}
    (hcarries : Carries G source sink k) (hk : 0 < k) :
    ∃ trail remaining', extractFlowPath graph remaining source sink = some (trail, remaining') ∧
      Trail (fun x y => (x, y) ∈ G) source sink trail ∧ trail.Nodup ∧
      Remains graph remaining' (dropTrail G trail) := by
  have hsearch := search_edges (r := fun x y => (x, y) ∈ G)
    (fun current i _ => decide (flowAt remaining current i ≠ 0)) h (fun a i e he => by simp [hremains a i e he])
    (fun a b hab => .inl (hsub hab)) hsource hne
  rw [extractFlowPath]
  cases hsearch with
  | nothing hfound hunlabelled hclosed hnone =>
    -- the vertices reached would be a set that the flow does not leave
    obtain ⟨R, hS, hT, hstays⟩ := exists_closed_set hunlabelled hclosed
    obtain ⟨⟨u, v⟩, harc, hu, hv⟩ := exists_arc_out hcarries hk hS hT
    exact absurd (hstays u hu v harc) hv
  | path hfound trail hnodup hlabelled htrail hshortest =>
    have harcs : Trail (fun x y => (x, y) ∈ G) source sink trail :=
      htrail.mono fun x _ y _ hxy => hxy.1
    obtain ⟨remaining', htake, hnext⟩ := takeAlong_trail h hremains harcs (places_of_found htrail) hnodup
      ((Search.length_le_size hnodup hlabelled).trans (Nat.le_succ _)) []
    refine ⟨trail, remaining', ?_, harcs, hnodup, hnext⟩
    rw [if_pos hfound, htake, append_nil]

end

end Extract

end HeteroNetwork
