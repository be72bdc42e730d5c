import HeteroNetwork.Lib.UnitFlow

/-!
# Disjoint walks by splitting vertices

To find two walks from `s` to `d` that meet only at their ends, every vertex `i` is split into an
entry `i * 2` and an exit `i * 2 + 1`, joined by one arc of capacity one.  A unit flow over the split
vertices then passes every vertex at most once.
-/

namespace NodeSplit

open Relation

open Search (Trail)
open UnitFlow

/-- The arcs of the split graph: through every vertex other than the ends, and along every link that
neither leaves `d` nor enters `s`. -/
def Splits (A : Finset (ℕ × ℕ)) (link : ℕ → ℕ → Prop) (n s d : ℕ) : Prop :=
  ∀ u v, (u, v) ∈ A ↔ (∃ i, i < n ∧ i ≠ s ∧ i ≠ d ∧ u = i * 2 ∧ v = i * 2 + 1) ∨
    ∃ i j, link i j ∧ i ≠ d ∧ j ≠ s ∧ u = i * 2 + 1 ∧ v = j * 2

/-- A graph over the numbers below `n` that no single vertex separates. -/
structure Robust (link : ℕ → ℕ → Prop) (n : ℕ) : Prop where
  inside : ∀ i j, link i j → i < n ∧ j < n
  third : ∀ a b, ∃ z < n, z ≠ a ∧ z ≠ b
  avoiding : ∀ x < n, ∀ i < n, ∀ j < n, i ≠ x → j ≠ x →
    Relation.ReflTransGen (fun a b => link a b ∧ a ≠ x ∧ b ≠ x) i j

variable {A F : Finset (ℕ × ℕ)} {link : ℕ → ℕ → Prop} {n s d : ℕ}

namespace Splits

variable (h : Splits A link n s d)

include h

lemma through {i : ℕ} (hi : i < n) (hs : i ≠ s) (hd : i ≠ d) : (i * 2, i * 2 + 1) ∈ A :=
  (h _ _).mpr (.inl ⟨i, hi, hs, hd, rfl, rfl⟩)

lemma along {i j : ℕ} (hij : link i j) (hd : i ≠ d) (hs : j ≠ s) : (i * 2 + 1, j * 2) ∈ A :=
  (h _ _).mpr (.inr ⟨i, j, hij, hd, hs, rfl, rfl⟩)

lemma of_along {i j : ℕ} (hmem : (i * 2 + 1, j * 2) ∈ A) : link i j ∧ i ≠ d ∧ j ≠ s := by
  rcases (h _ _).mp hmem with ⟨k, -, -, -, hu, -⟩ | ⟨i', j', hlink, hd, hs, hu, hv⟩
  · omega
  · obtain rfl : i' = i := by omega
    obtain rfl : j' = j := by omega
    exact ⟨hlink, hd, hs⟩

lemma of_entry {i v : ℕ} (hmem : (i * 2, v) ∈ A) : v = i * 2 + 1 := by
  rcases (h _ _).mp hmem with ⟨k, -, -, -, hu, hv⟩ | ⟨i', j', -, -, -, hu, -⟩
  · omega
  · omega

end Splits

/-! ## Augmenting is possible -/

section Cut

variable {arc : ℕ × ℕ}

def Spare (A : Finset (ℕ × ℕ)) (arc : ℕ × ℕ) (u v : ℕ) : Prop := (u, v) ∈ A ∧ (u, v) ≠ arc

section

variable (h : Splits A link n s d) (hrobust : Robust link n) (hsd : s ≠ d) {P : ℕ → Prop}
    (halong : ∀ a b, P a → P b → (a * 2 + 1, b * 2) ∈ A → (a * 2 + 1, b * 2) ≠ arc)
    (hthrough : ∀ b, P b → (b * 2, b * 2 + 1) ∈ A → (b * 2, b * 2 + 1) ≠ arc)
include h hrobust hsd halong hthrough

lemma lift {z w : ℕ} (hz : z ≠ d) (hreach : ReflTransGen (Spare A arc) (s * 2 + 1) (z * 2 + 1))
    (hwalk : ReflTransGen (fun a b => link a b ∧ P a ∧ P b) z w) :
    ReflTransGen (Spare A arc) (s * 2 + 1) (d * 2) ∨
      (w ≠ d ∧ ReflTransGen (Spare A arc) (s * 2 + 1) (w * 2 + 1)) := by
  induction hwalk with
  | refl => exact .inr ⟨hz, hreach⟩
  | @tail a b _ hab ih =>
    obtain ⟨hlink, ha, hb⟩ := hab
    rcases ih with hdone | ⟨had, hreach⟩
    · exact .inl hdone
    · by_cases hbs : b = s
      · subst hbs
        exact .inr ⟨hsd, .refl⟩
      · have hin := h.along hlink had hbs
        have hentry := hreach.tail (⟨hin, halong a b ha hb hin⟩ : Spare A arc _ _)
        by_cases hbd : b = d
        · exact .inl (hbd ▸ hentry)
        · have hout := h.through (hrobust.inside a b hlink).2 hbs hbd
          exact .inr ⟨hbd, hentry.tail ⟨hout, hthrough b hb hout⟩⟩

lemma lift_end {z : ℕ} (hz : z ≠ d) (hreach : ReflTransGen (Spare A arc) (s * 2 + 1) (z * 2 + 1))
    (hwalk : ReflTransGen (fun a b => link a b ∧ P a ∧ P b) z d) :
    ReflTransGen (Spare A arc) (s * 2 + 1) (d * 2) := by
  rcases lift h hrobust hsd halong hthrough hz hreach hwalk with hdone | ⟨hne, -⟩
  · exact hdone
  · exact absurd rfl hne

end

section

variable (h : Splits A link n s d) (hrobust : Robust link n) (hs : s < n) (hd : d < n) (hsd : s ≠ d)
include h hrobust hs hd hsd

lemma spare_reaches (arc : ℕ × ℕ) : ReflTransGen (Spare A arc) (s * 2 + 1) (d * 2) := by
  -- the walk around one vertex does, whenever the arc touches that vertex
  have haround : ∀ x < n, x ≠ s → x ≠ d →
      (∀ a b, a ≠ x → b ≠ x → (a * 2 + 1, b * 2) ∈ A → (a * 2 + 1, b * 2) ≠ arc) →
      (∀ b, b ≠ x → (b * 2, b * 2 + 1) ∈ A → (b * 2, b * 2 + 1) ≠ arc) →
      ReflTransGen (Spare A arc) (s * 2 + 1) (d * 2) := by
    intro x hx hxs hxd halong hthrough
    exact lift_end h hrobust hsd halong hthrough hsd .refl
      (hrobust.avoiding x hx s hs d hd (Ne.symm hxs) (Ne.symm hxd))
  obtain ⟨z, hz, hzs, hzd⟩ := hrobust.third s d
  by_cases harc : arc ∈ A
  · obtain ⟨u, v⟩ := arc
    rcases (h u v).mp harc with ⟨i, hi, his, hid, rfl, rfl⟩ | ⟨i, j, hlink, hid, hjs, rfl, rfl⟩
    · refine haround i hi his hid (fun a b _ _ _ heq => ?_) fun b hb _ heq => ?_
      · have := (Prod.mk.inj heq).1
        omega
      · have := (Prod.mk.inj heq).1
        exact hb (by omega)
    · obtain ⟨hi, hj⟩ := hrobust.inside i j hlink
      by_cases his : i = s
      · subst his
        by_cases hjd : j = d
        · -- the link between the ends: around `d` to a third vertex, and from there around `i`
          subst hjd
          have hfirst : ReflTransGen (Spare A (i * 2 + 1, j * 2)) (i * 2 + 1) (j * 2) ∨
              (z ≠ j ∧ ReflTransGen (Spare A (i * 2 + 1, j * 2)) (i * 2 + 1) (z * 2 + 1)) :=
            lift h hrobust hsd
              (fun a b _ hb _ heq => hb (by have := (Prod.mk.inj heq).2; omega))
              (fun b _ _ heq => by have := (Prod.mk.inj heq).1; omega) hsd .refl
              (hrobust.avoiding j hj i hi z hz hsd hzd)
          rcases hfirst with hdone | ⟨-, hreach⟩
          · exact hdone
          · exact lift_end h hrobust hsd
              (fun a b ha _ _ heq => ha (by have := (Prod.mk.inj heq).1; omega))
              (fun b _ _ heq => by have := (Prod.mk.inj heq).1; omega) hzd hreach
              (hrobust.avoiding i hi z hz j hj hzs (Ne.symm hsd))
        · refine haround j hj hjs hjd (fun a b _ hb _ heq => ?_) fun b _ _ heq => ?_
          · exact hb (by have := (Prod.mk.inj heq).2; omega)
          · have := (Prod.mk.inj heq).1
            omega
      · refine haround i hi his hid (fun a b ha _ _ heq => ?_) fun b _ _ heq => ?_
        · exact ha (by have := (Prod.mk.inj heq).1; omega)
        · have := (Prod.mk.inj heq).1
          omega
  · exact haround z hz hzs hzd (fun a b _ _ hmem heq => harc (heq ▸ hmem))
      fun b _ hmem heq => harc (heq ▸ hmem)

/-- **A flow of value at most one can be augmented.** -/
theorem no_cut (hsub : F ⊆ A) {k : ℤ} (hcarries : Carries F (s * 2 + 1) (d * 2) k) (hk : k ≤ 1)
    {R : Finset ℕ} (hS : s * 2 + 1 ∈ R) (hT : d * 2 ∉ R)
    (hclosed : ∀ u ∈ R, ∀ v, Residual A F u v → v ∈ R) : False := by
  have hcard := card_cut hsub hcarries hS hT hclosed
  -- at most one arc leaves the set, and a walk without that arc stays inside
  obtain ⟨arc, harc⟩ := Finset.card_le_one_iff_subset_singleton.mp
    (show (A.filter fun arc => arc.1 ∈ R ∧ arc.2 ∉ R).card ≤ 1 by omega)
  have hstays : ∀ v, ReflTransGen (Spare A arc) (s * 2 + 1) v → v ∈ R := by
    intro v hreach
    induction hreach with
    | refl => exact hS
    | @tail u v _ huv ih =>
      by_contra hv
      have hleaving : (u, v) ∈ A.filter fun arc => arc.1 ∈ R ∧ arc.2 ∉ R :=
        Finset.mem_filter.mpr ⟨huv.1, ih, hv⟩
      exact huv.2 (Finset.mem_singleton.mp (harc hleaving))
  exact hT (hstays _ (spare_reaches h hrobust hs hd hsd arc))

end

end Cut

/-! ## The vertices on a walk -/

section Nodes

/-- The vertex that a step of the split graph enters. -/
def entered (arc : ℕ × ℕ) : Option ℕ :=
  if arc.1 % 2 = 1 ∧ arc.2 % 2 = 0 then some (arc.2 / 2) else none

def nodes (s : ℕ) (p : List ℕ) : List ℕ := s :: (arcs p).filterMap entered

lemma entered_eq_some {u v j : ℕ} : entered (u, v) = some j ↔ ∃ i, u = i * 2 + 1 ∧ v = j * 2 := by
  rw [entered]
  split_ifs with hparity
  · simp only [Option.some.injEq]
    constructor
    · intro hj
      exact ⟨u / 2, by omega, by omega⟩
    · rintro ⟨i, rfl, rfl⟩
      omega
  · simp only [false_iff, not_exists, not_and]
    rintro i rfl rfl
    exact hparity ⟨by omega, by omega⟩

lemma mem_nodes {p : List ℕ} {j : ℕ} : j ∈ nodes s p ↔ j = s ∨ ∃ i, (i * 2 + 1, j * 2) ∈ arcs p := by
  rw [nodes, List.mem_cons, List.mem_filterMap]
  refine or_congr Iff.rfl ⟨?_, ?_⟩
  · rintro ⟨⟨u, v⟩, hmem, hentered⟩
    obtain ⟨i, rfl, rfl⟩ := entered_eq_some.mp hentered
    exact ⟨i, hmem⟩
  · rintro ⟨i, hmem⟩
    exact ⟨_, hmem, entered_eq_some.mpr ⟨i, rfl, rfl⟩⟩

lemma nodes_concat {p : List ℕ} {u v : ℕ} (hlast : p.getLast? = some u) :
    nodes s (p ++ [v]) = nodes s p ++ (entered (u, v)).toList := by
  rw [nodes, arcs_concat hlast, List.filterMap_append, nodes, List.cons_append]
  cases hentered : entered (u, v) <;> simp [hentered]

theorem trail_nodes (h : Splits A link n s d) {p : List ℕ} {v : ℕ}
    (htrail : Trail (fun u v => (u, v) ∈ A) (s * 2 + 1) v p) (hnodup : p.Nodup) :
    Trail (fun i j => link i j ∧ (i * 2 + 1, j * 2) ∈ arcs p) s (v / 2) (nodes s p) ∧
      (nodes s p).Nodup := by
  induction p using List.reverseRecOn generalizing v with
  | nil => cases htrail.head
  | append_singleton init c ih =>
    obtain ⟨rfl, ⟨rfl, rfl⟩ | ⟨u, hinit, hlink⟩⟩ := htrail.of_concat
    · have hhalf : (s * 2 + 1) / 2 = s := by omega
      rw [hhalf]
      exact ⟨.single s, by simp [nodes, arcs]⟩
    · rw [List.nodup_append] at hnodup
      obtain ⟨hnodes, hdistinct⟩ := ih hinit hnodup.1
      have hfresh : ∀ i, (i, c) ∉ arcs init := fun i hmem =>
        hnodup.2.2 c (mem_of_mem_arcs hmem).2 c (by simp) rfl
      rw [arcs_concat hinit.last, nodes_concat hinit.last]
      have hgrown : Trail (fun i j => link i j ∧ (i * 2 + 1, j * 2) ∈ arcs init ++ [(u, c)]) s
          (u / 2) (nodes s init) :=
        hnodes.mono fun i _ j _ hij => ⟨hij.1, List.mem_append_left _ hij.2⟩
      rcases (h u c).mp hlink with ⟨i, -, -, -, rfl, rfl⟩ | ⟨i, j, hij, -, hjs, rfl, rfl⟩
      · -- from the entry of a vertex to its exit
        have hhalf : (i * 2 + 1) / 2 = i * 2 / 2 := by omega
        have hnone : entered (i * 2, i * 2 + 1) = none := by
          rw [entered, if_neg (by omega)]
        rw [hnone, Option.toList_none, List.append_nil, hhalf]
        exact ⟨hgrown, hdistinct⟩
      · have hhalf : (i * 2 + 1) / 2 = i := by omega
        have hhalf' : j * 2 / 2 = j := by omega
        rw [entered_eq_some.mpr ⟨i, rfl, rfl⟩, hhalf']
        rw [hhalf] at hgrown
        refine ⟨hgrown.concat ⟨hij, by simp⟩, ?_⟩
        refine List.nodup_append.mpr ⟨hdistinct, by simp, ?_⟩
        rintro x hx y hy rfl
        obtain rfl : x = j := by simpa using hy
        rcases mem_nodes.mp hx with rfl | ⟨i', hmem⟩
        · exact hjs rfl
        · exact hfresh _ hmem

lemma exists_arc_of_mem {r : ℕ → ℕ → Prop} {p : List ℕ} {a b u : ℕ} (h : Trail r a b p) (hu : u ∈ p)
    (hne : u ≠ b) : ∃ v, (u, v) ∈ arcs p := by
  induction p using List.reverseRecOn generalizing b with
  | nil => cases hu
  | append_singleton init c ih =>
    obtain ⟨rfl, ⟨rfl, rfl⟩ | ⟨e, hinit, -⟩⟩ := h.of_concat
    · exact absurd (by simpa using hu) hne
    · rw [arcs_concat hinit.last]
      have hmem : u ∈ init := by simpa [hne] using hu
      by_cases hue : u = e
      · exact ⟨c, by simp [hue]⟩
      · obtain ⟨v, hv⟩ := ih hinit hmem hue
        exact ⟨v, List.mem_append_left _ hv⟩

variable {p q : List ℕ} (h : Splits A link n s d)
  (hp : Trail (fun u v => (u, v) ∈ A) (s * 2 + 1) (d * 2) p)
  (hq : Trail (fun u v => (u, v) ∈ A) (s * 2 + 1) (d * 2) q)
  (hdisjoint : ∀ arc ∈ arcs p, arc ∉ arcs q)

include h hp in
lemma through_of_mem_nodes {x : ℕ} (hx : x ∈ nodes s p) (hs : x ≠ s) (hd : x ≠ d) :
    (x * 2, x * 2 + 1) ∈ arcs p := by
  rcases mem_nodes.mp hx with rfl | ⟨i, hmem⟩
  · exact absurd rfl hs
  · obtain ⟨v, hv⟩ := exists_arc_of_mem hp (mem_of_mem_arcs hmem).2 (by omega)
    rwa [h.of_entry (step_of_mem_arcs hp hv)] at hv

include h hp hq hdisjoint in
theorem nodes_disjoint {x : ℕ} (hxp : x ∈ nodes s p) (hxq : x ∈ nodes s q) : x = s ∨ x = d := by
  by_contra hends
  rw [not_or] at hends
  exact hdisjoint _ (through_of_mem_nodes h hp hxp hends.1 hends.2)
    (through_of_mem_nodes h hq hxq hends.1 hends.2)

include h hp hq hdisjoint in
theorem steps_disjoint {i j : ℕ} (hip : (i * 2 + 1, j * 2) ∈ arcs p) (hi : i ∈ nodes s p)
    (hiq : i ∈ nodes s q) : (i * 2 + 1, j * 2) ∉ arcs q ∧ (j * 2 + 1, i * 2) ∉ arcs q := by
  refine ⟨hdisjoint _ hip, fun hback => ?_⟩
  -- the walks share `i`, which is an end; nothing leaves `d` and nothing enters `s`
  rcases nodes_disjoint h hp hq hdisjoint hi hiq with rfl | rfl
  · exact (h.of_along (step_of_mem_arcs hq hback)).2.2 rfl
  · exact (h.of_along (step_of_mem_arcs hp hip)).2.1 rfl

end Nodes

end NodeSplit
