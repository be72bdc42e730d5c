import HeteroNetwork.Lib.SearchPaths

/-!
# Unit flows

A flow over arcs of capacity one is a set of arcs.  Pushing a unit along a walk of the residual graph raises
its value by one (`net_pushTrail`), and a set of vertices that the residual graph does not leave is a cut of
that value (`card_cut`).
-/

namespace UnitFlow

open List

open Search (Trail)

variable {α : Type*} [DecidableEq α] {A F : Finset (α × α)} {S T a b u v x y : α} {k : ℤ}
  {p : List α}

def net (F : Finset (α × α)) (x : α) : ℤ :=
  ∑ arc ∈ F, ((if arc.1 = x then 1 else 0) - (if arc.2 = x then 1 else 0))

lemma net_insert (h : (u, v) ∉ F) (x : α) :
    net (insert (u, v) F) x = net F x + ((if u = x then 1 else 0) - (if v = x then 1 else 0)) := by
  rw [net, Finset.sum_insert h, net]
  ring

lemma net_erase (h : (u, v) ∈ F) (x : α) :
    net (F.erase (u, v)) x = net F x - ((if u = x then 1 else 0) - (if v = x then 1 else 0)) := by
  have hsum := Finset.sum_erase_add F
    (fun arc : α × α => ((if arc.1 = x then 1 else 0) - (if arc.2 = x then 1 else 0) : ℤ)) h
  rw [net, net]
  linarith

/-- A flow of value `k` from `S` to `T`. -/
def Carries (F : Finset (α × α)) (S T : α) (k : ℤ) : Prop :=
  ∀ x, x ≠ T → net F x = if x = S then k else 0

lemma carries_empty (S T : α) : Carries (∅ : Finset (α × α)) S T 0 := by
  intro x _
  simp [net]

/-! ## Cuts -/

section Cuts

variable {R : Finset α}

lemma sum_net (F : Finset (α × α)) (R : Finset α) :
    ∑ x ∈ R, net F x = ∑ arc ∈ F, ((if arc.1 ∈ R then 1 else 0) - (if arc.2 ∈ R then 1 else 0)) := by
  unfold net
  rw [Finset.sum_comm]
  refine Finset.sum_congr rfl fun arc _ => ?_
  rw [Finset.sum_sub_distrib, Finset.sum_ite_eq, Finset.sum_ite_eq]

lemma Carries.across (h : Carries F S T k) (hS : S ∈ R) (hT : T ∉ R) :
    ∑ arc ∈ F, ((if arc.1 ∈ R then 1 else 0) - (if arc.2 ∈ R then 1 else 0)) = k := by
  rw [← sum_net]
  have hterms : ∀ x ∈ R, net F x = if x = S then k else 0 :=
    fun x hx => h x fun heq => hT (heq ▸ hx)
  rw [Finset.sum_congr rfl hterms, Finset.sum_ite_eq' R S, if_pos hS]

theorem exists_arc_out (h : Carries F S T k) (hk : 0 < k) (hS : S ∈ R) (hT : T ∉ R) :
    ∃ arc ∈ F, arc.1 ∈ R ∧ arc.2 ∉ R := by
  by_contra hnone
  push Not at hnone
  have hle : ∑ arc ∈ F, ((if arc.1 ∈ R then 1 else 0) - (if arc.2 ∈ R then 1 else 0) : ℤ) ≤ 0 := by
    refine Finset.sum_nonpos fun arc harc => ?_
    by_cases hfirst : arc.1 ∈ R
    · simp [hfirst, hnone arc harc hfirst]
    · rw [if_neg hfirst]
      split_ifs <;> simp
  rw [h.across hS hT] at hle
  omega

/-- An arc that is free, or one that can be taken back. -/
def Residual (A F : Finset (α × α)) (u v : α) : Prop := ((u, v) ∈ A ∧ (u, v) ∉ F) ∨ (v, u) ∈ F

theorem card_cut (hsub : F ⊆ A) (h : Carries F S T k) (hS : S ∈ R) (hT : T ∉ R)
    (hclosed : ∀ u ∈ R, ∀ v, Residual A F u v → v ∈ R) :
    ((A.filter fun arc => arc.1 ∈ R ∧ arc.2 ∉ R).card : ℤ) = k := by
  have hleaving : A.filter (fun arc => arc.1 ∈ R ∧ arc.2 ∉ R) =
      F.filter fun arc => arc.1 ∈ R ∧ arc.2 ∉ R := by
    ext ⟨u, v⟩
    simp only [Finset.mem_filter]
    refine ⟨fun ⟨hA, hu, hv⟩ => ⟨?_, hu, hv⟩, fun ⟨hF, hu, hv⟩ => ⟨hsub hF, hu, hv⟩⟩
    by_contra hF
    exact hv (hclosed u hu v (.inl ⟨hA, hF⟩))
  rw [hleaving, Finset.card_filter, ← h.across hS hT]
  push_cast
  refine Finset.sum_congr rfl fun arc harc => ?_
  by_cases hfirst : arc.1 ∈ R
  · by_cases hsecond : arc.2 ∈ R <;> simp [hfirst, hsecond]
  · -- an arc of the flow into the set could be taken back
    have hsecond : arc.2 ∉ R := fun hsecond => hfirst (hclosed arc.2 hsecond arc.1 (.inr harc))
    simp [hfirst, hsecond]

end Cuts

/-! ## Pushing a unit -/

/-- Use the arc, or take back the opposite one. -/
def push (F : Finset (α × α)) (u v : α) : Finset (α × α) :=
  if (v, u) ∈ F then F.erase (v, u) else insert (u, v) F

lemma push_sub (hsub : F ⊆ A) (h : Residual A F u v) : push F u v ⊆ A := by
  rw [push]
  split_ifs with hback
  · exact (Finset.erase_subset _ _).trans hsub
  · rcases h with ⟨hA, -⟩ | hF
    · exact Finset.insert_subset hA hsub
    · exact absurd hF hback

lemma net_push (h : Residual A F u v) (x : α) :
    net (push F u v) x = net F x + ((if u = x then 1 else 0) - (if v = x then 1 else 0)) := by
  rw [push]
  by_cases hback : (v, u) ∈ F
  · rw [if_pos hback, net_erase hback]
    ring
  · rw [if_neg hback]
    rcases h with ⟨-, hF⟩ | hF
    · exact net_insert hF x
    · exact absurd hF hback

lemma mem_push_of_ne {arc : α × α} (hforward : arc ≠ (u, v)) (hback : arc ≠ (v, u)) :
    arc ∈ push F u v ↔ arc ∈ F := by
  rw [push]
  split_ifs
  · simp [hback]
  · simp [hforward]

lemma residual_push (h : Residual A F x y) (hforward : (x, y) ≠ (u, v)) (hback : (x, y) ≠ (v, u)) :
    Residual A (push F u v) x y := by
  have hswap : (y, x) ≠ (u, v) ∧ (y, x) ≠ (v, u) := by
    simp only [ne_eq, Prod.mk.injEq] at hforward hback ⊢
    exact ⟨fun hc => hback ⟨hc.2, hc.1⟩, fun hc => hforward ⟨hc.2, hc.1⟩⟩
  rw [Residual, mem_push_of_ne hforward hback, mem_push_of_ne hswap.1 hswap.2]
  exact h

def arcs (p : List α) : List (α × α) := p.zip p.tail

omit [DecidableEq α] in
variable {init : List α} {c d : α}

lemma arcs_concat (h : init.getLast? = some d) : arcs (init ++ [c]) = arcs init ++ [(d, c)] := by
  induction init with
  | nil => cases h
  | cons e init ih =>
    cases init with
    | nil =>
      obtain rfl : e = d := by simpa using h
      rfl
    | cons f init =>
      have hlast : (f :: init).getLast? = some d := by simpa using h
      have hih := ih hlast
      simp only [arcs, cons_append, tail_cons, zip_cons_cons] at hih ⊢
      rw [hih]

omit [DecidableEq α] in
lemma arcs_map {β : Type*} (f : α → β) : arcs (p.map f) = (arcs p).map (Prod.map f f) := by
  rw [arcs, arcs, ← map_tail, zip_map]

omit [DecidableEq α] in
lemma mem_of_mem_arcs (h : (x, y) ∈ arcs p) : x ∈ p ∧ y ∈ p := by
  obtain ⟨hx, hy⟩ := of_mem_zip h
  exact ⟨hx, mem_of_mem_tail hy⟩

omit [DecidableEq α] in
lemma step_of_mem_arcs {r : α → α → Prop} (h : Trail r a b p) (harc : (x, y) ∈ arcs p) : r x y := by
  induction p using List.reverseRecOn generalizing b with
  | nil => cases harc
  | append_singleton init c ih =>
    obtain ⟨rfl, ⟨rfl, rfl⟩ | ⟨d, hinit, hlink⟩⟩ := h.of_concat
    · cases harc
    · rw [arcs_concat hinit.last, mem_append, mem_singleton] at harc
      rcases harc with harc | harc
      · exact ih hinit harc
      · obtain ⟨rfl, rfl⟩ := Prod.mk.inj harc
        exact hlink

def pushTrail (F : Finset (α × α)) (p : List α) : Finset (α × α) :=
  (arcs p).foldr (fun arc F => push F arc.1 arc.2) F

lemma pushTrail_concat (h : init.getLast? = some d) :
    pushTrail F (init ++ [c]) = pushTrail (push F d c) init := by
  rw [pushTrail, arcs_concat h, foldr_append]
  rfl

lemma residual_init (h : Trail (Residual A F) a d init) (hc : c ∉ init) :
    Trail (Residual A (push F d c)) a d init := by
  refine h.mono fun x hx y hy hxy => residual_push hxy ?_ ?_
  · exact fun heq => hc ((Prod.mk.inj heq).2 ▸ hy)
  · exact fun heq => hc ((Prod.mk.inj heq).1 ▸ hx)

theorem net_pushTrail (hsub : F ⊆ A) (h : Trail (Residual A F) a b p)
    (hnodup : p.Nodup) : pushTrail F p ⊆ A ∧ ∀ x, net (pushTrail F p) x =
      net F x + ((if a = x then 1 else 0) - (if b = x then 1 else 0)) := by
  induction p using List.reverseRecOn generalizing b F with
  | nil => cases h.head
  | append_singleton init c ih =>
    obtain ⟨rfl, ⟨rfl, rfl⟩ | ⟨d, hinit, hlink⟩⟩ := h.of_concat
    · exact ⟨hsub, fun x => by simp [pushTrail, arcs]⟩
    · rw [nodup_append] at hnodup
      have hc : c ∉ init := fun hmem => hnodup.2.2 c hmem c (by simp) rfl
      obtain ⟨hnext, hnet⟩ := ih (push_sub hsub hlink) (residual_init hinit hc) hnodup.1
      rw [pushTrail_concat hinit.last]
      refine ⟨hnext, fun x => ?_⟩
      rw [hnet x, net_push hlink x]
      ring

lemma Carries.pushTrail (hsub : F ⊆ A) (h : Carries F S T k)
    (htrail : Trail (Residual A F) S T p) (hnodup : p.Nodup) : Carries (pushTrail F p) S T (k + 1) := by
  intro x hx
  rw [(net_pushTrail hsub htrail hnodup).2 x, h x hx, if_neg (Ne.symm hx)]
  by_cases hS : x = S
  · subst hS
    simp
  · simp [hS, Ne.symm hS]

/-! ## Taking a walk out -/

def dropTrail (F : Finset (α × α)) (p : List α) : Finset (α × α) :=
  (arcs p).foldr (fun arc F => F.erase arc) F

lemma dropTrail_concat (h : init.getLast? = some d) :
    dropTrail F (init ++ [c]) = dropTrail (F.erase (d, c)) init := by
  rw [dropTrail, arcs_concat h, foldr_append]
  rfl

lemma mem_dropTrail {arc : α × α} : arc ∈ dropTrail F p ↔ arc ∈ F ∧ arc ∉ arcs p := by
  rw [dropTrail]
  induction arcs p with
  | nil => simp
  | cons first rest ih => simp [ih, and_left_comm, not_or]

lemma arc_init (h : Trail (fun u v => (u, v) ∈ F) a d init) (hc : c ∉ init) :
    Trail (fun u v => (u, v) ∈ F.erase (d, c)) a d init := by
  refine h.mono fun x hx y hy hxy => Finset.mem_erase.mpr ⟨fun heq => hc ?_, hxy⟩
  exact (Prod.mk.inj heq).2 ▸ hy

theorem net_dropTrail (h : Trail (fun u v => (u, v) ∈ F) a b p) (hnodup : p.Nodup) (x : α) :
    net (dropTrail F p) x = net F x - ((if a = x then 1 else 0) - (if b = x then 1 else 0)) := by
  induction p using List.reverseRecOn generalizing b F with
  | nil => cases h.head
  | append_singleton init c ih =>
    obtain ⟨rfl, ⟨rfl, rfl⟩ | ⟨d, hinit, hlink⟩⟩ := h.of_concat
    · simp [dropTrail, arcs]
    · rw [nodup_append] at hnodup
      have hc : c ∉ init := fun hmem => hnodup.2.2 c hmem c (by simp) rfl
      rw [dropTrail_concat hinit.last, ih (arc_init hinit hc) hnodup.1, net_erase hlink]
      ring

lemma Carries.dropTrail (h : Carries F S T k) (htrail : Trail (fun u v => (u, v) ∈ F) S T p)
    (hnodup : p.Nodup) : Carries (dropTrail F p) S T (k - 1) := by
  intro x hx
  rw [net_dropTrail htrail hnodup x, h x hx, if_neg (Ne.symm hx)]
  by_cases hS : x = S
  · subst hS
    simp
  · simp [hS, Ne.symm hS]

end UnitFlow
