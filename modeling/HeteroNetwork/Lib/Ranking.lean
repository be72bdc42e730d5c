import Mathlib

/-!
# Ranking

Sorting by a comparison function.  Where elements that compare equal are equal, a permutation is sorted to
the same list, and leaving elements out commutes with sorting.  `byScore` is the comparison of rendezvous
hashing: the highest score first, ties broken by a key.
-/

namespace Ranking

open Std List

variable {α : Type*}

def sortBy (cmp : α → α → Ordering) (l : List α) : List α :=
  l.insertionSort fun a b => (cmp a b).isLE

section SortBy

variable {cmp : α → α → Ordering} {l l' : List α}

lemma sortBy_perm : (sortBy cmp l).Perm l := perm_insertionSort _ l

@[simp] lemma mem_sortBy {a : α} : a ∈ sortBy cmp l ↔ a ∈ l := sortBy_perm.mem_iff

/-- Elements of the list that compare equal are equal. -/
def Separates (cmp : α → α → Ordering) (l : List α) : Prop :=
  ∀ a ∈ l, ∀ b ∈ l, cmp a b = .eq → a = b

lemma Separates.of_nodup {κ : Type*} {key : α → κ} (hkey : ∀ a b, cmp a b = .eq → key a = key b)
    (hnodup : (l.map key).Nodup) : Separates cmp l := by
  intro a ha b hb heq
  exact inj_on_of_nodup_map hnodup ha hb (hkey a b heq)

lemma Separates.subset (h : Separates cmp l) (hsub : l' ⊆ l) : Separates cmp l' :=
  fun a ha b hb => h a (hsub ha) b (hsub hb)

variable [TransCmp cmp]

lemma pairwise_sortBy : (sortBy cmp l).Pairwise fun a b => (cmp a b).isLE := by
  have : Std.Total fun a b => (cmp a b).isLE = true := ⟨fun a b => by
    rw [← OrientedCmp.isGE_iff_isLE]
    cases cmp b a with
    | lt => exact .inr rfl
    | eq => exact .inl rfl
    | gt => exact .inl rfl⟩
  have : IsTrans α fun a b => (cmp a b).isLE = true := ⟨fun _ _ _ => TransCmp.isLE_trans⟩
  exact pairwise_insertionSort _ l

lemma eq_of_pairwise (hl : l.Pairwise fun a b => (cmp a b).isLE)
    (hl' : l'.Pairwise fun a b => (cmp a b).isLE) (hsep : Separates cmp l) (h : l.Perm l') :
    l = l' := by
  refine List.Perm.eq_of_pairwise (fun a b ha hb hab hba => ?_) hl hl' h
  exact hsep a ha b (h.mem_iff.mpr hb) (OrientedCmp.isLE_antisymm hab hba)

lemma sortBy_eq_of_perm (hsep : Separates cmp l) (h : l.Perm l') : sortBy cmp l = sortBy cmp l' :=
  eq_of_pairwise pairwise_sortBy pairwise_sortBy (hsep.subset fun _ => mem_sortBy.mp)
    (sortBy_perm.trans (h.trans sortBy_perm.symm))

lemma sortBy_filter (p : α → Bool) (hsep : Separates cmp l) :
    sortBy cmp (l.filter p) = (sortBy cmp l).filter p := by
  refine eq_of_pairwise pairwise_sortBy (pairwise_sortBy.filter p) ?_
    (sortBy_perm.trans (sortBy_perm.symm.filter p))
  exact hsep.subset fun a ha => (mem_filter.mp (mem_sortBy.mp ha)).1

lemma sortBy_eq_append {a : α} (hsep : Separates cmp l) (hnodup : l.Nodup) (ha : a ∈ l) :
    sortBy cmp l = sortBy cmp (l.filter fun b => cmp b a = .lt) ++
      a :: sortBy cmp (l.filter fun b => cmp a b = .lt) := by
  refine eq_of_pairwise pairwise_sortBy ?_ (hsep.subset fun _ => mem_sortBy.mp) ?_
  · rw [pairwise_append, pairwise_cons]
    refine ⟨pairwise_sortBy, ⟨?_, pairwise_sortBy⟩, ?_⟩
    · intro b hb
      simp only [mem_sortBy, mem_filter, decide_eq_true_eq] at hb
      simp [hb.2]
    · intro b hb c hc
      simp only [mem_sortBy, mem_filter, decide_eq_true_eq, mem_cons] at hb hc
      obtain rfl | ⟨-, hc⟩ := hc
      · simp [hb.2]
      · simp [TransCmp.lt_trans hb.2 hc]
  · refine sortBy_perm.trans (.trans ?_ (sortBy_perm.append (sortBy_perm.cons a)).symm)
    -- Every other element is on exactly one side.
    rw [perm_ext_iff_of_nodup hnodup]
    · intro b
      simp only [mem_append, mem_cons, mem_filter, decide_eq_true_eq]
      constructor
      · intro hb
        cases hcmp : cmp b a with
        | lt => exact .inl ⟨hb, rfl⟩
        | eq => exact .inr (.inl (hsep b hb a ha hcmp))
        | gt => exact .inr (.inr ⟨hb, OrientedCmp.lt_of_gt hcmp⟩)
      · rintro (⟨hb, -⟩ | rfl | ⟨hb, -⟩)
        · exact hb
        · exact ha
        · exact hb
    · have hself : cmp a a ≠ .lt := by simp [ReflCmp.compare_self]
      rw [nodup_append, nodup_cons]
      refine ⟨hnodup.filter _, ⟨by simp [hself], hnodup.filter _⟩, ?_⟩
      rintro b hb c hc rfl
      simp only [mem_cons, mem_filter, decide_eq_true_eq] at hb hc
      obtain rfl | ⟨-, hc⟩ := hc
      · exact hself hb.2
      · exact hself (TransCmp.lt_trans hc hb.2)

end SortBy

lemma take_filter {p : α → Bool} {l : List α} {n : ℕ} (h : ∀ a ∈ l.take n, p a = true) :
    (l.filter p).take n = l.take n := by
  induction l generalizing n with
  | nil => rfl
  | cons a l ih =>
    cases n with
    | zero => rfl
    | succ n =>
      rw [take_succ_cons, forall_mem_cons] at h
      rw [filter_cons_of_pos h.1, take_succ_cons, take_succ_cons, ih h.2]

/-! ## The first ones -/

section Top

variable {cmp : α → α → Ordering} {l l' : List α} {n : ℕ} {a b : α} {p : α → Bool}

def top (cmp : α → α → Ordering) (n : ℕ) (l : List α) : List α := (sortBy cmp l).take n

@[simp] lemma length_top : (top cmp n l).length = min n l.length := by
  rw [top, length_take, sortBy_perm.length_eq]

lemma nodup_top (h : l.Nodup) : (top cmp n l).Nodup :=
  (sortBy_perm.nodup_iff.mpr h).sublist (take_sublist n _)

variable [TransCmp cmp]

lemma isLE_of_mem_top (ha : a ∈ top cmp n l) (hb : b ∈ l) (hnot : b ∉ top cmp n l) :
    (cmp a b).isLE := by
  have hsorted : (sortBy cmp l).Pairwise fun a b => (cmp a b).isLE := pairwise_sortBy
  have hmem : b ∈ (sortBy cmp l).take n ++ (sortBy cmp l).drop n := by
    rw [take_append_drop]
    exact mem_sortBy.mpr hb
  rw [← take_append_drop n (sortBy cmp l), pairwise_append] at hsorted
  exact hsorted.2.2 a ha b ((mem_append.mp hmem).resolve_left hnot)

section

variable (hsep : Separates cmp l)
include hsep

lemma top_eq_of_perm (h : l.Perm l') : top cmp n l = top cmp n l' := by
  rw [top, top, sortBy_eq_of_perm hsep h]

lemma top_filter_eq (h : ∀ a ∈ top cmp n l, p a = true) : top cmp n (l.filter p) = top cmp n l := by
  rw [top, sortBy_filter p hsep, take_filter h, top]

lemma filter_top_initial : (top cmp n l).filter p <+: top cmp n (l.filter p) := by
  have htake : (sortBy cmp l).take n <+: sortBy cmp l := take_prefix n _
  rw [top, top, sortBy_filter p hsep, prefix_take_iff]
  exact ⟨htake.filter p, (length_filter_le _ _).trans (length_take_le _ _)⟩

lemma mem_top_filter (ha : a ∈ top cmp n l) (hp : p a = true) : a ∈ top cmp n (l.filter p) :=
  (filter_top_initial hsep).subset (mem_filter.mpr ⟨ha, hp⟩)

lemma length_filter_notMem_top_le [DecidableEq α] :
    ((top cmp n (l.filter p)).filter fun a => a ∉ top cmp n l).length ≤
      ((top cmp n l).filter fun a => !p a).length := by
  obtain ⟨rest, hrest⟩ := @filter_top_initial _ cmp l n p _ hsep
  have hlength := congrArg List.length hrest
  have hsplit := length_eq_length_filter_add (l := top cmp n l) p
  have hfewer := length_filter_le p l
  have hstay : ((top cmp n l).filter p).filter (fun a => a ∉ top cmp n l) = [] := by
    simp +contextual [filter_eq_nil_iff]
  have hmoved := length_filter_le (fun a => decide (a ∉ top cmp n l)) rest
  rw [← hrest, filter_append, hstay, nil_append]
  rw [length_append, length_top] at hlength
  rw [length_top] at hsplit
  omega

end

end Top

section ByScore

variable {σ κ : Type*} [Ord σ] [Ord κ] (score : α → σ) (key : α → κ)

def byScore : α → α → Ordering :=
  compareLex (fun a b => compare (score b) (score a)) (compareOn key)

instance [TransOrd σ] [TransOrd κ] : TransCmp (byScore score key) :=
  haveI : TransCmp fun a b => compare (score b) (score a) :=
    @TransCmp.opposite _ (compareOn score) inferInstance
  inferInstanceAs (TransCmp (compareLex _ _))

lemma key_eq_of_byScore [LawfulEqOrd κ] {a b : α} (h : byScore score key a b = .eq) : key a = key b :=
  LawfulEqOrd.eq_of_compare (Ordering.then_eq_eq.mp h).2

end ByScore

end Ranking
