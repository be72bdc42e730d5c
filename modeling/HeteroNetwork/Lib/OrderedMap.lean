import Mathlib

/-!
# Ordered maps and sets

Facts about `Std.TreeMap` and `Std.TreeSet` for key types whose comparison is lawful: collecting a
list of pairs into a map, and the size of a set by its elements.
-/

namespace OrderedMap

open Std (LawfulEqOrd ReflCmp TransOrd TreeMap)
open Std.TreeMap

section Pairs

variable {α β : Type*} [Ord α] [Ord β]

/-- Pairs are ordered by their first component, then by their second. -/
instance instOrdProd : Ord (α × β) := lexOrd

instance instTransOrdProd [TransOrd α] [TransOrd β] : TransOrd (α × β) :=
  inferInstanceAs (Std.TransCmp
    (compareLex (compareOn (Prod.fst : α × β → α)) (compareOn (Prod.snd : α × β → β))))

instance instLawfulEqOrdProd [LawfulEqOrd α] [LawfulEqOrd β] :
    LawfulEqOrd (α × β) where
  compare_self := by
    rintro ⟨a, b⟩
    exact Ordering.then_eq_eq.mpr ⟨ReflCmp.compare_self, ReflCmp.compare_self⟩
  eq_of_compare := by
    rintro ⟨a, b⟩ ⟨a', b'⟩ h
    obtain ⟨ha, hb⟩ := Ordering.then_eq_eq.mp h
    exact Prod.ext (LawfulEqOrd.eq_of_compare ha) (LawfulEqOrd.eq_of_compare hb)

end Pairs

section Membership

variable {α β : Type*} [Ord α] [TransOrd α] {m : TreeMap α β} {k : α} {v : β}

lemma mem_iff_exists : k ∈ m ↔ ∃ v, m[k]? = some v := by
  rw [mem_iff_isSome_getElem?, Option.isSome_iff_exists]

lemma mem_of_getElem? (h : m[k]? = some v) : k ∈ m := mem_iff_exists.mpr ⟨v, h⟩

omit [TransOrd α] in
open Std.DTreeMap.Internal.Impl in
lemma values_eq_map_toList (m : TreeMap α β) : m.values = m.toList.map Prod.snd := by
  show m.inner.inner.values = (Const.toList m.inner.inner).map Prod.snd
  rw [values_eq_map_snd, Const.toList_eq_toListModel_map, List.map_map]
  rfl

lemma mem_values [LawfulEqOrd α] : v ∈ m.values ↔ ∃ k : α, m[k]? = some v := by
  rw [values_eq_map_toList, List.mem_map]
  constructor
  · rintro ⟨⟨k, _⟩, he, rfl⟩
    exact ⟨k, mem_toList_iff_getElem?_eq_some.mp he⟩
  · rintro ⟨k, hk⟩
    exact ⟨(k, v), mem_toList_iff_getElem?_eq_some.mpr hk, rfl⟩

end Membership

variable {α β : Type*} [Ord α] [TransOrd α] [LawfulEqOrd α]

lemma mem_of_getElem?_ofList {l : List (α × β)} {k : α} {v : β}
    (h : (TreeMap.ofList l)[k]? = some v) : (k, v) ∈ l := by
  induction l using List.reverseRecOn with
  | nil => simp at h
  | append_singleton l e ih =>
    rw [ofList_eq_insertMany_empty, insertMany_append,
      ← ofList_eq_insertMany_empty, insertMany_list_singleton,
      getElem?_insert] at h
    rw [List.mem_append, List.mem_singleton]
    split_ifs at h with heq
    · right
      rw [← LawfulEqOrd.eq_of_compare heq, ← Option.some.inj h]
    · exact .inl (ih h)

lemma exists_getElem?_ofList {l : List (α × β)} {k : α} {v : β} (h : (k, v) ∈ l) :
    ∃ w, (TreeMap.ofList l)[k]? = some w ∧ (k, w) ∈ l := by
  classical
  have hmem : k ∈ TreeMap.ofList l := by
    rw [TreeMap.mem_ofList, List.contains_iff_mem]
    exact List.mem_map_of_mem h
  obtain ⟨w, hw⟩ := mem_iff_exists.mp hmem
  exact ⟨w, hw, mem_of_getElem?_ofList hw⟩

lemma mem_getD_grouped {γ : Type*} (key : γ → α) {x : γ} {k : α} (l : List γ) (m : TreeMap α (List γ)) :
    x ∈ (l.foldl (fun m x => m.insert (key x) (m.getD (key x) [] ++ [x])) m).getD k [] ↔
      x ∈ m.getD k [] ∨ x ∈ l ∧ key x = k := by
  induction l generalizing m with
  | nil => simp
  | cons first rest ih =>
    rw [List.foldl_cons, ih, getD_insert]
    by_cases hkey : key first = k
    · rw [if_pos (hkey ▸ ReflCmp.compare_self), hkey, List.mem_append, List.mem_singleton, or_assoc,
        List.mem_cons, or_and_right]
      refine or_congr_right (or_congr_left ⟨fun h => ⟨h, h ▸ hkey⟩, And.left⟩)
    · rw [if_neg fun h => hkey (LawfulEqOrd.eq_of_compare h), List.mem_cons, or_and_right]
      refine or_congr_right ⟨.inr, fun h => h.resolve_left ?_⟩
      rintro ⟨rfl, hfirst⟩
      exact hkey hfirst

lemma getElem?_ofList {l : List (α × β)} (hnodup : (l.map Prod.fst).Nodup) {k : α} {v : β} :
    (TreeMap.ofList l)[k]? = some v ↔ (k, v) ∈ l := by
  refine ⟨mem_of_getElem?_ofList, fun h => ?_⟩
  have hdistinct : l.Pairwise fun a b => ¬compare a.1 b.1 = .eq := by
    have hpairwise := List.pairwise_map.mp (List.nodup_iff_pairwise_ne.mp hnodup)
    exact hpairwise.imp fun hne heq => hne (LawfulEqOrd.eq_of_compare heq)
  exact getElem?_ofList_of_mem ReflCmp.compare_self hdistinct h

lemma getElem?_insert_ne {m : TreeMap α β} {k a : α} {v : β} (h : k ≠ a) :
    (m.insert k v)[a]? = m[a]? := by
  rw [getElem?_insert, if_neg fun heq => h (LawfulEqOrd.eq_of_compare heq)]

omit [LawfulEqOrd α] in
lemma forall_insert {m : TreeMap α β} {k : α} {v : β} {P : β → Prop}
    (h : ∀ (a : α) (w : β), m[a]? = some w → P w) (hv : P v) :
    ∀ (a : α) (w : β), (m.insert k v)[a]? = some w → P w := by
  intro a w hw
  rw [getElem?_insert] at hw
  split_ifs at hw
  · rwa [← Option.some.inj hw]
  · exact h a w hw

omit [LawfulEqOrd α] in
lemma getElem?_of_erase {m : TreeMap α β} {k a : α} {v : β} (h : (m.erase k)[a]? = some v) :
    m[a]? = some v := by
  rw [getElem?_erase] at h
  split_ifs at h
  exact h

lemma getElem?_foldl_erase {m : TreeMap α β} {keys : List α} {a : α} {v : β} :
    (keys.foldl TreeMap.erase m)[a]? = some v ↔ a ∉ keys ∧ m[a]? = some v := by
  induction keys generalizing m with
  | nil => simp
  | cons key keys ih =>
    rw [List.foldl_cons, ih, getElem?_erase, List.mem_cons, not_or]
    by_cases h : a = key
    · simp [h, ReflCmp.compare_self]
    · have hne : compare key a ≠ .eq := fun heq => h (LawfulEqOrd.eq_of_compare heq).symm
      simp [h, hne]

lemma nodup_toList (s : Std.TreeSet α) : s.toList.Nodup := by
  refine List.nodup_iff_pairwise_ne.mpr (Std.TreeSet.distinct_toList.imp fun h heq => h ?_)
  rw [heq]
  exact ReflCmp.compare_self

lemma nodup_keys (m : TreeMap α β) : m.keys.Nodup := by
  refine List.nodup_iff_pairwise_ne.mpr (ordered_keys.imp fun hlt heq => ?_)
  rw [heq] at hlt
  exact absurd (ReflCmp.compare_self.symm.trans hlt) (by decide)

section

variable {γ : Type*} {m : TreeMap α β} {m' : TreeMap α γ} (hsub : ∀ a ∈ m, a ∈ m')
include hsub

lemma size_le : m.size ≤ m'.size := by
  rw [← length_keys, ← length_keys]
  refine ((nodup_keys m).subperm fun a ha => ?_).length_le
  exact mem_keys.mpr (hsub a (mem_keys.mp ha))

lemma mem_of_size_le (hsize : m'.size ≤ m.size) : ∀ a ∈ m', a ∈ m := by
  rw [← length_keys, ← length_keys] at hsize
  have hkeys : m.keys.Subperm m'.keys := (nodup_keys m).subperm fun a ha =>
    mem_keys.mpr (hsub a (mem_keys.mp ha))
  intro a ha
  exact mem_keys.mp
    ((hkeys.perm_of_length_le hsize).mem_iff.mpr (mem_keys.mpr ha))

end

/-! ## The pairs of a map in their order -/

section Listed

variable {m : TreeMap α β} {k : α} {v : β} {p : α → Bool}

lemma eq_of_increasing {l l' : List (α × β)} (hl : l.Pairwise fun a b => compare a.1 b.1 = .lt)
    (hl' : l'.Pairwise fun a b => compare a.1 b.1 = .lt) (hmem : ∀ a, a ∈ l ↔ a ∈ l') : l = l' := by
  have hirrefl : Std.Irrefl fun a b : α × β => compare a.1 b.1 = .lt :=
    ⟨fun a h => absurd (ReflCmp.compare_self.symm.trans h) (by decide)⟩
  have hantisymm : Std.Antisymm fun a b : α × β => compare a.1 b.1 = .lt :=
    ⟨fun a b hab hba => absurd ((Std.OrientedCmp.gt_iff_lt.mpr hba).symm.trans hab) (by decide)⟩
  exact hl.eq_of_mem_iff hl' hmem

lemma mem_toList_insert {e : α × β} :
    e ∈ (m.insert k v).toList ↔ e = (k, v) ∨ (e.1 ≠ k ∧ e ∈ m.toList) := by
  obtain ⟨a, b⟩ := e
  rw [mem_toList_iff_getElem?_eq_some, mem_toList_iff_getElem?_eq_some]
  by_cases hk : k = a
  · subst hk
    simp [eq_comm]
  · rw [getElem?_insert_ne hk]
    simp [Ne.symm hk]

lemma filter_toList_insert_last (hp : p k = true) (hlast : ∀ a ∈ m, p a = true → compare a k = .lt) :
    (m.insert k v).toList.filter (fun e => p e.1) = m.toList.filter (fun e => p e.1) ++ [(k, v)] := by
  have hmem : ∀ e ∈ m.toList, p e.1 = true → compare e.1 k = .lt := fun e he =>
    hlast e.1 (mem_of_getElem? (mem_toList_iff_getElem?_eq_some.mp he))
  refine eq_of_increasing (ordered_keys_toList.filter _) ?_ ?_
  · refine List.pairwise_append.mpr
      ⟨ordered_keys_toList.filter _, List.pairwise_singleton _ _, ?_⟩
    rintro e he _ (_ | _)
    · rw [List.mem_filter] at he
      exact hmem e he.1 he.2
    · contradiction
  · intro e
    simp only [List.mem_filter, mem_toList_insert, List.mem_append, List.mem_singleton]
    constructor
    · rintro ⟨rfl | ⟨-, he⟩, hpe⟩
      · exact .inr rfl
      · exact .inl ⟨he, hpe⟩
    · rintro (⟨he, hpe⟩ | rfl)
      · refine ⟨.inr ⟨?_, he⟩, hpe⟩
        rintro rfl
        exact absurd (ReflCmp.compare_self.symm.trans (hmem e he hpe)) (by decide)
      · exact ⟨.inl rfl, hp⟩

lemma filter_toList_insert_other (hp : p k = false) :
    (m.insert k v).toList.filter (fun e => p e.1) = m.toList.filter (fun e => p e.1) := by
  refine eq_of_increasing (ordered_keys_toList.filter _)
    (ordered_keys_toList.filter _) ?_
  intro e
  simp only [List.mem_filter, mem_toList_insert]
  constructor
  · rintro ⟨rfl | ⟨-, he⟩, hpe⟩
    · rw [hp] at hpe
      cases hpe
    · exact ⟨he, hpe⟩
  · rintro ⟨he, hpe⟩
    refine ⟨.inr ⟨?_, he⟩, hpe⟩
    rintro rfl
    rw [hp] at hpe
    cases hpe

end Listed

/-! ## Sums over the values of a map -/

section Totals

variable {m : TreeMap α β} {k : α} {v w : β} {f : β → ℕ}

def total (f : β → ℕ) (m : TreeMap α β) : ℕ := (m.toList.map fun e => f e.2).sum

lemma getElem?_erase_ne {a : α} (h : k ≠ a) : (m.erase k)[a]? = m[a]? := by
  rw [getElem?_erase, if_neg fun heq => h (LawfulEqOrd.eq_of_compare heq)]

lemma nodup_pairs (m : TreeMap α β) : m.toList.Nodup := by
  refine List.nodup_iff_pairwise_ne.mpr (ordered_keys_toList.imp fun hlt heq => ?_)
  rw [heq] at hlt
  exact absurd (ReflCmp.compare_self.symm.trans hlt) (by decide)

lemma toList_perm_erase (h : m[k]? = some v) : m.toList.Perm ((k, v) :: (m.erase k).toList) := by
  refine (List.perm_ext_iff_of_nodup (nodup_pairs m) (List.nodup_cons.mpr ⟨?_, nodup_pairs _⟩)).mpr ?_
  · rw [mem_toList_iff_getElem?_eq_some, getElem?_erase_self]
    simp
  · rintro ⟨a, b⟩
    rw [List.mem_cons, mem_toList_iff_getElem?_eq_some,
      mem_toList_iff_getElem?_eq_some]
    by_cases hk : k = a
    · subst hk
      simp [h, eq_comm]
    · rw [getElem?_erase_ne hk]
      simp [Ne.symm hk]

lemma total_erase (h : m[k]? = some v) : total f m = f v + total f (m.erase k) := by
  rw [total, ((toList_perm_erase h).map _).sum_eq, List.map_cons, List.sum_cons, total]

lemma total_congr {m' : TreeMap α β} (h : ∀ a : α, m[a]? = m'[a]?) : total f m = total f m' := by
  have hlist : m.toList = m'.toList := by
    refine eq_of_increasing ordered_keys_toList ordered_keys_toList ?_
    rintro ⟨a, b⟩
    rw [mem_toList_iff_getElem?_eq_some, mem_toList_iff_getElem?_eq_some, h]
  rw [total, hlist, total]

lemma total_insert : total f (m.insert k v) = f v + total f (m.erase k) := by
  rw [total_erase getElem?_insert_self]
  refine congrArg (f v + ·) (total_congr fun a => ?_)
  by_cases hk : k = a
  · subst hk
    rw [getElem?_erase_self, getElem?_erase_self]
  · rw [getElem?_erase_ne hk, getElem?_erase_ne hk, getElem?_insert_ne hk]

lemma total_erase_of_notMem (h : k ∉ m) : total f (m.erase k) = total f m := by
  refine total_congr fun a => ?_
  by_cases hk : k = a
  · subst hk
    rw [getElem?_erase_self, TreeMap.getElem?_eq_none h]
  · exact getElem?_erase_ne hk

lemma total_le {b : ℕ} (h : ∀ (a : α) v, m[a]? = some v → f v ≤ b) : total f m ≤ m.size * b := by
  rw [total, ← length_toList, ← List.length_map fun e : α × β => f e.2, ← smul_eq_mul]
  refine List.sum_le_card_nsmul _ b fun x hx => ?_
  obtain ⟨e, he, rfl⟩ := List.mem_map.mp hx
  exact h e.1 e.2 (mem_toList_iff_getElem?_eq_some.mp he)

end Totals

end OrderedMap
