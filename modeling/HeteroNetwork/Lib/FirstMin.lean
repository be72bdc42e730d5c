import Mathlib

/-!
# The first smallest element

`List.argmin f l` is the first of the elements of `l` at which `f` is smallest.  A program that sorts a
list by `f` and takes the first element with some property finds the same one (`find?_insertionSort`).
-/

namespace FirstMin

open List

variable {α β γ κ κ' : Type*} [LinearOrder κ] [LinearOrder κ'] {f : α → κ} {l : List α}

lemma argmin_congr {g : α → κ'} (h : ∀ a ∈ l, ∀ b ∈ l, f a < f b ↔ g a < g b) :
    l.argmin f = l.argmin g := by
  induction l with
  | nil => rfl
  | cons a l ih =>
    rw [argmin_cons, argmin_cons,
      ih fun b hb c hc => h b (mem_cons_of_mem _ hb) c (mem_cons_of_mem _ hc)]
    cases hmin : l.argmin g with
    | none => rfl
    | some c =>
      have hc : c ∈ a :: l := mem_cons_of_mem _ (argmin_mem hmin)
      simp only [h c hc a mem_cons_self]

lemma argmin_map {g : β → α} {l : List β} : (l.map g).argmin f = (l.argmin fun b => f (g b)).map g := by
  induction l with
  | nil => rfl
  | cons b l ih =>
    rw [map_cons, argmin_cons, argmin_cons, ih]
    cases l.argmin fun b => f (g b) with
    | none => rfl
    | some c =>
      simp only [Option.map_some]
      split_ifs
      · rfl
      · rfl

lemma argmin_partition {p : α → Bool} (h : ∀ a ∈ l, ∀ b ∈ l, p a = true → p b = false → f a < f b) :
    l.argmin f = ((l.filter p).argmin f).or ((l.filter fun a => !p a).argmin f) := by
  induction l with
  | nil => rfl
  | cons a l ih =>
    have ih := ih fun b hb c hc => h b (mem_cons_of_mem _ hb) c (mem_cons_of_mem _ hc)
    rw [argmin_cons, ih]
    cases hp : p a with
    | true =>
      rw [filter_cons_of_pos hp, argmin_cons]
      cases hmin : (l.filter p).argmin f with
      | some c =>
        simp only [Option.some_or]
        split_ifs
        · rfl
        · rfl
      | none =>
        rw [Option.none_or, Option.some_or]
        cases hrest : (l.filter fun a => !p a).argmin f with
        | none => rfl
        | some c =>
          obtain ⟨hc, hpc⟩ := mem_filter.mp (argmin_mem hrest)
          have hlt := h a mem_cons_self c (mem_cons_of_mem _ hc) hp (by simpa using hpc)
          simp only [if_neg hlt.asymm]
    | false =>
      rw [filter_cons_of_neg (by simp [hp]), filter_cons_of_pos (by simp [hp]),
        argmin_cons]
      cases hmin : (l.filter p).argmin f with
      | some c =>
        obtain ⟨hc, hpc⟩ := mem_filter.mp (argmin_mem hmin)
        have hlt := h c (mem_cons_of_mem _ hc) a mem_cons_self hpc hp
        simp only [Option.some_or, if_pos hlt]
      | none => simp only [Option.none_or]

lemma argmin_eq_head?_filter {k : κ} (hle : ∀ a ∈ l, k ≤ f a) (hmem : ∃ a ∈ l, f a = k) :
    l.argmin f = (l.filter fun a => f a = k).head? := by
  have hconst : ∀ {l' : List α}, (∀ a ∈ l', f a = k) → l'.argmin f = l'.head? := by
    intro l' hl'
    induction l' with
    | nil => rfl
    | cons a l' ih =>
      have ih := ih fun b hb => hl' b (mem_cons_of_mem _ hb)
      rw [argmin_cons, head?_cons]
      cases hmin : l'.argmin f with
      | none => rfl
      | some c =>
        have hca : f c = f a := by
          rw [hl' c (mem_cons_of_mem _ (argmin_mem hmin)), hl' a mem_cons_self]
        simp only [hca, lt_irrefl, if_false]
  obtain ⟨a, ha, hka⟩ := hmem
  have hfirst : ∃ b, (l.filter fun a => f a = k).head? = some b := by
    cases hfilter : l.filter fun a => f a = k with
    | nil => simpa [hka] using filter_eq_nil_iff.mp hfilter a ha
    | cons b rest => exact ⟨b, rfl⟩
  obtain ⟨b, hb⟩ := hfirst
  rw [@argmin_partition _ _ _ _ _ (fun a => f a = k), hconst, hb, Option.some_or]
  · exact fun a ha => of_decide_eq_true (mem_filter.mp ha).2
  · intro a _ b hb hak hbk
    rw [of_decide_eq_true hak]
    exact lt_of_le_of_ne (hle b hb) (Ne.symm (of_decide_eq_false hbk))

theorem argmin_eq_of_filter_eq {l' : List α}
    (h : ∀ k, (l.filter fun a => f a = k) = l'.filter fun a => f a = k) : l.argmin f = l'.argmin f := by
  have hmem : ∀ a, a ∈ l ↔ a ∈ l' := by
    intro a
    have hfilter : a ∈ (l.filter fun b => f b = f a) ↔ a ∈ l'.filter fun b => f b = f a := by rw [h]
    simpa using hfilter
  cases hmin : l.argmin f with
  | none =>
    rw [argmin_eq_none] at hmin
    have hnil : l' = [] := eq_nil_iff_forall_not_mem.mpr fun a ha => by
      have hal := (hmem a).mpr ha
      rw [hmin] at hal
      cases hal
    rw [hnil]
    rfl
  | some m =>
    have hm : m ∈ l := argmin_mem hmin
    have hle : ∀ a ∈ l, f m ≤ f a := fun a ha => le_of_mem_argmin ha hmin
    rw [← hmin, argmin_eq_head?_filter hle ⟨m, hm, rfl⟩, h (f m),
      argmin_eq_head?_filter (fun a ha => hle a ((hmem a).mpr ha)) ⟨m, (hmem m).mp hm, rfl⟩]

/-! ## Sorting -/

section Sorting

variable {r : α → α → Prop} [DecidableRel r] [Std.Total r] [IsTrans α r]

omit [Std.Total r] [IsTrans α r] in
lemma orderedInsert_of_forall {a : α} (h : ∀ b ∈ l, r a b) : l.orderedInsert r a = a :: l := by
  cases l with
  | nil => rfl
  | cons b l => rw [orderedInsert_cons, if_pos (h b mem_cons_self)]

omit [Std.Total r] in
lemma filter_orderedInsert {p : α → Bool} {a : α} (hsorted : l.Pairwise r) :
    (l.orderedInsert r a).filter p = if p a then (l.filter p).orderedInsert r a else l.filter p := by
  induction l with
  | nil => cases hp : p a <;> simp [hp]
  | cons b l ih =>
    obtain ⟨hb, hl⟩ := pairwise_cons.mp hsorted
    by_cases hab : r a b
    · have hall : ∀ c ∈ (b :: l).filter p, r a c := by
        intro c hc
        rcases mem_cons.mp (mem_filter.mp hc).1 with rfl | hc
        · exact hab
        · exact IsTrans.trans _ _ _ hab (hb c hc)
      rw [orderedInsert_cons, if_pos hab, orderedInsert_of_forall hall, filter_cons]
    · rw [orderedInsert_cons, if_neg hab, filter_cons, ih hl, filter_cons]
      split_ifs
      · rw [orderedInsert_cons, if_neg hab]
      · rfl
      · rfl
      · rfl

lemma filter_insertionSort {p : α → Bool} :
    (l.insertionSort r).filter p = (l.filter p).insertionSort r := by
  induction l with
  | nil => rfl
  | cons a l ih =>
    rw [insertionSort_cons, filter_orderedInsert (pairwise_insertionSort r l), ih,
      filter_cons]
    split_ifs
    · rfl
    · rfl

end Sorting

lemma head?_insertionSort : (l.insertionSort fun a b => f a ≤ f b).head? = l.argmin f := by
  induction l with
  | nil => rfl
  | cons a l ih =>
    rw [insertionSort_cons, argmin_cons, ← ih]
    cases l.insertionSort fun a b => f a ≤ f b with
    | nil => rfl
    | cons c rest =>
      rw [orderedInsert_cons, head?_cons]
      by_cases hle : f a ≤ f c
      · rw [if_pos hle, head?_cons]
        simp only [if_neg (not_lt.mpr hle)]
      · rw [if_neg hle, head?_cons]
        simp only [if_pos (not_le.mp hle)]

theorem find?_insertionSort {p : α → Bool} :
    (l.insertionSort fun a b => f a ≤ f b).find? p = (l.filter p).argmin f := by
  have htotal : Std.Total fun a b => f a ≤ f b := ⟨fun a b => le_total (f a) (f b)⟩
  have htrans : IsTrans α fun a b => f a ≤ f b := ⟨fun a b c => le_trans⟩
  rw [← head?_filter, filter_insertionSort, head?_insertionSort]

variable {level : α → ℕ}

omit [LinearOrder κ] in
lemma findSome?_congr {g g' : α → Option γ} (h : ∀ a ∈ l, g a = g' a) :
    l.findSome? g = l.findSome? g' := by
  induction l with
  | nil => rfl
  | cons a l ih =>
    rw [findSome?_cons, findSome?_cons, h a mem_cons_self,
      ih fun b hb => h b (mem_cons_of_mem _ hb)]

omit [LinearOrder κ] in
lemma findSome?_bind {g : α → Option β} {k : β → Option γ} (h : ∀ a b, g a = some b → (k b).isSome) :
    (l.findSome? fun a => (g a).bind k) = (l.findSome? g).bind k := by
  induction l with
  | nil => rfl
  | cons a l ih =>
    rw [findSome?_cons, findSome?_cons, ih]
    cases hg : g a with
    | none => rfl
    | some b =>
      obtain ⟨c, hc⟩ := Option.isSome_iff_exists.mp (h a b hg)
      rw [Option.bind_some, hc]

omit [LinearOrder κ] in
lemma findSome?_eq_find?_bind {g : α → Option β} :
    l.findSome? g = (l.find? fun a => (g a).isSome).bind g := by
  induction l with
  | nil => rfl
  | cons a l ih =>
    rw [findSome?_cons, find?_cons]
    cases hg : g a with
    | none => simp [ih]
    | some b => simp [hg]

theorem findSome?_levels {levels : List ℕ} (hdescending : levels.Pairwise (· > ·))
    (hlevel : ∀ a ∈ l, level a ∈ levels) :
    levels.findSome? (fun n => (l.filter fun a => level a = n).argmin f) =
      l.argmin fun a => toLex (OrderDual.toDual (level a), f a) := by
  induction levels generalizing l with
  | nil =>
    have hnil : l = [] := eq_nil_iff_forall_not_mem.mpr fun a ha => by simpa using hlevel a ha
    rw [hnil]
    rfl
  | cons n levels ih =>
    obtain ⟨hn, hrest⟩ := pairwise_cons.mp hdescending
    have hpartition : ∀ a ∈ l, ∀ b ∈ l, decide (level a = n) = true → decide (level b = n) = false →
        toLex (OrderDual.toDual (level a), f a) < toLex (OrderDual.toDual (level b), f b) := by
      intro a _ b hb ha hnb
      rw [decide_eq_true_eq] at ha
      rw [decide_eq_false_iff_not] at hnb
      have hlt := hn _ ((mem_cons.mp (hlevel b hb)).resolve_left hnb)
      exact Prod.Lex.toLex_lt_toLex.mpr (.inl (OrderDual.toDual_lt_toDual.mpr (ha ▸ hlt)))
    have hfirst : (l.filter fun a => level a = n).argmin f =
        (l.filter fun a => level a = n).argmin
          fun a => toLex (OrderDual.toDual (level a), f a) := by
      refine argmin_congr fun a ha b hb => ?_
      have hleveleq : level a = level b := by
        rw [of_decide_eq_true (mem_filter.mp ha).2, of_decide_eq_true (mem_filter.mp hb).2]
      rw [Prod.Lex.toLex_lt_toLex, hleveleq]
      simp
    have hothers : levels.findSome? (fun m => (l.filter fun a => level a = m).argmin f) =
        (l.filter fun a => !decide (level a = n)).argmin
          fun a => toLex (OrderDual.toDual (level a), f a) := by
      rw [← ih hrest]
      · refine findSome?_congr fun m hm => ?_
        rw [filter_filter]
        refine congrArg (List.argmin f) (filter_congr fun a _ => ?_)
        have hne : m ≠ n := (hn m hm).ne
        by_cases ham : level a = m
        · simp [ham, hne]
        · simp [ham]
      · intro a ha
        obtain ⟨hmem, hne⟩ := mem_filter.mp ha
        exact (mem_cons.mp (hlevel a hmem)).resolve_left (by simpa using hne)
    rw [argmin_partition hpartition, ← hfirst, ← hothers, findSome?_cons]
    cases (l.filter fun a => level a = n).argmin f with
    | none | some => rfl

end FirstMin
