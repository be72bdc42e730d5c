import Mathlib

/-!
# Recency queues

A map from keys to versions that grow, with a queue of the versions in the order in which they came.  An
entry whose key has moved on to a later version is stale.  When the current version of a key leaves the queue,
no other entry of the key is left in it (`Tracks.pop_latest`).
-/

namespace Recency

open Function List

variable {κ ν : Type*} [LE ν] [LT ν]

structure Tracks (latest : κ → Option ν) (queue : List (κ × ν)) : Prop where
  complete : ∀ key version, latest key = some version → (key, version) ∈ queue
  increasing : queue.Pairwise fun a b => a.1 = b.1 → a.2 < b.2
  held : ∀ item ∈ queue, ∃ version, latest item.1 = some version ∧ item.2 ≤ version

namespace Tracks

variable {latest latest' : κ → Option ν} {queue queue' : List (κ × ν)} {item : κ × ν} {key : κ}
  {version : ν}

lemma empty : Tracks (fun _ : κ => (none : Option ν)) [] :=
  ⟨fun _ _ h => (nomatch h), .nil, by simp⟩

lemma pop_stale (h : Tracks latest (item :: queue)) (hstale : latest item.1 ≠ some item.2) :
    Tracks latest queue := by
  refine ⟨fun key version hkey => ?_, (pairwise_cons.mp h.increasing).2,
    fun other hother => h.held other (mem_cons_of_mem _ hother)⟩
  rcases mem_cons.mp (h.complete key version hkey) with rfl | hmem
  · exact absurd hkey hstale
  · exact hmem

variable [Std.LawfulOrderLT ν]

lemma nodup (h : Tracks latest queue) : queue.Nodup := by
  refine nodup_iff_pairwise_ne.mpr (h.increasing.imp fun hlt heq => ?_)
  subst heq
  exact Std.lt_irrefl (hlt rfl)

variable [Std.IsLinearOrder ν]

omit [Std.LawfulOrderLT ν] in
lemma compact [DecidableEq ν] (h : Tracks latest queue)
    (hsub : ∀ key version, latest' key = some version → latest key = some version) :
    Tracks latest' (queue.filter fun item => latest' item.1 = some item.2) := by
  refine ⟨fun key version hkey => ?_, h.increasing.filter _, fun item hitem => ?_⟩
  · simpa [hkey] using h.complete key version (hsub key version hkey)
  · have hcurrent : latest' item.1 = some item.2 := by simpa using (mem_filter.mp hitem).2
    exact ⟨item.2, hcurrent, Std.le_refl item.2⟩

lemma ne_of_mem_after {first last : List (κ × ν)} (h : Tracks latest (first ++ (key, version) :: last))
    (hcurrent : latest key = some version) : ∀ item ∈ last, item.1 ≠ key := by
  rintro item hitem rfl
  have hlater := (pairwise_append.mp h.increasing).2.1
  have hlt := (pairwise_cons.mp hlater).1 item hitem rfl
  obtain ⟨version', hcurrent', hle⟩ := h.held item (by simp [hitem])
  obtain rfl := Option.some.inj (hcurrent.symm.trans hcurrent')
  exact Std.lt_irrefl (Std.lt_of_lt_of_le hlt hle)

variable [DecidableEq κ]

lemma pop_latest (h : Tracks latest (item :: queue)) (hcurrent : latest item.1 = some item.2) :
    Tracks (update latest item.1 none) queue := by
  have hothers : ∀ other ∈ queue, other.1 ≠ item.1 :=
    @ne_of_mem_after _ _ _ _ latest item.1 item.2 _ _ [] queue h hcurrent
  refine ⟨fun key version hkey => ?_, (pairwise_cons.mp h.increasing).2, fun other hother => ?_⟩
  · have hne : key ≠ item.1 := by
      rintro rfl
      simp at hkey
    rw [update_of_ne hne] at hkey
    rcases mem_cons.mp (h.complete key version hkey) with rfl | hmem
    · exact absurd rfl hne
    · exact hmem
  · rw [update_of_ne (hothers other hother)]
    exact h.held other (mem_cons_of_mem _ hother)

lemma push (h : Tracks latest queue) (hsub : queue'.Sublist queue)
    (hlater : ∀ old, latest key = some old → old < version)
    (hcomplete : ∀ other old, other ≠ key → latest other = some old → (other, old) ∈ queue') :
    Tracks (update latest key (some version)) (queue' ++ [(key, version)]) := by
  have hbefore : ∀ item ∈ queue', item.1 = key → item.2 < version := by
    rintro item hitem rfl
    obtain ⟨old, hold, hle⟩ := h.held item (hsub.subset hitem)
    exact Std.lt_of_le_of_lt hle (hlater old hold)
  refine ⟨fun other current hother => ?_, ?_, fun item hitem => ?_⟩
  · by_cases heq : other = key
    · subst heq
      rw [update_self] at hother
      rw [Option.some.inj hother]
      exact mem_append_right _ (mem_singleton_self _)
    · rw [update_of_ne heq] at hother
      exact mem_append_left _ (hcomplete other current heq hother)
  · rw [pairwise_append]
    refine ⟨h.increasing.sublist hsub, pairwise_singleton _ _, fun item hitem last hlast heq => ?_⟩
    obtain rfl := mem_singleton.mp hlast
    exact hbefore item hitem heq
  · rcases mem_append.mp hitem with hold | hnew
    · by_cases heq : item.1 = key
      · rw [heq, update_self]
        exact ⟨version, rfl, Std.le_of_lt (hbefore item hold heq)⟩
      · rw [update_of_ne heq]
        exact h.held item (hsub.subset hold)
    · obtain rfl := mem_singleton.mp hnew
      rw [update_self]
      exact ⟨version, rfl, Std.le_refl version⟩

end Tracks

end Recency
