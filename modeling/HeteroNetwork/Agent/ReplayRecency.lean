import HeteroNetwork.Lib.OrderedMap
import HeteroNetwork.Lib.Recency
import HeteroNetwork.Agent.ReplayWindow

/-!
# Recency of the replay window

The replay window forgets the key that has not advanced for the longest time.  It finds that key with a
queue of the highest sequences in the order in which they were reached, cleaned up only when it is twice as
long as the capacity.
-/

namespace HeteroNetwork

open Checked OrderedMap Recency Std Function List Std.TreeMap

namespace ReplayWindow

def latest (sequences : Std.TreeMap ReplayPathKey ReplaySequenceWindow) (key : ReplayPathKey) :
    Option UInt64 :=
  sequences[key]?.map ReplaySequenceWindow.highest

section Latest

variable {sequences : Std.TreeMap ReplayPathKey ReplaySequenceWindow} {key : ReplayPathKey}
  {entry : ReplaySequenceWindow} {item : ReplayPathKey × UInt64} {sequence : UInt64}

lemma isLatest_iff : isLatest sequences item = true ↔ latest sequences item.1 = some item.2 := by
  simp [isLatest, latest, Option.any_eq_true, Option.map_eq_some_iff]

lemma isLatest_eq : isLatest sequences = fun item => decide (latest sequences item.1 = some item.2) := by
  funext item
  rw [Bool.eq_iff_iff, isLatest_iff, decide_eq_true_iff]

lemma mem_of_latest (h : latest sequences key = some sequence) : key ∈ sequences := by
  obtain ⟨entry, hentry, -⟩ := Option.map_eq_some_iff.mp h
  exact mem_of_getElem? hentry

lemma latest_insert :
    latest (sequences.insert key entry) = update (latest sequences) key (some entry.highest) := by
  funext other
  by_cases h : key = other
  · subst h
    rw [update_self, latest, getElem?_insert_self]
    rfl
  · rw [update_of_ne (Ne.symm h), latest, getElem?_insert_ne h]
    rfl

lemma latest_erase : latest (sequences.erase key) = update (latest sequences) key none := by
  funext other
  by_cases h : key = other
  · subst h
    rw [update_self, latest, getElem?_erase_self]
    rfl
  · rw [update_of_ne (Ne.symm h), latest, getElem?_erase_ne h]
    rfl

lemma size_le_length {recency : List (ReplayPathKey × UInt64)} (h : Tracks (latest sequences) recency) :
    sequences.size ≤ recency.length := by
  rw [← length_keys, ← length_map Prod.fst]
  refine ((nodup_keys sequences).subperm fun key hkey => ?_).length_le
  obtain ⟨entry, hentry⟩ := mem_iff_exists.mp (mem_keys.mp hkey)
  exact mem_map.mpr ⟨(key, entry.highest), h.complete key _ (by rw [latest, hentry]; rfl), rfl⟩

end Latest

/-! ## Eviction -/

section Evict

variable {capacity : ℕ} {recency : List (ReplayPathKey × UInt64)}
  {sequences : Std.TreeMap ReplayPathKey ReplaySequenceWindow}

lemma evictLoop_tracks (h : Tracks (latest sequences) recency) :
    let w := evictLoop capacity recency sequences
    Tracks (latest w.sequences) w.recency ∧ w.sequences.size ≤ capacity ∧
      w.recency.length ≤ recency.length ∧ w.capacity = capacity := by
  induction recency generalizing sequences with
  | nil => exact ⟨h, (size_le_length h).trans (Nat.zero_le _), le_rfl, rfl⟩
  | cons item rest ih =>
    rw [evictLoop]
    split_ifs with hfull hlatest
    · have hpop := h.pop_latest (isLatest_iff.mp hlatest)
      rw [← latest_erase] at hpop
      obtain ⟨htracks, hsize, hlength, hcapacity⟩ := ih hpop
      exact ⟨htracks, hsize, hlength.trans (Nat.le_succ _), hcapacity⟩
    · obtain ⟨htracks, hsize, hlength, hcapacity⟩ := ih (h.pop_stale fun heq =>
        hlatest (isLatest_iff.mpr heq))
      exact ⟨htracks, hsize, hlength.trans (Nat.le_succ _), hcapacity⟩
    · exact ⟨h, Nat.not_lt.mp hfull, le_rfl, rfl⟩

lemma evictLoop_keeps_last {key : ReplayPathKey} {sequence : UInt64} (hcapacity : 1 ≤ capacity)
    (h : Tracks (latest sequences) (recency ++ [(key, sequence)])) (hsize : sequences.size ≤ capacity + 1)
    (hlast : latest sequences key = some sequence) :
    key ∈ (evictLoop capacity (recency ++ [(key, sequence)]) sequences).sequences := by
  induction recency with
  | nil =>
    have hone : sequences.size ≤ 1 := size_le_length h
    rw [nil_append, evictLoop, if_neg (by omega)]
    exact mem_of_latest hlast
  | cons item rest ih =>
    rw [cons_append, evictLoop]
    split_ifs with hfull hlatest
    · -- The first current entry belongs to another key, and its key is the only one to go.
      have hcurrent := isLatest_iff.mp hlatest
      have hne : key ≠ item.1 := @Tracks.ne_of_mem_after _ _ _ _ _ _ _ _ _ [] _ h hcurrent
        (key, sequence) (mem_append_right _ (mem_singleton_self _))
      have hsmaller : (sequences.erase item.1).size ≤ capacity := by
        rw [size_erase, if_pos (contains_iff_mem.mpr (mem_of_latest hcurrent))]
        omega
      have hstop := @evictToCapacity_of_le ⟨capacity, sequences.erase item.1, rest ++ [(key, sequence)]⟩
        hsmaller
      rw [evictToCapacity] at hstop
      have hstays : latest (sequences.erase item.1) key = some sequence := by
        rw [latest_erase, update_of_ne hne]
        exact hlast
      rw [hstop]
      exact mem_of_latest hstays
    · exact ih (h.pop_stale fun heq => hlatest (isLatest_iff.mpr heq))
    · exact mem_of_latest hlast

end Evict

/-! ## Calls -/

structure Recent (w : ReplayWindow) : Prop where
  tracks : Tracks (latest w.sequences) w.recency
  size_le : w.sequences.size ≤ w.capacity
  length_le : w.recency.length ≤ 2 * w.capacity

section Calls

variable {w w' : ReplayWindow} {key : ReplayPathKey} {sequence : UInt64}

lemma observeEntry_highest {source : NodeId} {entry : Option ReplaySequenceWindow}
    {next : ReplaySequenceWindow × Option UInt64} (h : observeEntry source sequence entry = .ok next) :
    (next.2 = none ∧ entry.map ReplaySequenceWindow.highest = some next.1.highest) ∨
      (next.2 = some next.1.highest ∧
        ∀ old, entry.map ReplaySequenceWindow.highest = some old → old < next.1.highest) := by
  cases entry with
  | none =>
    obtain rfl := Except.ok.inj h
    exact .inr ⟨rfl, by simp⟩
  | some window =>
    rw [observeEntry] at h
    split_ifs at h with hgt
    · obtain rfl := Except.ok.inj h
      refine .inr ⟨rfl, fun old hold => ?_⟩
      obtain rfl := Option.some.inj hold
      exact hgt
    · simp only [bind_eq_ok, rejectIf_eq_ok, pure_eq_ok_iff] at h
      obtain ⟨_, -, _, -, rfl⟩ := h
      exact .inl ⟨rfl, rfl⟩

lemma length_compact_le {sequences sequences' : TreeMap ReplayPathKey ReplaySequenceWindow}
    {recency : List (ReplayPathKey × UInt64)} (h : Tracks (latest sequences) recency) :
    (recency.filter (isLatest sequences')).length ≤ sequences.size := by
  rw [← length_keys, ← length_map Prod.fst]
  refine List.Subperm.length_le (List.Nodup.subperm ?_ fun key hkey => ?_)
  · refine List.Nodup.map_on (fun a ha b hb heq => ?_) (h.nodup.filter _)
    have hcurrent := isLatest_iff.mp (mem_filter.mp ha).2
    have hcurrent' := isLatest_iff.mp (mem_filter.mp hb).2
    rw [heq, hcurrent'] at hcurrent
    exact Prod.ext heq (Option.some.inj hcurrent).symm
  · obtain ⟨item, hitem, rfl⟩ := mem_map.mp hkey
    obtain ⟨version, hversion, -⟩ := h.held item (mem_filter.mp hitem).1
    exact mem_keys.mpr (mem_of_latest hversion)

lemma pushRecency_eq {entry : ReplaySequenceWindow} (hcapacity : 1 ≤ w.capacity) (h : Recent w) :
    ∃ front, pushRecency { w with sequences := w.sequences.insert key entry } key (some sequence) =
        ⟨w.capacity, w.sequences.insert key entry, front ++ [(key, sequence)]⟩ ∧
      front.Sublist w.recency ∧ front.length + 1 ≤ 2 * w.capacity ∧
      ∀ other old, other ≠ key → latest w.sequences other = some old → (other, old) ∈ front := by
  rw [pushRecency]
  split_ifs with hlong
  · refine ⟨w.recency.filter (isLatest (w.sequences.insert key entry)), rfl, filter_sublist, ?_, ?_⟩
    · have hlength := (@length_compact_le _ (w.sequences.insert key entry) _ h.tracks).trans h.size_le
      omega
    · intro other old hne hold
      refine mem_filter.mpr ⟨h.tracks.complete other old hold, isLatest_iff.mpr ?_⟩
      rw [latest_insert, update_of_ne hne]
      exact hold
  · refine ⟨w.recency, rfl, List.Sublist.refl _, ?_, fun other old _ hold => h.tracks.complete other old hold⟩
    have hshort : w.recency.length < w.capacity * 2 := Nat.not_le.mp hlong
    omega

lemma observe_recent (hcapacity : 1 ≤ w.capacity) (h : Recent w)
    (hok : w.observe key.topologyEpoch key.source key.pathId sequence = .ok w') :
    Recent w' ∧ w'.capacity = w.capacity ∧ key ∈ w'.sequences := by
  simp only [observe, bind_eq_ok, pure_eq_ok_iff] at hok
  obtain ⟨⟨entry, recencySequence⟩, hentry, rfl⟩ := hok
  show Recent (pushRecency { w with sequences := w.sequences.insert key entry } key
      recencySequence).evictToCapacity ∧ _
  rcases observeEntry_highest hentry with ⟨hnone, hsame⟩ | ⟨hsome, hlater⟩
  · -- The sequence lies within the window of its key, which stays where it is in the queue.
    obtain rfl : recencySequence = none := hnone
    have hlatest : latest (w.sequences.insert key entry) = latest w.sequences := by
      rw [latest_insert, update_eq_self_iff]
      exact hsame.symm
    have hmem : key ∈ w.sequences := mem_of_latest hsame
    have hsize : (w.sequences.insert key entry).size ≤ w.capacity := by
      rw [size_insert, if_pos (contains_iff_mem.mpr hmem)]
      exact h.size_le
    have hstop := @evictToCapacity_of_le { w with sequences := w.sequences.insert key entry } hsize
    rw [pushRecency, hstop]
    refine ⟨⟨?_, hsize, h.length_le⟩, rfl, mem_insert_self⟩
    show Tracks (latest (w.sequences.insert key entry)) w.recency
    rw [hlatest]
    exact h.tracks
  · obtain rfl : recencySequence = some entry.highest := hsome
    obtain ⟨front, hpush, hsub, hlength, hcomplete⟩ :=
      @pushRecency_eq w key entry.highest entry hcapacity h
    have htracks := h.tracks.push hsub hlater hcomplete
    rw [← latest_insert] at htracks
    have hsize : (w.sequences.insert key entry).size ≤ w.capacity + 1 :=
      size_insert_le.trans (Nat.succ_le_succ h.size_le)
    have hlast : latest (w.sequences.insert key entry) key = some entry.highest := by
      rw [latest_insert, update_self]
    rw [hpush, evictToCapacity]
    obtain ⟨htracks', hsize', hlength', hcapacity'⟩ := @evictLoop_tracks w.capacity _ _ htracks
    rw [length_append, length_singleton] at hlength'
    refine ⟨⟨htracks', ?_, ?_⟩, hcapacity', evictLoop_keeps_last hcapacity htracks hsize hlast⟩
    · rw [hcapacity']
      exact hsize'
    · rw [hcapacity']
      exact hlength'.trans hlength

lemma retainEpochs_recent (epochs : List UInt64) (h : Recent w) : Recent (w.retainEpochs epochs) := by
  have hsub : ∀ key version, latest (w.retainEpochs epochs).sequences key = some version →
      latest w.sequences key = some version := by
    intro key version hkey
    rcases retainEpochs_entry w epochs key with hsame | hnone
    · rwa [latest, hsame] at hkey
    · rw [latest, hnone] at hkey
      cases hkey
  have hsize : (w.retainEpochs epochs).sequences.size ≤ w.sequences.size := by
    refine OrderedMap.size_le fun key hkey => ?_
    obtain ⟨entry, hentry⟩ := mem_iff_exists.mp hkey
    exact mem_of_latest (hsub key entry.highest (by rw [latest, hentry]; rfl))
  have hcompact := h.tracks.compact hsub
  rw [← isLatest_eq] at hcompact
  exact ⟨hcompact, hsize.trans h.size_le, (length_filter_le _ _).trans h.length_le⟩

lemma apply_recent (hcapacity : 1 ≤ w.capacity) (h : Recent w) (op : Op) :
    Recent (w.apply op) ∧ (w.apply op).capacity = w.capacity := by
  cases op with
  | retainEpochs epochs => exact ⟨retainEpochs_recent epochs h, rfl⟩
  | observe key sequence =>
    rw [apply]
    cases hobserve : w.observe key.topologyEpoch key.source key.pathId sequence with
    | error error => exact ⟨h, rfl⟩
    | ok w' =>
      obtain ⟨hrecent, hsame, -⟩ := observe_recent hcapacity h hobserve
      exact ⟨hrecent, hsame⟩

end Calls

lemma run_recent {w : ReplayWindow} (hcapacity : 1 ≤ w.capacity) (h : Recent w) (ops : List Op) :
    Recent (w.run ops) ∧ (w.run ops).capacity = w.capacity := by
  induction ops generalizing w with
  | nil => exact ⟨h, rfl⟩
  | cons op ops ih =>
    obtain ⟨hstep, hsame⟩ := apply_recent hcapacity h op
    obtain ⟨hrun, hcapacity'⟩ := ih (hsame ▸ hcapacity) hstep
    exact ⟨hrun, hcapacity'.trans hsame⟩

/-- **The queue of a replay window is exact and bounded in every run.** -/
theorem replay_window_recency (capacity : ℕ) (hcapacity : 1 ≤ capacity) (ops : List Op) :
    let w := (new capacity).run ops
    w.sequences.size ≤ capacity ∧
    w.recency.length ≤ 2 * capacity ∧
    -- A key has one entry with its highest sequence.
    (∀ key window, w.sequences[key]? = some window → w.recency.count (key, window.highest) = 1) ∧
    -- Its entries stand in the order of their sequences.
    (∀ key, ((w.recency.filter fun item => item.1 = key).map Prod.snd).Pairwise (· < ·)) ∧
    -- A key that is not held any more has no entry.
    (∀ key, key ∉ w.sequences → ∀ item ∈ w.recency, item.1 ≠ key) ∧
    -- The next observation does not evict its own key.
    (∀ key sequence w', w.observe key.topologyEpoch key.source key.pathId sequence = .ok w' →
      key ∈ w'.sequences) := by
  intro w
  have hempty : Recent (new capacity) := ⟨Tracks.empty, Nat.zero_le _, Nat.zero_le _⟩
  obtain ⟨hrecent, hsame⟩ : Recent w ∧ w.capacity = capacity := run_recent hcapacity hempty ops
  refine ⟨hsame ▸ hrecent.size_le, hsame ▸ hrecent.length_le, ?_, ?_, ?_, ?_⟩
  · intro key window hwindow
    refine List.count_eq_one_of_mem hrecent.tracks.nodup (hrecent.tracks.complete key _ ?_)
    rw [latest, hwindow]
    rfl
  · intro key
    rw [List.pairwise_map]
    refine (hrecent.tracks.increasing.filter _).imp_of_mem fun ha hb hlt => hlt ?_
    have hkey := (List.mem_filter.mp ha).2
    have hkey' := (List.mem_filter.mp hb).2
    rw [decide_eq_true_iff] at hkey hkey'
    rw [hkey, hkey']
  · rintro key hgone item hitem rfl
    obtain ⟨version, hversion, -⟩ := hrecent.tracks.held item hitem
    exact hgone (mem_of_latest hversion)
  · intro key sequence w' hok
    exact (observe_recent (hsame.symm ▸ hcapacity) hrecent hok).2.2

/-- Two keys compete for the place of one. -/
theorem replay_window_recency_sample :
    let w := (new 1).run [.observe sampleKey 5000, .observe { sampleKey with topologyEpoch := 8 } 1]
    w.recency = [({ sampleKey with topologyEpoch := 8 }, 1)] ∧ w.sequences.size ≤ 1 :=
  ⟨by decide +kernel, (replay_window_recency 1 le_rfl
    [.observe sampleKey 5000, .observe { sampleKey with topologyEpoch := 8 } 1]).1⟩

end ReplayWindow

end HeteroNetwork
