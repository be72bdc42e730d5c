import HeteroNetwork.Agent.OverlayForwarder

/-!
# What engine calls do to one replay entry

An engine shares its replay window among all paths.  A call that concerns another key leaves an entry
alone or drops it; an attempt under the key itself adds one sequence number to what the entry represents.
-/

namespace HeteroNetwork

open Checked List ReplayWindow

/-! ## The window's entry for one key, from outside -/

def KeptOrDropped (before after : Option ReplaySequenceWindow) : Prop :=
  after = before ∨ after = none

lemma KeptOrDropped.trans {a b c : Option ReplaySequenceWindow} (h₁ : KeptOrDropped a b)
    (h₂ : KeptOrDropped b c) : KeptOrDropped a c := by
  rcases h₂ with rfl | rfl
  · exact h₁
  · exact .inr rfl

lemma KeptOrDropped.represents {before after : Option ReplaySequenceWindow}
    (h : KeptOrDropped before after) {accepted : List UInt64}
    (hbefore : EntryRepresents before accepted) :
    ∃ accepted', EntryRepresents after accepted' ∧
      (accepted' = accepted ∨ accepted' = []) := by
  rcases h with rfl | rfl
  · exact ⟨accepted, hbefore, .inl rfl⟩
  · exact ⟨[], rfl, .inr rfl⟩

namespace BoundedOverlayForwarder

def replayEntry (f : BoundedOverlayForwarder) (key : ReplayPathKey) :
    Option ReplaySequenceWindow :=
  f.replayWindow.sequences[key]?

variable (f : BoundedOverlayForwarder)

lemma retainReplayEpochs_entry (key : ReplayPathKey) :
    KeptOrDropped (f.replayEntry key) (f.retainReplayEpochs.replayEntry key) :=
  retainEpochs_entry f.replayWindow _ key

lemma expireRetainedNeighborMaps_entry (now : Instant) (key : ReplayPathKey) :
    KeptOrDropped (f.replayEntry key) ((f.expireRetainedNeighborMaps now).replayEntry key) := by
  simp only [expireRetainedNeighborMaps]
  split_ifs
  · exact retainReplayEpochs_entry _ key
  · exact .inl rfl

variable {f' : BoundedOverlayForwarder} {now : Instant}

lemma Untouched.entry {f : BoundedOverlayForwarder} (h : Untouched f f' now) (key : ReplayPathKey) :
    KeptOrDropped (f.replayEntry key) (f'.replayEntry key) := by
  rcases h with rfl | rfl
  · exact .inl rfl
  · exact expireRetainedNeighborMaps_entry f now key

variable {key : ReplayPathKey}

lemma Observed.entry_of_ne {f : BoundedOverlayForwarder} (other : ReplayPathKey) {sequence : UInt64}
    (h : Observed f f' now other.topologyEpoch other.source other.pathId sequence)
    (hne : other ≠ key) : KeptOrDropped (f.replayEntry key) (f'.replayEntry key) := by
  obtain ⟨w, hobserve, rfl⟩ := h
  obtain ⟨next, -, hentries⟩ := observe_eq_ok other hobserve
  have hkey := hentries key
  rw [if_neg hne] at hkey
  exact (expireRetainedNeighborMaps_entry f now key).trans hkey

lemma updateNeighborMap_entry {f : BoundedOverlayForwarder} {later : Instant}
    {neighborMap : NeighborMap} (h : f.updateNeighborMap now later neighborMap = .ok f')
    (key : ReplayPathKey) : KeptOrDropped (f.replayEntry key) (f'.replayEntry key) := by
  simp only [updateNeighborMap, bind_eq_ok] at h
  obtain ⟨_, -, _, -, h⟩ := h
  refine (expireRetainedNeighborMaps_entry f now key).trans ?_
  split_ifs at h
  · obtain rfl := Except.ok.inj h
    exact retainReplayEpochs_entry _ key
  · obtain rfl := Except.ok.inj h
    exact .inl rfl

lemma receive_entry (now : Instant) (previousHop : NodeId) (datagram : List UInt8)
    (hsource : key.source = f.localNode) :
    KeptOrDropped (f.replayEntry key)
      ((exec (receive now previousHop datagram) f).2.replayEntry key) := by
  refine Triple.final (R := fun f' => KeptOrDropped (f.replayEntry key) (f'.replayEntry key))
    ((receive_effect f now previousHop datagram).post (fun _ f' h => ?_) fun _ _ h => h.entry key)
  obtain ⟨e, hne, -, hobserved⟩ := h
  refine Observed.entry_of_ne ⟨e.topologyEpoch, e.source, e.pathId⟩ hobserved ?_
  rintro rfl
  exact hne hsource

section

variable (now) (path : OverlayPath) (selection : OverlayPathSelection) (pathId : PathId)
  (sequence : UInt64) (inner : List UInt8)

lemma encapsulateSelected_entry_of_ne (hne : pathId ≠ key.pathId) :
    KeptOrDropped (f.replayEntry key)
      ((exec (encapsulateSelected now path selection pathId sequence inner) f).2.replayEntry key) := by
  refine Triple.final (R := fun f' => KeptOrDropped (f.replayEntry key) (f'.replayEntry key))
    ((encapsulateSelected_effect f now path selection pathId sequence inner).post (fun _ f' h => ?_)
      fun _ _ h => h.1.entry key)
  refine Observed.entry_of_ne ⟨path.topologyEpoch, f.localNode, pathId⟩ h.2 ?_
  rintro rfl
  exact hne rfl

/-- **One's own attempt.**  It uses up at most its own sequence number, and the window does not
reject a fresh one. -/
lemma encapsulateSelected_represents
    {accepted : List UInt64} (hentry : EntryRepresents
      (f.replayEntry ⟨path.topologyEpoch, f.localNode, pathId⟩) accepted) :
    (∃ accepted', EntryRepresents
      ((exec (encapsulateSelected now path selection pathId sequence inner) f).2.replayEntry
        ⟨path.topologyEpoch, f.localNode, pathId⟩) accepted' ∧ accepted' ⊆ accepted ++ [sequence]) ∧
    (Fresh accepted sequence → ∀ error,
      (exec (encapsulateSelected now path selection pathId sequence inner) f).1 = .error error →
        error.isReplayRejected = false) := by
  have heffect := encapsulateSelected_effect f now path selection pathId sequence inner f rfl
  obtain ⟨before, hbefore, hcases⟩ := (expireRetainedNeighborMaps_entry f now
    ⟨path.topologyEpoch, f.localNode, pathId⟩).represents hentry
  have hsub : before ⊆ accepted := by
    rcases hcases with rfl | rfl
    · exact List.Subset.refl _
    · exact nil_subset _
  rcases hexec : exec (encapsulateSelected now path selection pathId sequence inner) f
    with ⟨error | action, f'⟩
  · rw [hexec] at heffect
    obtain ⟨huntouched, hreplay⟩ := heffect
    refine ⟨?_, ?_⟩
    · obtain ⟨after, hafter, rfl | rfl⟩ := (huntouched.entry _).represents hentry
      · exact ⟨after, hafter, subset_append_left _ _⟩
      · exact ⟨[], hafter, nil_subset _⟩
    · intro hfresh error' herror
      obtain rfl := Except.error.inj herror
      by_contra hrejected
      have hfresh' : Fresh before sequence := by
        rcases hcases with rfl | rfl
        · exact hfresh
        · simp [Fresh]
      -- the window accepts a fresh number, so `observe` did not fail
      obtain ⟨w, haccepts⟩ := (observe_isOk_iff _
        ⟨path.topologyEpoch, f.localNode, pathId⟩ sequence).mpr
        ((observeEntry_isOk_iff f.localNode sequence hbefore).mpr hfresh')
      have hfails := hreplay (by simpa using hrejected)
      rw [hfails] at haccepts
      cases haccepts
  · rw [hexec] at heffect
    refine ⟨?_, fun _ _ herror => by cases herror⟩
    obtain ⟨-, w, hobserve, rfl⟩ := heffect
    obtain ⟨next, hnext, hentries⟩ := observe_eq_ok
      ⟨path.topologyEpoch, f.localNode, pathId⟩ hobserve
    have hnew : EntryRepresents (some next.1) (before ++ [sequence]) :=
      observeEntry_represents hbefore hnext
    have hkept : KeptOrDropped (some next.1) w.sequences[(⟨path.topologyEpoch, f.localNode,
        pathId⟩ : ReplayPathKey)]? := by
      have hkey := hentries ⟨path.topologyEpoch, f.localNode, pathId⟩
      rwa [if_pos rfl] at hkey
    obtain ⟨after, hafter, rfl | rfl⟩ := hkept.represents hnew
    · refine ⟨_, hafter, ?_⟩
      exact append_subset.mpr ⟨fun a ha => mem_append_left _ (hsub ha),
        subset_append_right _ _⟩
    · exact ⟨[], hafter, nil_subset _⟩

end

end BoundedOverlayForwarder

end HeteroNetwork
