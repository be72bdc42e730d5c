import HeteroNetwork.Lib.Runs
import HeteroNetwork.Lib.OrderedMap
import HeteroNetwork.Agent.EngineReplay

/-!
# Topology epochs of a forwarding engine

A topology epoch is the hash of a map, so epochs come back in any order.  The engine answers for its current
map and, for a while, for the maps it replaced.  Here is what keeps them apart over whole runs.
-/

namespace HeteroNetwork

open Checked OrderedMap List

inductive EngineCall where
  | updateNeighborMap (now later : Instant) (neighborMap : NeighborMap)
  | encapsulateSelected (now : Instant) (path : OverlayPath) (selection : OverlayPathSelection)
      (pathId : PathId) (sequence : UInt64) (innerWireguardDatagram : List UInt8)
  | receive (now : Instant) (previousHop : NodeId) (datagram : List UInt8)
deriving DecidableEq

def EngineCall.now : EngineCall → Instant
  | updateNeighborMap now _ _ => now
  | encapsulateSelected now _ _ _ _ _ => now
  | receive now _ _ => now

namespace BoundedOverlayForwarder

def step (f : BoundedOverlayForwarder) :
    EngineCall → Except OverlayForwarderError (Option OverlayForwardAction) × BoundedOverlayForwarder
  | .updateNeighborMap now later neighborMap =>
    match f.updateNeighborMap now later neighborMap with
    | .ok f' => (.ok none, f')
    | .error error => (.error error, f)
  | .encapsulateSelected now path selection pathId sequence inner =>
    exec (some <$> BoundedOverlayForwarder.encapsulateSelected now path selection pathId sequence inner) f
  | .receive now previousHop datagram =>
    exec (some <$> BoundedOverlayForwarder.receive now previousHop datagram) f

structure Overlap (f : BoundedOverlayForwarder) : Prop where
  distinct : f.epochs.Nodup
  bounded : f.retainedNeighborMaps.length ≤ maxRetainedTopologyEpochs
  replay : ∀ key ∈ f.replayWindow.sequences, key.topologyEpoch ∈ f.epochs

section Steps

variable {f f' : BoundedOverlayForwarder} {now : Instant}

lemma epochs_eq : f.epochs =
    f.neighborMap.topologyEpoch :: f.retainedNeighborMaps.map (·.neighborMap.topologyEpoch) := by
  rw [epochs, maps, map_cons, map_map]
  rfl

variable {key : ReplayPathKey}

lemma replayEntry_retainReplayEpochs :
    f.retainReplayEpochs.replayEntry key =
      if key.topologyEpoch ∈ f.epochs then f.replayEntry key else none := by
  rw [replayEntry, retainReplayEpochs, ← epochs_eq, ReplayWindow.retainEpochs,
    ReplayWindow.compactRecency_sequences, Std.TreeMap.getElem?_filter', replayEntry]
  by_cases hepoch : key.topologyEpoch ∈ f.epochs
  · rw [if_pos hepoch]
    cases f.replayWindow.sequences[key]? with
    | none => rfl
    | some entry => exact Option.filter_some_pos (decide_eq_true hepoch)
  · rw [if_neg hepoch, Option.filter_eq_none_iff.mpr fun _ _ h => hepoch (of_decide_eq_true h)]

lemma mem_sequences_iff : key ∈ f.replayWindow.sequences ↔ (f.replayEntry key).isSome = true := by
  rw [replayEntry, Std.TreeMap.isSome_getElem?_eq_contains, Std.TreeMap.contains_iff_mem]

lemma mem_epochs_of_retained (h : key ∈ f.retainReplayEpochs.replayWindow.sequences) :
    key.topologyEpoch ∈ f.epochs := by
  rw [mem_sequences_iff, replayEntry_retainReplayEpochs] at h
  by_contra hepoch
  rw [if_neg hepoch] at h
  cases h

/-! ## Expiry -/

/-- The engine without the maps that have expired, before its replay window follows. -/
def unexpired (f : BoundedOverlayForwarder) (now : Instant) : BoundedOverlayForwarder :=
  { f with retainedNeighborMaps := f.retainedNeighborMaps.filter fun retained => now < retained.expiresAt }

lemma expire_of_forall (h : ∀ retained ∈ f.retainedNeighborMaps, now < retained.expiresAt) :
    f.expireRetainedNeighborMaps now = f := by
  have hkept : (f.retainedNeighborMaps.filter fun retained => now < retained.expiresAt) =
      f.retainedNeighborMaps := filter_eq_self.mpr fun retained hmem => decide_eq_true (h retained hmem)
  rw [expireRetainedNeighborMaps, hkept, if_neg (not_not.mpr rfl)]

lemma expire_eq (f : BoundedOverlayForwarder) (now : Instant) : f.expireRetainedNeighborMaps now = f ∨
    f.expireRetainedNeighborMaps now = (f.unexpired now).retainReplayEpochs := by
  rw [expireRetainedNeighborMaps]
  split_ifs with hlength
  · exact .inr rfl
  · left
    have hkept := filter_eq_self.mpr (length_filter_eq_length_iff.mp (not_not.mp hlength))
    rw [hkept]

lemma expiresAt_of_mem_expire {retained : RetainedNeighborMap}
    (h : retained ∈ (f.expireRetainedNeighborMaps now).retainedNeighborMaps) : now < retained.expiresAt := by
  rw [expireRetainedNeighborMaps] at h
  split_ifs at h
  · exact of_decide_eq_true (mem_filter.mp h).2
  · exact of_decide_eq_true (mem_filter.mp h).2

lemma expire_expire : (f.expireRetainedNeighborMaps now).expireRetainedNeighborMaps now =
    f.expireRetainedNeighborMaps now :=
  expire_of_forall fun _ => expiresAt_of_mem_expire

lemma expire_neighborMap : (f.expireRetainedNeighborMaps now).neighborMap = f.neighborMap := by
  rw [expireRetainedNeighborMaps]
  split_ifs <;> rfl

lemma expire_config : (f.expireRetainedNeighborMaps now).config = f.config := by
  rw [expireRetainedNeighborMaps]
  split_ifs <;> rfl

lemma replayEntry_expire (h : key.topologyEpoch ∈ (f.expireRetainedNeighborMaps now).epochs) :
    (f.expireRetainedNeighborMaps now).replayEntry key = f.replayEntry key := by
  obtain heq | heq := expire_eq f now
  · rw [heq]
  · rw [heq] at h ⊢
    exact replayEntry_retainReplayEpochs.trans (if_pos h)

lemma Overlap.expire (h : f.Overlap) : (f.expireRetainedNeighborMaps now).Overlap := by
  obtain heq | heq := expire_eq f now
  · rw [heq]
    exact h
  · rw [heq]
    refine ⟨?_, ?_, fun _ => mem_epochs_of_retained⟩
    · have hepochs : (f.unexpired now).retainReplayEpochs.epochs.Sublist f.epochs := by
        rw [epochs_eq, epochs_eq]
        exact (filter_sublist.map _).cons_cons _
      exact h.distinct.sublist hepochs
    · exact (length_filter_le _ _).trans h.bounded

lemma nodup_retained {incoming : UInt64} {others : List RetainedNeighborMap} {last : RetainedNeighborMap}
    (n : ℕ) (h : f.epochs.Nodup) (hsub : others.Sublist f.retainedNeighborMaps)
    (hothers : ∀ retained ∈ others, retained.neighborMap.topologyEpoch ≠ incoming)
    (hlast : last.neighborMap.topologyEpoch = f.neighborMap.topologyEpoch)
    (hincoming : incoming ≠ f.neighborMap.topologyEpoch) :
    (incoming :: ((others ++ [last]).drop n).map (·.neighborMap.topologyEpoch)).Nodup := by
  rw [epochs_eq, nodup_cons] at h
  have hepochs : (others.map (·.neighborMap.topologyEpoch)).Sublist
      (f.retainedNeighborMaps.map (·.neighborMap.topologyEpoch)) := hsub.map _
  suffices hall : (incoming :: (others ++ [last]).map (·.neighborMap.topologyEpoch)).Nodup from
    hall.sublist (((drop_sublist _ _).map _).cons_cons _)
  rw [map_append, map_singleton, hlast, nodup_cons, mem_append, mem_singleton]
  refine ⟨?_, (h.2.sublist hepochs).append (nodup_singleton _) ?_⟩
  · rintro (hmem | heq)
    · obtain ⟨retained, hretained, heq⟩ := mem_map.mp hmem
      exact hothers retained hretained heq
    · exact hincoming heq
  · rw [disjoint_singleton]
    exact fun hmem => h.1 (hepochs.subset hmem)

lemma Overlap.update {later : Instant} {neighborMap : NeighborMap} (h : f.Overlap)
    (hok : f.updateNeighborMap now later neighborMap = .ok f') :
    f'.Overlap ∧ f'.neighborMap.clusterId = f.neighborMap.clusterId := by
  have hexpired : (f.expireRetainedNeighborMaps now).Overlap := h.expire
  simp only [updateNeighborMap, bind_eq_ok, rejectIf_eq_ok, not_not] at hok
  obtain ⟨ids, -, _, hcluster, hok⟩ := hok
  generalize f.expireRetainedNeighborMaps now = g at hexpired hok
  split_ifs at hok with hepoch
  · obtain rfl := Except.ok.inj hok
    refine ⟨⟨?_, ?_, fun _ => mem_epochs_of_retained⟩, hcluster⟩
    · refine epochs_eq ▸ nodup_retained _ hexpired.distinct (filter_sublist.trans filter_sublist)
        (fun retained hmem => ?_) rfl hepoch
      exact of_decide_eq_true (mem_filter.mp (mem_filter.mp hmem).1).2
    · simp only [retainReplayEpochs, length_drop]
      omega
  · obtain rfl := Except.ok.inj hok
    have hsame : { g with
        neighborMap, neighborIds := ids.val, neighborIds_eq := ids.property }.epochs = g.epochs := by
      rw [epochs_eq, epochs_eq, not_not.mp hepoch]
    exact ⟨⟨hsame ▸ hexpired.distinct, hexpired.bounded, hsame ▸ hexpired.replay⟩, hcluster⟩

lemma Overlap.observed {epoch sequence : UInt64} {source : NodeId} {pathId : PathId} (h : f.Overlap)
    (hknown : epoch ∈ (f.expireRetainedNeighborMaps now).epochs)
    (hobserved : Observed f f' now epoch source pathId sequence) :
    f'.Overlap ∧ f'.neighborMap = f.neighborMap := by
  have hexpired : (f.expireRetainedNeighborMaps now).Overlap := h.expire
  obtain ⟨w, hobserve, rfl⟩ := hobserved
  refine ⟨⟨hexpired.distinct, hexpired.bounded, fun key hkey => ?_⟩, expire_neighborMap⟩
  obtain ⟨next, -, hentries⟩ := ReplayWindow.observe_eq_ok ⟨epoch, source, pathId⟩ hobserve
  obtain ⟨entry, hentry⟩ := mem_iff_exists.mp hkey
  by_cases hown : (⟨epoch, source, pathId⟩ : ReplayPathKey) = key
  · rw [← hown]
    exact hknown
  · obtain hkept | hgone := hentries key
    · rw [if_neg hown] at hkept
      exact hexpired.replay key (mem_of_getElem? (hkept.symm.trans hentry))
    · rw [hgone] at hentry
      cases hentry

lemma Overlap.untouched (h : f.Overlap) (huntouched : Untouched f f' now) :
    f'.Overlap ∧ f'.neighborMap = f.neighborMap := by
  obtain rfl | rfl := huntouched
  · exact ⟨h, rfl⟩
  · exact ⟨h.expire, expire_neighborMap⟩

/-- What a call can do: fail, and at most drop what has expired, or keep the epochs apart. -/
inductive StepOf (f : BoundedOverlayForwarder) (now : Instant) :
    Except OverlayForwarderError (Option OverlayForwardAction) × BoundedOverlayForwarder → Prop
  | failed {g : BoundedOverlayForwarder} (error : OverlayForwarderError) (h : Untouched f g now) :
      StepOf f now (.error error, g)
  | passed {g : BoundedOverlayForwarder} (answer : Option OverlayForwardAction)
      (h : f.Overlap → g.Overlap ∧ g.neighborMap.clusterId = f.neighborMap.clusterId) :
      StepOf f now (.ok answer, g)

lemma stepOf_map {x : Call OverlayForwardAction}
    (h : Triple (· = f) x
      (fun _ g => f.Overlap → g.Overlap ∧ g.neighborMap.clusterId = f.neighborMap.clusterId)
      (fun _ g => Untouched f g now)) : StepOf f now (exec (some <$> x) f) := by
  have hmap : Triple (· = f) (some <$> x)
      (fun _ g => f.Overlap → g.Overlap ∧ g.neighborMap.clusterId = f.neighborMap.clusterId)
      (fun _ g => Untouched f g now) := .map h
  have hexec := hmap f rfl
  generalize exec (some <$> x) f = result at hexec ⊢
  obtain ⟨error | answer, g⟩ := result
  · exact .failed error hexec
  · exact .passed answer hexec

theorem stepOf_step (f : BoundedOverlayForwarder) (call : EngineCall) : StepOf f call.now (f.step call) := by
  cases call with
  | updateNeighborMap now later neighborMap =>
    rw [step]
    cases hupdate : f.updateNeighborMap now later neighborMap with
    | error error => exact .failed error (.inl rfl)
    | ok g => exact .passed none fun h => h.update hupdate
  | encapsulateSelected now path selection pathId sequence inner =>
    refine stepOf_map ((encapsulateSelected_effect f now path selection pathId sequence inner).post
      (fun _ g h hoverlap => ?_) fun _ _ h => h.1)
    obtain ⟨hafter, hmap⟩ := hoverlap.observed h.1 h.2
    exact ⟨hafter, by rw [hmap]⟩
  | receive now previousHop datagram =>
    refine stepOf_map ((receive_effect f now previousHop datagram).post
      (fun _ g h hoverlap => ?_) fun _ _ h => h)
    obtain ⟨e, -, hknown, hobserved⟩ := h
    obtain ⟨hafter, hmap⟩ := hoverlap.observed hknown hobserved
    exact ⟨hafter, by rw [hmap]⟩

lemma overlap_step (call : EngineCall) (h : f.Overlap) :
    (f.step call).2.Overlap ∧ (f.step call).2.neighborMap.clusterId = f.neighborMap.clusterId := by
  have hstep := stepOf_step f call
  generalize f.step call = result at hstep ⊢
  cases hstep with
  | failed error huntouched =>
    obtain ⟨hafter, hmap⟩ := h.untouched huntouched
    exact ⟨hafter, by rw [hmap]⟩
  | passed answer hpassed => exact hpassed h

lemma step_failed {call : EngineCall} {error : OverlayForwarderError}
    (herror : (f.step call).1 = .error error) :
    (f.step call).2.neighborMap = f.neighborMap ∧
      ∀ key : ReplayPathKey, key.topologyEpoch ∈ (f.step call).2.epochs →
        (f.step call).2.replayEntry key = f.replayEntry key := by
  have hstep := stepOf_step f call
  generalize f.step call = result at hstep herror ⊢
  cases hstep with
  | failed _ huntouched =>
    obtain rfl | rfl := huntouched
    · exact ⟨rfl, fun _ _ => rfl⟩
    · exact ⟨expire_neighborMap, fun _ => replayEntry_expire⟩
  | passed answer => cases herror

/-! ## No expired map is consulted -/

lemma fst_exec_check_bind {α β : Type} {x : Except OverlayForwarderError α} {k : α → Call β}
    (h : ∀ a, (exec (k a) f').1 = (exec (k a) f).1) :
    (exec (check x >>= k) f').1 = (exec (check x >>= k) f).1 := by
  cases x with
  | error error => rfl
  | ok a => exact h a

lemma exec_validateTopologyEpoch_bind {β : Type} {epoch : UInt64} {k : Unit → Call β} :
    exec (validateTopologyEpoch now epoch >>= k) (f.expireRetainedNeighborMaps now) =
      exec (validateTopologyEpoch now epoch >>= k) f := by
  rw [validateTopologyEpoch, bind_assoc, exec_modify_bind, exec_modify_bind, expire_expire]

lemma fst_exec_map {x : Call OverlayForwardAction} (h : (exec x f').1 = (exec x f).1) :
    (exec (some <$> x) f').1 = (exec (some <$> x) f).1 := by
  rw [exec_map, exec_map]
  exact congrArg (Except.map some) h

lemma step_expired (call : EngineCall) :
    ((f.expireRetainedNeighborMaps call.now).step call).1 = (f.step call).1 := by
  cases call with
  | updateNeighborMap now later neighborMap =>
    have hupdate : (f.expireRetainedNeighborMaps now).updateNeighborMap now later neighborMap =
        f.updateNeighborMap now later neighborMap := by
      rw [updateNeighborMap, updateNeighborMap, expire_expire, expire_neighborMap,
        expireRetainedNeighborMaps_localNode]
    rw [EngineCall.now, step, step, hupdate]
    cases f.updateNeighborMap now later neighborMap with
    | error | ok => rfl
  | encapsulateSelected now path selection pathId sequence inner =>
    refine fst_exec_map ?_
    have hinner : (f.expireRetainedNeighborMaps now).validateInnerDatagram inner =
        f.validateInnerDatagram inner := by
      rw [validateInnerDatagram, expire_config, validateInnerDatagram]
    rw [EngineCall.now, encapsulateSelected, exec_get_bind, exec_get_bind, hinner]
    refine fst_exec_check_bind fun _ => fst_exec_check_bind fun _ => ?_
    rw [validateSelectedPath, bind_assoc]
    refine fst_exec_check_bind fun _ => ?_
    rw [bind_assoc, exec_validateTopologyEpoch_bind]
  | receive now previousHop datagram =>
    refine fst_exec_map ?_
    have hsize : (f.expireRetainedNeighborMaps now).validateFrameSize datagram.length =
        f.validateFrameSize datagram.length := by
      rw [validateFrameSize, expire_config, validateFrameSize]
    rw [EngineCall.now, receive, exec_get_bind, exec_get_bind, hsize]
    refine fst_exec_check_bind fun _ => fst_exec_check_bind fun _ => ?_
    rw [exec_validateTopologyEpoch_bind]

end Steps

/-- **The epochs of an engine over a run.**  Its maps have distinct epochs, at most eight are retained, and
every replay entry belongs to one of them.  The answer of a call does not depend on maps that have expired,
and a call that fails changes neither the current map nor the entries of epochs that are left. -/
theorem engine_epochs (localNode : NodeId) (neighborMap : NeighborMap) (config : OverlayForwarderConfig)
    (start : BoundedOverlayForwarder) (hnew : new localNode neighborMap config = .ok start)
    (calls : List EngineCall) :
    let f := Runs.exec step start calls
    f.epochs.Nodup ∧ f.retainedNeighborMaps.length ≤ 8 ∧
    (∀ key ∈ f.replayWindow.sequences, key.topologyEpoch ∈ f.epochs) ∧
    f.neighborMap.clusterId = neighborMap.clusterId ∧
    ∀ call : EngineCall,
      ((f.expireRetainedNeighborMaps call.now).step call).1 = (f.step call).1 ∧
      (∀ retained ∈ (f.expireRetainedNeighborMaps call.now).retainedNeighborMaps,
        call.now < retained.expiresAt) ∧
      ∀ error, (f.step call).1 = .error error →
        (f.step call).2.neighborMap = f.neighborMap ∧
        ∀ key : ReplayPathKey, key.topologyEpoch ∈ (f.step call).2.epochs →
          (f.step call).2.replayEntry key = f.replayEntry key := by
  intro f
  simp only [new, bind_eq_ok, pure_eq_ok_iff] at hnew
  obtain ⟨_, -, _, -, rfl⟩ := hnew
  obtain ⟨hoverlap, hcluster⟩ : f.Overlap ∧ f.neighborMap.clusterId = neighborMap.clusterId := by
    refine Runs.exec_invariant
      (fun g : BoundedOverlayForwarder => g.Overlap ∧ g.neighborMap.clusterId = neighborMap.clusterId)
      (fun call _ g h => ?_) ⟨⟨?_, ?_, fun key hkey => ?_⟩, rfl⟩
    · obtain ⟨hafter, hsame⟩ := overlap_step call h.1
      exact ⟨hafter, hsame.trans h.2⟩
    · exact List.nodup_singleton _
    · exact Nat.zero_le _
    · exact absurd hkey Std.TreeMap.not_mem_emptyc
  exact ⟨hoverlap.distinct, hoverlap.bounded, hoverlap.replay, hcluster, fun call =>
    ⟨step_expired call, fun _ => expiresAt_of_mem_expire, fun _ => step_failed⟩⟩

namespace SampleEngine

def neighborMap (epoch : UInt64) : NeighborMap where
  clusterId := ⟨"lab"⟩
  nodeId := ⟨"n"⟩
  topologyEpoch := epoch
  neighbors := [⟨"m"⟩]
  validation := .ok ()

def calls : List EngineCall :=
  [.updateNeighborMap 1 1 (neighborMap 2), .updateNeighborMap 2 2 (neighborMap 3),
    .updateNeighborMap 3 3 (neighborMap 1)]

theorem engine_epochs_returning :
    ∃ start, new ⟨"n"⟩ (neighborMap 1) ⟨1000, 4, 16⟩ = .ok start ∧
      (Runs.exec step start calls).epochs = [1, 2, 3] ∧ (Runs.exec step start calls).epochs.Nodup := by
  refine ⟨_, rfl, by decide +kernel, ?_⟩
  exact (engine_epochs ⟨"n"⟩ (neighborMap 1) ⟨1000, 4, 16⟩ _ rfl calls).1

end SampleEngine

end BoundedOverlayForwarder

end HeteroNetwork
