import HeteroNetwork.ControlPlane.AdminLedger

/-!
# One chain of manifests per cluster

Four operations write anchors, manifests and rotations.  Together they keep one history per cluster:
a first anchor, set once, and a chain of rotations from it to the anchor in force.
-/

namespace HeteroNetwork

open Checked OrderedMap Quorum Std TreeMap Runs List

variable {env : Primitives}

/-! ## Anchors of manifests -/

lemma validateAdminPublicManifest_eq_ok {cluster : ClusterId} {m : Manifest}
    {anchor : AdminQuorumManifestAnchor} :
    validateAdminPublicManifest env cluster m = .ok anchor ↔
      cluster.asStr = m.clusterId ∧ m.digest env = .ok anchor.manifestDigest ∧
        anchor.manifestEpoch = m.epoch := by
  rcases anchor with ⟨epoch, digest⟩
  unfold validateAdminPublicManifest
  rw [bind_eq_ok]
  simp only [rejectIf_eq_ok, ne_eq, not_not]
  cases m.digest env with
  | error error => simp
  | ok d =>
    simp only [pure_eq_ok_iff, AdminQuorumManifestAnchor.mk.injEq, Except.ok.injEq, exists_const]
    tauto

lemma epoch_of_validateAt {verified : VerifiedRotation env} {now : UInt64}
    (h : verified.validateAt now = .ok ()) :
    verified.oldManifest.digest env = .ok verified.rotation.transition.oldManifestDigest ∧
      verified.oldManifest.epoch.toNat + 1 = verified.rotation.transition.newManifest.epoch.toNat := by
  simp only [VerifiedRotation.validateAt, ManifestTransition.validate, bind_eq_ok, rejectIf_eq_ok,
    not_or, not_not] at h
  obtain ⟨digest, hdigest, _, ⟨rfl, _, hepoch, _⟩, _⟩ := h
  exact ⟨hdigest, hepoch⟩

/-- The rotations lead from one anchor to another: each names the digest it replaces, moves the epoch on by
one, and installs the manifest the next one starts from. -/
def Lineage (env : Primitives) (cluster : ClusterId) : AdminQuorumManifestAnchor →
    List AdminQuorumRotationHistory → AdminQuorumManifestAnchor → Prop
  | first, [], last => first = last
  | first, h :: hs, last =>
    h.rotation.transition.oldManifestDigest = first.manifestDigest ∧
      h.rotation.transition.newManifest.epoch.toNat = first.manifestEpoch.toNat + 1 ∧
      ∃ next, validateAdminPublicManifest env cluster h.rotation.transition.newManifest = .ok next ∧
        Lineage env cluster next hs last

section Lineages

variable {cluster : ClusterId} {first middle last : AdminQuorumManifestAnchor}
  {hs hs' : List AdminQuorumRotationHistory}

lemma Lineage.append (h : Lineage env cluster first hs middle)
    (h' : Lineage env cluster middle hs' last) : Lineage env cluster first (hs ++ hs') last := by
  induction hs generalizing first with
  | nil =>
    obtain rfl : first = middle := h
    exact h'
  | cons step hs ih =>
    obtain ⟨hold, hepoch, next, hnext, hrest⟩ := h
    exact ⟨hold, hepoch, next, hnext, ih hrest⟩

lemma Lineage.epoch_eq (h : Lineage env cluster first hs last) :
    last.manifestEpoch.toNat = first.manifestEpoch.toNat + hs.length := by
  induction hs generalizing first with
  | nil =>
    obtain rfl : first = last := h
    rfl
  | cons step hs ih =>
    obtain ⟨-, hepoch, next, hnext, hrest⟩ := h
    obtain ⟨-, -, hsame⟩ := validateAdminPublicManifest_eq_ok.mp hnext
    rw [ih hrest, hsame, hepoch, length_cons]
    omega

end Lineages

/-! ## The history of a cluster -/

def AdminCapabilityLedgerState.rotationsOf (state : AdminCapabilityLedgerState)
    (cluster : ClusterId) : List AdminQuorumRotationHistory :=
  (state.rotations.toList.filter fun entry => entry.1.1 = cluster).map (·.2)

section Rotations

variable {state : AdminCapabilityLedgerState} {cluster cluster' : ClusterId}
  {old new : AdminQuorumManifestAnchor} {oldManifest : Manifest} {rotation : ManifestRotation}
  {now : Timestamp}

lemma mem_rotationsOf {h : AdminQuorumRotationHistory} :
    h ∈ state.rotationsOf cluster ↔ ∃ epoch : UInt64, state.rotations[(cluster, epoch)]? = some h := by
  simp only [AdminCapabilityLedgerState.rotationsOf, mem_map, mem_filter,
    decide_eq_true_eq]
  constructor
  · rintro ⟨⟨⟨c, epoch⟩, h'⟩, ⟨hmem, rfl⟩, rfl⟩
    exact ⟨epoch, mem_toList_iff_getElem?_eq_some.mp hmem⟩
  · rintro ⟨epoch, hmem⟩
    exact ⟨((cluster, epoch), h), ⟨mem_toList_iff_getElem?_eq_some.mpr hmem, rfl⟩, rfl⟩

lemma rotationsOf_eq_nil (h : state.hasHistory cluster = false) : state.rotationsOf cluster = [] := by
  refine eq_nil_iff_forall_not_mem.mpr fun x hx => ?_
  obtain ⟨epoch, hmem⟩ := mem_rotationsOf.mp hx
  simp only [AdminCapabilityLedgerState.hasHistory, Bool.or_eq_false_iff, any_eq_false,
    decide_eq_true_eq] at h
  exact h.2 (cluster, epoch) (mem_keys.mpr (mem_of_getElem? hmem)) rfl

lemma manifests_eq_none (h : state.hasHistory cluster = false) (digest : String) :
    state.manifests[(cluster, digest)]? = none := by
  simp only [AdminCapabilityLedgerState.hasHistory, Bool.or_eq_false_iff, any_eq_false,
    decide_eq_true_eq] at h
  refine Option.eq_none_iff_forall_ne_some.mpr fun m hm => ?_
  exact h.1.2 (cluster, digest) (mem_keys.mpr (mem_of_getElem? hm)) rfl

lemma rotationsOf_installRotation
    (hlast : ∀ epoch, (cluster, epoch) ∈ state.rotations → epoch < new.manifestEpoch) :
    (state.installRotation cluster old new oldManifest rotation now).rotationsOf cluster =
      state.rotationsOf cluster ++ [⟨rotation, now⟩] := by
  have hinsert := filter_toList_insert_last (m := state.rotations)
    (k := (cluster, new.manifestEpoch)) (v := (⟨rotation, now⟩ : AdminQuorumRotationHistory))
    (p := fun key => decide (key.1 = cluster)) (by simp) (by
      rintro ⟨c, epoch⟩ hmem hc
      obtain rfl : c = cluster := of_decide_eq_true hc
      refine Ordering.then_eq_lt.mpr (.inr ⟨ReflCmp.compare_self, ?_⟩)
      exact compare_eq_lt.mpr (hlast epoch hmem))
  rw [AdminCapabilityLedgerState.rotationsOf, AdminCapabilityLedgerState.installRotation, hinsert,
    map_append]
  rfl

lemma rotationsOf_installRotation_other (hne : cluster ≠ cluster') :
    (state.installRotation cluster old new oldManifest rotation now).rotationsOf cluster' =
      state.rotationsOf cluster' :=
  congrArg (List.map Prod.snd) (filter_toList_insert_other
    (p := fun key : ClusterId × UInt64 => decide (key.1 = cluster')) (decide_eq_false hne))

end Rotations

structure HistoryInv (env : Primitives) (cluster : ClusterId) (state : AdminCapabilityLedgerState) :
    Prop where
  unanchored : state.anchors[cluster]? = none → state.rotationsOf cluster = []
  bounded : ∀ epoch anchor, (cluster, epoch) ∈ state.rotations →
    state.anchors[cluster]? = some anchor → epoch ≤ anchor.manifestEpoch
  stored : ∀ (digest : String) m, state.manifests[(cluster, digest)]? = some m →
    m.digest env = .ok digest
  active : ∀ anchor m, state.anchors[cluster]? = some anchor →
    state.manifests[(cluster, anchor.manifestDigest)]? = some m →
    validateAdminPublicManifest env cluster m = .ok anchor
  distinct : ((state.rotationsOf cluster).map (·.rotation.transition.requestId)).Nodup
  rotated : ∀ h ∈ state.rotationsOf cluster, ∃ digest,
    h.rotation.transition.newManifest.digest env = .ok digest ∧ (cluster, digest) ∈ state.manifests
  present : ∀ anchor, state.rotationsOf cluster ≠ [] → state.anchors[cluster]? = some anchor →
    (cluster, anchor.manifestDigest) ∈ state.manifests

lemma historyInv_empty (cluster : ClusterId) : HistoryInv env cluster .empty := by
  have hnil : AdminCapabilityLedgerState.empty.rotationsOf cluster = [] := rfl
  constructor
  · exact fun _ => hnil
  · intro epoch anchor hmem
    simp [AdminCapabilityLedgerState.empty] at hmem
  · intro digest m hm
    simp [AdminCapabilityLedgerState.empty] at hm
  · intro anchor m hanchor
    simp [AdminCapabilityLedgerState.empty] at hanchor
  · rw [hnil]
    exact nodup_nil
  · rw [hnil]
    simp
  · exact fun _ hne => absurd hnil hne

section Steps

variable {state : AdminCapabilityLedgerState} {cluster cluster' : ClusterId}
  {anchor old new : AdminQuorumManifestAnchor} {m : Manifest} {now : Timestamp}
  {verified : VerifiedRotation env}

lemma HistoryInv.insert_manifest (h : HistoryInv env cluster state)
    (hvalid : validateAdminPublicManifest env cluster' m = .ok anchor)
    (hanchor : state.anchors[cluster']? = some anchor) :
    HistoryInv env cluster
      { state with manifests := state.manifests.insert (cluster', anchor.manifestDigest) m } := by
  obtain ⟨-, hdigest, -⟩ := validateAdminPublicManifest_eq_ok.mp hvalid
  have hlookup : ∀ (digest : String) m',
      (state.manifests.insert (cluster', anchor.manifestDigest) m)[(cluster, digest)]? = some m' →
      (cluster = cluster' ∧ digest = anchor.manifestDigest ∧ m' = m) ∨
        state.manifests[(cluster, digest)]? = some m' := by
    intro digest m' hm'
    by_cases hkey : (cluster', anchor.manifestDigest) = (cluster, digest)
    · obtain ⟨rfl, rfl⟩ := Prod.mk.inj hkey
      rw [getElem?_insert_self] at hm'
      exact .inl ⟨rfl, rfl, (Option.some.inj hm').symm⟩
    · rw [getElem?_insert_ne hkey] at hm'
      exact .inr hm'
  refine ⟨h.unanchored, h.bounded, ?_, ?_, h.distinct, ?_, ?_⟩
  · intro digest m' hm'
    obtain ⟨rfl, rfl, rfl⟩ | hm' := hlookup digest m' hm'
    · exact hdigest
    · exact h.stored digest m' hm'
  · intro anchor' m' hanchor' hm'
    obtain ⟨rfl, -, rfl⟩ | hm' := hlookup _ m' hm'
    · obtain rfl := Option.some.inj (hanchor.symm.trans hanchor')
      exact hvalid
    · exact h.active anchor' m' hanchor' hm'
  · intro x hx
    obtain ⟨digest, hx', hmem⟩ := h.rotated x hx
    exact ⟨digest, hx', mem_insert.mpr (.inr hmem)⟩
  · intro anchor' hne hanchor'
    exact mem_insert.mpr (.inr (h.present anchor' hne hanchor'))

lemma getElem?_insert_anchor (hanchor : state.anchors[cluster']? = some anchor ∨
      state.hasHistory cluster' = false) :
    (cluster' = cluster ∧ state.hasHistory cluster = false) ∨
      (state.anchors.insert cluster' anchor)[cluster]? = state.anchors[cluster]? := by
  by_cases hcluster : cluster' = cluster
  · subst hcluster
    obtain hsame | hhistory := hanchor
    · exact .inr (getElem?_insert_self.trans hsame.symm)
    · exact .inl ⟨rfl, hhistory⟩
  · exact .inr (getElem?_insert_ne hcluster)

lemma HistoryInv.insert_anchor (h : HistoryInv env cluster state)
    (hanchor : state.anchors[cluster']? = some anchor ∨ state.hasHistory cluster' = false) :
    HistoryInv env cluster { state with anchors := state.anchors.insert cluster' anchor } := by
  obtain ⟨-, hhistory⟩ | hsame :
      _ ∨ (state.anchors.insert cluster' anchor)[cluster]? = state.anchors[cluster]? :=
    getElem?_insert_anchor hanchor
  · have hnil := rotationsOf_eq_nil hhistory
    refine ⟨fun _ => hnil, ?_, h.stored, ?_, h.distinct, h.rotated, fun _ hne => absurd hnil hne⟩
    · intro epoch anchor' hmem
      obtain ⟨x, hx⟩ := mem_iff_exists.mp hmem
      have hlisted : x ∈ state.rotationsOf cluster := mem_rotationsOf.mpr ⟨epoch, hx⟩
      rw [hnil] at hlisted
      cases hlisted
    · intro anchor' m' _ hm'
      rw [show state.manifests[(cluster, anchor'.manifestDigest)]? = none from
        manifests_eq_none hhistory _] at hm'
      cases hm'
  · refine ⟨?_, ?_, h.stored, ?_, h.distinct, h.rotated, ?_⟩
    · exact fun hnone => h.unanchored (hsame.symm.trans hnone)
    · exact fun epoch anchor' hmem ha => h.bounded epoch anchor' hmem (hsame.symm.trans ha)
    · exact fun anchor' m' ha => h.active anchor' m' (hsame.symm.trans ha)
    · exact fun anchor' hne ha => h.present anchor' hne (hsame.symm.trans ha)

lemma HistoryInv.installRotation_other {oldManifest : Manifest} {rotation : ManifestRotation}
    (h : HistoryInv env cluster state) (hne : cluster' ≠ cluster) :
    HistoryInv env cluster (state.installRotation cluster' old new oldManifest rotation now) := by
  have hrotations : (state.installRotation cluster' old new oldManifest rotation now).rotationsOf
      cluster = state.rotationsOf cluster := rotationsOf_installRotation_other hne
  have hkey : ∀ d : String, ∀ d' : String, (cluster', d) ≠ (cluster, d') :=
    fun _ _ heq => hne (congrArg Prod.fst heq)
  have hanchor : (state.installRotation cluster' old new oldManifest rotation now).anchors[cluster]? =
      state.anchors[cluster]? := getElem?_insert_ne hne
  have hmanifests : ∀ d : String,
      (state.installRotation cluster' old new oldManifest rotation now).manifests[(cluster, d)]? =
        state.manifests[(cluster, d)]? :=
    fun d => (getElem?_insert_ne (hkey _ d)).trans (getElem?_insert_ne (hkey _ d))
  have hmem : ∀ d : String, (cluster, d) ∈ state.manifests → (cluster, d) ∈
      (state.installRotation cluster' old new oldManifest rotation now).manifests := by
    intro d hd
    rw [mem_iff_isSome_getElem?, hmanifests d]
    exact mem_iff_isSome_getElem?.mp hd
  refine ⟨?_, ?_, ?_, ?_, ?_, ?_, ?_⟩
  · exact fun hnone => hrotations.trans (h.unanchored (hanchor.symm.trans hnone))
  · intro epoch anchor' hepoch ha
    obtain heq | hepoch := mem_insert.mp hepoch
    · exact absurd (congrArg Prod.fst (LawfulEqOrd.eq_of_compare heq)) hne
    · exact h.bounded epoch anchor' hepoch (hanchor.symm.trans ha)
  · exact fun d m' hm' => h.stored d m' ((hmanifests d).symm.trans hm')
  · exact fun anchor' m' ha hm' =>
      h.active anchor' m' (hanchor.symm.trans ha) ((hmanifests _).symm.trans hm')
  · rw [hrotations]
    exact h.distinct
  · rw [hrotations]
    intro x hx
    obtain ⟨d, hd, hstored⟩ := h.rotated x hx
    exact ⟨d, hd, hmem d hstored⟩
  · rw [hrotations]
    exact fun anchor' hne' ha => hmem _ (h.present anchor' hne' (hanchor.symm.trans ha))

lemma epoch_succ_of_rotation (hverified : verified.validateAt (unixSeconds now) = .ok ())
    (hold : validateAdminPublicManifest env cluster verified.oldManifest = .ok old)
    (hnew : validateAdminPublicManifest env cluster verified.rotation.transition.newManifest =
      .ok new) : new.manifestEpoch.toNat = old.manifestEpoch.toNat + 1 := by
  obtain ⟨-, hepoch⟩ := epoch_of_validateAt hverified
  rw [(validateAdminPublicManifest_eq_ok.mp hold).2.2,
    (validateAdminPublicManifest_eq_ok.mp hnew).2.2, hepoch]

section

variable (h : HistoryInv env cluster state)
include h

lemma HistoryInv.lt_of_rotation (hanchor : state.anchors[cluster]? = some old)
    (hsucc : new.manifestEpoch.toNat = old.manifestEpoch.toNat + 1) (epoch : UInt64)
    (hmem : (cluster, epoch) ∈ state.rotations) : epoch < new.manifestEpoch := by
  have hle := UInt64.le_iff_toNat_le.mp (h.bounded epoch old hmem hanchor)
  exact UInt64.lt_iff_toNat_lt.mpr (by omega)

lemma HistoryInv.installRotation (hverified : verified.validateAt (unixSeconds now) = .ok ())
    (hold : validateAdminPublicManifest env cluster verified.oldManifest = .ok old)
    (hnew : validateAdminPublicManifest env cluster verified.rotation.transition.newManifest = .ok new)
    (hanchor : state.anchors[cluster]? = some old)
    (hfresh : state.usedRequestId cluster verified.rotation.transition.requestId = false) :
    HistoryInv env cluster
      (state.installRotation cluster old new verified.oldManifest verified.rotation now) := by
  have hsucc := epoch_succ_of_rotation hverified hold hnew
  have hlt := h.lt_of_rotation hanchor hsucc
  have hrotations : (state.installRotation cluster old new verified.oldManifest verified.rotation
      now).rotationsOf cluster = state.rotationsOf cluster ++ [⟨verified.rotation, now⟩] :=
    rotationsOf_installRotation hlt
  have hanchor' : (state.installRotation cluster old new verified.oldManifest verified.rotation
      now).anchors[cluster]? = some new := getElem?_insert_self
  have hactive : (state.installRotation cluster old new verified.oldManifest verified.rotation
      now).manifests[(cluster, new.manifestDigest)]? =
        some verified.rotation.transition.newManifest := getElem?_insert_self
  have hgrows : ∀ key ∈ state.manifests, key ∈ (state.installRotation cluster old new
      verified.oldManifest verified.rotation now).manifests := fun key hkey =>
    mem_insert.mpr (.inr (mem_insert.mpr (.inr hkey)))
  have hpresent : (cluster, new.manifestDigest) ∈ (state.installRotation cluster old new
      verified.oldManifest verified.rotation now).manifests := mem_of_getElem? hactive
  refine ⟨?_, ?_, ?_, ?_, ?_, ?_, ?_⟩
  · intro hnone
    rw [hanchor'] at hnone
    cases hnone
  · intro epoch anchor' hmem ha
    obtain rfl := Option.some.inj (hanchor'.symm.trans ha)
    obtain heq | hmem := mem_insert.mp hmem
    · obtain ⟨-, rfl⟩ := Prod.mk.inj (LawfulEqOrd.eq_of_compare heq)
      exact UInt64.le_refl _
    · exact UInt64.le_of_lt (hlt epoch hmem)
  · intro d m' hm'
    by_cases hd : (cluster, new.manifestDigest) = (cluster, d)
    · obtain ⟨-, rfl⟩ := Prod.mk.inj hd
      obtain rfl := Option.some.inj (hactive.symm.trans hm')
      exact (validateAdminPublicManifest_eq_ok.mp hnew).2.1
    · have hm'' := (getElem?_insert_ne hd).symm.trans hm'
      by_cases hd' : (cluster, old.manifestDigest) = (cluster, d)
      · obtain ⟨-, rfl⟩ := Prod.mk.inj hd'
        rw [getElem?_insert_self] at hm''
        obtain rfl := Option.some.inj hm''
        exact (validateAdminPublicManifest_eq_ok.mp hold).2.1
      · exact h.stored d m' ((getElem?_insert_ne hd').symm.trans hm'')
  · intro anchor' m' ha hm'
    obtain rfl := Option.some.inj (hanchor'.symm.trans ha)
    obtain rfl := Option.some.inj (hactive.symm.trans hm')
    exact hnew
  · rw [hrotations, map_append, nodup_append]
    refine ⟨h.distinct, nodup_singleton _, ?_⟩
    rintro id hid id' hid' rfl
    obtain rfl := mem_singleton.mp hid'
    obtain ⟨x, hx, hxid⟩ := mem_map.mp hid
    obtain ⟨epoch, hmem⟩ := mem_rotationsOf.mp hx
    simp only [AdminCapabilityLedgerState.usedRequestId, any_eq_false, Bool.and_eq_true,
      decide_eq_true_eq] at hfresh
    exact hfresh _ (mem_toList_iff_getElem?_eq_some.mpr hmem) ⟨rfl, hxid⟩
  · rw [hrotations]
    intro x hx
    obtain hx | hx := mem_append.mp hx
    · obtain ⟨d, hd, hstored⟩ := h.rotated x hx
      exact ⟨d, hd, hgrows _ hstored⟩
    · obtain rfl := mem_singleton.mp hx
      exact ⟨_, (validateAdminPublicManifest_eq_ok.mp hnew).2.1, hpresent⟩
  · intro anchor' _ ha
    obtain rfl := Option.some.inj (hanchor'.symm.trans ha)
    exact hpresent

lemma historyInv_apply (call : AdminCall env) : HistoryInv env cluster (state.apply call).2 := by
  cases hop : call.op.capability with
  | some record =>
    obtain ⟨revoked, heq⟩ := apply_capability state hop
    rw [heq]
    obtain h' | ⟨-, h'⟩ | ⟨-, -, -, -, h'⟩ :=
      insertAdminCapability_cases state record revoked call.now
    · rwa [h']
    · rw [h']
      exact ⟨h.unanchored, h.bounded, h.stored, h.active, h.distinct, h.rotated, h.present⟩
    · rw [h']
      exact ⟨h.unanchored, h.bounded, h.stored, h.active, h.distinct, h.rotated, h.present⟩
  | none =>
    have hstep := manifestStep_apply state hop
    generalize state.apply call = result at hstep ⊢
    cases hstep with
    | refused | bindAgain => exact h
    | @initializeManifest now cluster' m anchor hvalid hanchor =>
      have hanchored : HistoryInv env cluster
          { state with anchors := state.anchors.insert cluster' anchor } :=
        h.insert_anchor (hanchor.imp_right And.right)
      exact hanchored.insert_manifest hvalid getElem?_insert_self
    | publishManifest hvalid hanchor => exact h.insert_manifest hvalid hanchor
    | bindManifest _ hhistory => exact h.insert_anchor (.inr hhistory)
    | @rotateManifest now verified cluster' old new hcluster hverified hold hnew hanchor _ hfresh =>
      by_cases heq : cluster' = cluster
      · subst heq
        exact h.installRotation hverified hold hnew hanchor hfresh
      · exact h.installRotation_other heq

end

lemma anchors_apply_capability (state : AdminCapabilityLedgerState) {record : AdminCapabilityUse}
    {call : AdminCall env} (hop : call.op.capability = some record) :
    (state.apply call).2.anchors = state.anchors ∧
      (state.apply call).2.rotations = state.rotations := by
  obtain ⟨revoked, heq⟩ := apply_capability state hop
  rw [heq]
  obtain h | ⟨-, h⟩ | ⟨-, -, -, -, h⟩ :=
    insertAdminCapability_cases state record revoked call.now
  all_goals
    rw [h]
    exact ⟨rfl, rfl⟩

end Steps

/-! ## Runs -/

/-- The manifest takes part in one of the rotations that were asked for. -/
def Rotated (calls : List (AdminCall env)) (m : Manifest) : Prop :=
  ∃ call ∈ calls, ∃ verified, call.op = .rotateManifest verified ∧
    (m = verified.oldManifest ∨ m = verified.rotation.transition.newManifest)

/-- From one state to a later one, the rotations `hs` have led from `first` to the anchor `last`. -/
structure Descends (cluster : ClusterId) (calls : List (AdminCall env))
    (state state' : AdminCapabilityLedgerState) (first : AdminQuorumManifestAnchor)
    (hs : List AdminQuorumRotationHistory) (last : AdminQuorumManifestAnchor) : Prop where
  anchor : state'.anchors[cluster]? = some last
  rotations : state'.rotationsOf cluster = state.rotationsOf cluster ++ hs
  lineage : Lineage env cluster first hs last
  manifests : hs ≠ [] → ∃ m m', Rotated calls m ∧ Rotated calls m' ∧
    validateAdminPublicManifest env cluster m = .ok first ∧
    validateAdminPublicManifest env cluster m' = .ok last

section Runs

variable {state : AdminCapabilityLedgerState} {cluster : ClusterId} {call : AdminCall env}
  {calls : List (AdminCall env)} {anchor first : AdminQuorumManifestAnchor}

lemma descends_refl {state' : AdminCapabilityLedgerState}
    (hanchor : state'.anchors[cluster]? = some first)
    (hrotations : state'.rotationsOf cluster = state.rotationsOf cluster) :
    Descends cluster calls state state' first [] first :=
  ⟨hanchor, by rw [hrotations, append_nil], rfl, fun hne => absurd rfl hne⟩

lemma getElem?_insert_anchor_of_some {cluster' : ClusterId}
    (hfirst : state.anchors[cluster]? = some first)
    (hanchor : state.anchors[cluster']? = some anchor ∨ state.anchors[cluster']? = none) :
    (state.anchors.insert cluster' anchor)[cluster]? = some first := by
  by_cases hcluster : cluster' = cluster
  · subst hcluster
    rw [hfirst] at hanchor
    rw [getElem?_insert_self, hanchor.resolve_right (by simp)]
  · exact (getElem?_insert_ne hcluster).trans hfirst

lemma descends_apply (h : HistoryInv env cluster state) (hfirst : state.anchors[cluster]? = some first)
    (call : AdminCall env) :
    ∃ hs last, Descends cluster [call] state (state.apply call).2 first hs last ∧
      (hs ≠ [] → (state.apply call).1 = .ok true ∧ ∃ verified, call.op = .rotateManifest verified ∧
        cluster.asStr = verified.rotation.transition.newManifest.clusterId) := by
  cases hop : call.op.capability with
  | some record =>
    obtain ⟨hanchors, hrotations⟩ := anchors_apply_capability state hop
    refine ⟨[], first, descends_refl (by rw [hanchors]; exact hfirst) ?_, absurd rfl⟩
    rw [AdminCapabilityLedgerState.rotationsOf, hrotations]
    rfl
  | none =>
    have hstep := manifestStep_apply state hop
    generalize state.apply call = result at hstep ⊢
    cases hstep with
    | refused | publishManifest | bindAgain => exact ⟨[], first, descends_refl hfirst rfl, absurd rfl⟩
    | @initializeManifest now cluster' m anchor hvalid hanchor =>
      refine ⟨[], first, descends_refl ?_ rfl, absurd rfl⟩
      exact getElem?_insert_anchor_of_some hfirst (hanchor.imp_right And.left)
    | @bindManifest now cluster' epoch digest hnone hhistory =>
      refine ⟨[], first, descends_refl ?_ rfl, absurd rfl⟩
      exact getElem?_insert_anchor_of_some hfirst (.inr hnone)
    | @rotateManifest now verified cluster' old new hcluster hverified hold hnew hanchor _ hfresh =>
      by_cases heq : cluster' = cluster
      · subst heq
        obtain rfl := Option.some.inj (hfirst.symm.trans hanchor)
        have hsucc := epoch_succ_of_rotation hverified hold hnew
        obtain ⟨holdDigest, -⟩ := epoch_of_validateAt hverified
        obtain ⟨hname, -, hepoch⟩ := validateAdminPublicManifest_eq_ok.mp hnew
        refine ⟨[⟨verified.rotation, now⟩], new, ⟨getElem?_insert_self,
          rotationsOf_installRotation (h.lt_of_rotation hanchor hsucc), ?_, fun _ => ?_⟩,
          fun _ => ⟨rfl, verified, rfl, hname⟩⟩
        · refine ⟨?_, ?_, new, hnew, rfl⟩
          · exact Except.ok.inj
              (holdDigest.symm.trans (validateAdminPublicManifest_eq_ok.mp hold).2.1)
          · rw [← hepoch, hsucc]
        · exact ⟨_, _, ⟨_, mem_singleton_self _, verified, rfl, .inl rfl⟩,
            ⟨_, mem_singleton_self _, verified, rfl, .inr rfl⟩, hold, hnew⟩
      · refine ⟨[], first, descends_refl ?_ (rotationsOf_installRotation_other heq), absurd rfl⟩
        exact (getElem?_insert_ne heq).trans hfirst

lemma Rotated.mono {calls' : List (AdminCall env)} (hsub : calls ⊆ calls') {m : Manifest}
    (h : Rotated calls m) : Rotated calls' m := by
  obtain ⟨call, hcall, hrotated⟩ := h
  exact ⟨call, hsub hcall, hrotated⟩

lemma Descends.trans {state' state'' : AdminCapabilityLedgerState}
    {middle last : AdminQuorumManifestAnchor} {hs hs' : List AdminQuorumRotationHistory}
    (h : Descends cluster [call] state state' first hs middle)
    (h' : Descends cluster calls state' state'' middle hs' last) :
    Descends cluster (call :: calls) state state'' first (hs ++ hs') last := by
  refine ⟨h'.anchor, ?_, h.lineage.append h'.lineage, ?_⟩
  · rw [h'.rotations, h.rotations, append_assoc]
  · intro hne
    have hhead : [call] ⊆ call :: calls := by simp
    have htail : calls ⊆ call :: calls := subset_cons_self _ _
    cases hs with
    | nil =>
      obtain rfl : first = middle := h.lineage
      obtain ⟨m, m', hm, hm', hvalid⟩ := h'.manifests hne
      exact ⟨m, m', hm.mono htail, hm'.mono htail, hvalid⟩
    | cons step hs =>
      obtain ⟨m, m', hm, hm', hfirst, hmiddle⟩ := h.manifests (by simp)
      cases hs' with
      | nil =>
        obtain rfl : middle = last := h'.lineage
        exact ⟨m, m', hm.mono hhead, hm'.mono hhead, hfirst, hmiddle⟩
      | cons step' hs' =>
        obtain ⟨-, n', -, hn', -, hlast⟩ := h'.manifests (by simp)
        exact ⟨m, n', hm.mono hhead, hn'.mono htail, hfirst, hlast⟩

lemma descends_run (h : HistoryInv env cluster state) (hfirst : state.anchors[cluster]? = some first)
    (calls : List (AdminCall env)) :
    ∃ hs last, Descends cluster calls state
      (exec AdminCapabilityLedgerState.apply state calls) first hs last := by
  induction calls generalizing state first with
  | nil => exact ⟨[], first, descends_refl hfirst rfl⟩
  | cons call calls ih =>
    obtain ⟨hs, middle, hstep, -⟩ := descends_apply h hfirst call
    obtain ⟨hs', last, hrest⟩ := ih (historyInv_apply h call) hstep.anchor
    exact ⟨hs ++ hs', last, hstep.trans hrest⟩

lemma rotationsOf_of_anchored (h : HistoryInv env cluster state)
    (hnone : state.anchors[cluster]? = none)
    (hsome : (state.apply call).2.anchors[cluster]? = some anchor) :
    (state.apply call).2.rotationsOf cluster = [] := by
  have hnil := h.unanchored hnone
  cases hop : call.op.capability with
  | some record =>
    rw [(anchors_apply_capability state hop).1, hnone] at hsome
    cases hsome
  | none =>
    have hstep := manifestStep_apply state hop
    generalize state.apply call = result at hstep hsome ⊢
    cases hstep with
    | rotateManifest _ _ _ _ hanchor _ _ =>
      refine (rotationsOf_installRotation_other ?_).trans hnil
      rintro rfl
      rw [hnone] at hanchor
      cases hanchor
    | refused | initializeManifest | publishManifest | bindAgain | bindManifest => exact hnil

variable (calls) in
lemma historyInv_run (cluster : ClusterId) :
    HistoryInv env cluster (exec AdminCapabilityLedgerState.apply .empty calls) :=
  exec_invariant _ (fun call _ _ h => historyInv_apply h call) (historyInv_empty cluster)

lemma exists_initial
    (hanchor : (exec AdminCapabilityLedgerState.apply .empty calls).anchors[cluster]? = some anchor) :
    ∃ before after initial, calls = before ++ after ∧
      (exec AdminCapabilityLedgerState.apply .empty before).anchors[cluster]? = some initial ∧
      (exec AdminCapabilityLedgerState.apply .empty before).rotationsOf cluster = [] := by
  induction calls using List.reverseRecOn generalizing anchor with
  | nil => simp [AdminCapabilityLedgerState.empty] at hanchor
  | append_singleton calls call ih =>
    cases hbefore : (exec AdminCapabilityLedgerState.apply .empty calls).anchors[cluster]? with
    | some anchor' =>
      obtain ⟨before, after, initial, rfl, hinitial⟩ := ih hbefore
      exact ⟨before, after ++ [call], initial, append_assoc _ _ _, hinitial⟩
    | none =>
      have hstep : exec AdminCapabilityLedgerState.apply .empty (calls ++ [call]) =
          ((exec AdminCapabilityLedgerState.apply .empty calls).apply call).2 :=
        exec_append
      refine ⟨calls ++ [call], [], anchor, (append_nil _).symm, hanchor, ?_⟩
      rw [hstep] at hanchor ⊢
      exact rotationsOf_of_anchored (historyInv_run calls cluster) hbefore hanchor

lemma apply_of_refused (hop : call.op.capability = none) (hrefused : (state.apply call).1 ≠ .ok true) :
    (state.apply call).2 = state := by
  have hstep := manifestStep_apply state hop
  generalize state.apply call = result at hstep hrefused ⊢
  cases hstep with
  | refused _ => rfl
  | initializeManifest | publishManifest | bindAgain | bindManifest | rotateManifest =>
    exact absurd rfl hrefused

lemma HistoryInv.getActive (h : HistoryInv env cluster state)
    (hrotated : state.rotationsOf cluster ≠ []) :
    ∃ last m, state.anchors[cluster]? = some last ∧
      state.getActiveAdminQuorumManifest env cluster = .ok (some m) ∧
      validateAdminPublicManifest env cluster m = .ok last := by
  cases hanchor : state.anchors[cluster]? with
  | none => exact absurd (h.unanchored hanchor) hrotated
  | some last =>
    obtain ⟨m, hm⟩ := mem_iff_exists.mp (h.present last hrotated hanchor)
    have hvalid := h.active last m hanchor hm
    refine ⟨last, m, rfl, ?_, hvalid⟩
    simp [AdminCapabilityLedgerState.getActiveAdminQuorumManifest, hanchor, hm, hvalid, rejectIf]

lemma Descends.ne {state' : AdminCapabilityLedgerState} {last : AdminQuorumManifestAnchor}
    {hs : List AdminQuorumRotationHistory} (h : Descends cluster calls state state' first hs last)
    (hhash : Set.InjOn env.sha256 {bytes | ∃ m, Rotated calls m ∧ m.canonicalBytes env = .ok bytes})
    (hne : last ≠ first) :
    first.manifestEpoch < last.manifestEpoch ∧ last.manifestDigest ≠ first.manifestDigest := by
  have hhs : hs ≠ [] := by
    rintro rfl
    exact hne (Eq.symm h.lineage)
  have hlt : first.manifestEpoch < last.manifestEpoch := by
    have hepoch := h.lineage.epoch_eq
    have hpos := length_pos_iff.mpr hhs
    exact UInt64.lt_iff_toNat_lt.mpr (by omega)
  refine ⟨hlt, fun hdigest => ?_⟩
  obtain ⟨m, m', hm, hm', hfirst, hlast⟩ := h.manifests hhs
  obtain ⟨-, hd, he⟩ := validateAdminPublicManifest_eq_ok.mp hfirst
  obtain ⟨-, hd', he'⟩ := validateAdminPublicManifest_eq_ok.mp hlast
  rw [hdigest] at hd'
  have hsame := Manifest.epoch_eq_of_digest hhash (fun b hb => ⟨m, hm, hb⟩)
    (fun b hb => ⟨m', hm', hb⟩) hd hd'
  rw [he, he', hsame] at hlt
  exact absurd hlt (UInt64.lt_irrefl _)

/-- What every run makes of the manifests of a cluster: the rotations on record are one chain from the first
anchor to the one in force, with distinct request ids, and the last manifest is active; a refused operation
changes nothing, and a capability under a replaced manifest is refused. -/
theorem admin_manifest_history (calls : List (AdminCall env)) (cluster : ClusterId)
    (hhash : Set.InjOn env.sha256
      {bytes | ∃ m, Rotated calls m ∧ m.canonicalBytes env = .ok bytes}) :
    let state : List (AdminCall env) → AdminCapabilityLedgerState :=
      Runs.exec AdminCapabilityLedgerState.apply .empty
    (∀ before call after first, calls = before ++ call :: after →
      (state before).anchors[cluster]? = some first →
      ((state before).apply call).2.anchors[cluster]? ≠ some first →
      ((state before).apply call).1 = .ok true ∧ ∃ verified, call.op = .rotateManifest verified ∧
        cluster.asStr = verified.rotation.transition.newManifest.clusterId) ∧
    (∀ last, (state calls).anchors[cluster]? = some last →
      ∃ before after initial, calls = before ++ after ∧
        (state before).anchors[cluster]? = some initial ∧
        (state before).rotationsOf cluster = [] ∧
        Lineage env cluster initial ((state calls).rotationsOf cluster) last) ∧
    ((state calls).anchors[cluster]? = none → (state calls).rotationsOf cluster = []) ∧
    (((state calls).rotationsOf cluster).map (·.rotation.transition.requestId)).Nodup ∧
    (∀ h ∈ (state calls).rotationsOf cluster, ∃ (digest : String) (m : Manifest),
      h.rotation.transition.newManifest.digest env = .ok digest ∧
      (state calls).manifests[(cluster, digest)]? = some m ∧ m.digest env = .ok digest) ∧
    ((state calls).rotationsOf cluster ≠ [] → ∃ last m,
      (state calls).anchors[cluster]? = some last ∧
      (state calls).getActiveAdminQuorumManifest env cluster = .ok (some m) ∧
      validateAdminPublicManifest env cluster m = .ok last) ∧
    (∀ before call after, calls = before ++ call :: after → call.op.capability = none →
      ((state before).apply call).1 ≠ .ok true → ((state before).apply call).2 = state before) ∧
    (∀ before after first last, calls = before ++ after →
      (state before).anchors[cluster]? = some first →
      (state calls).anchors[cluster]? = some last → last ≠ first →
      ∀ record revoked now, record.clusterId = cluster →
        (record.manifestEpoch ≤ first.manifestEpoch ∨
          record.manifestDigest = first.manifestDigest) →
        ((state calls).insertAdminCapability record revoked now).1 = false) := by
  intro state
  have hinv : HistoryInv env cluster (state calls) := historyInv_run calls cluster
  refine ⟨?_, ?_, hinv.unanchored, hinv.distinct, ?_, hinv.getActive, ?_, ?_⟩
  · rintro before call after first rfl hfirst hchanged
    obtain ⟨hs, last, hdescends, hrotated⟩ :=
      descends_apply (historyInv_run before cluster) hfirst call
    refine hrotated ?_
    rintro rfl
    obtain rfl : first = last := hdescends.lineage
    exact hchanged hdescends.anchor
  · intro last hlast
    obtain ⟨before, after, initial, rfl, hinitial, hnil⟩ := exists_initial hlast
    obtain ⟨hs, last', hdescends⟩ := descends_run (historyInv_run before cluster) hinitial after
    rw [← exec_append] at hdescends
    obtain rfl := Option.some.inj (hlast.symm.trans hdescends.anchor)
    refine ⟨before, after, initial, rfl, hinitial, hnil, ?_⟩
    rw [hdescends.rotations, hnil, List.nil_append]
    exact hdescends.lineage
  · intro h hh
    obtain ⟨digest, hdigest, hmem⟩ := hinv.rotated h hh
    obtain ⟨m, hm⟩ := mem_iff_exists.mp hmem
    exact ⟨digest, m, hdigest, hm, hinv.stored digest m hm⟩
  · rintro before call after rfl hop hrefused
    exact apply_of_refused hop hrefused
  · rintro before after first last rfl hfirst hlast hne record revoked now rfl hearlier
    obtain ⟨hs, last', hdescends⟩ :=
      descends_run (historyInv_run before record.clusterId) hfirst after
    rw [← exec_append] at hdescends
    obtain rfl := Option.some.inj (hlast.symm.trans hdescends.anchor)
    have hafter : Set.InjOn env.sha256
        {bytes | ∃ m, Rotated after m ∧ m.canonicalBytes env = .ok bytes} := by
      refine hhash.mono ?_
      rintro b ⟨m, hm, hb⟩
      exact ⟨m, hm.mono (List.subset_append_right _ _), hb⟩
    obtain ⟨hepoch, hdigest⟩ := hdescends.ne hafter hne
    obtain h | ⟨-, h⟩ | ⟨-, hanchor, -⟩ :=
      insertAdminCapability_cases (state (before ++ after)) record revoked now
    · rw [h]
    · rw [h]
    · -- the capability would have to name the anchor in force
      have hsame : last = record.anchor := Option.some.inj (hlast.symm.trans hanchor)
      subst hsame
      obtain hle | heq := hearlier
      · exact absurd hepoch (UInt64.not_lt.mpr hle)
      · exact absurd heq hdigest

end Runs

namespace SampleAdmin

open SampleQuorum

def digestOf (m : Manifest) : String := (m.digest SampleQuorum.env).toOption.getD ""

def rotation : VerifiedRotation SampleQuorum.env where
  oldManifest := manifest 1 1
  rotation := {
    transition := {
      oldManifestDigest := digestOf (manifest 1 1)
      newManifest := manifest 2 2
      requestId := Vector.replicate 32 9
      issuedAt := 100
      expiresAt := 200 }
    oldSignature := List.replicate 32 1
    newSignature := List.replicate 32 2 }
  verified := ⟨150, by decide +kernel⟩

def initializeCall : AdminCall SampleQuorum.env :=
  ⟨0, .initializeManifest ⟨"lab"⟩ (manifest 1 1)⟩

def rotateCall : AdminCall SampleQuorum.env := ⟨seconds 150, .rotateManifest rotation⟩

lemma rotate_injOn : Set.InjOn SampleQuorum.env.sha256
    {bytes | ∃ m, Rotated [initializeCall, rotateCall] m ∧
      m.canonicalBytes SampleQuorum.env = .ok bytes} := by
  have hrotated : ∀ m, Rotated [initializeCall, rotateCall] m → m = manifest 1 1 ∨ m = manifest 2 2 := by
    rintro m ⟨call, hcall, verified, hop, hm⟩
    obtain rfl | hcall := mem_cons.mp hcall
    · cases hop
    · obtain rfl := mem_singleton.mp hcall
      obtain rfl : rotation = verified := AdminOp.rotateManifest.inj hop
      exact hm
  have hbytes : ∀ bytes ∈ {bytes | ∃ m, Rotated [initializeCall, rotateCall] m ∧
      m.canonicalBytes SampleQuorum.env = .ok bytes},
      bytes = (manifest 1 1).digestBytes [1] ∨ bytes = (manifest 2 2).digestBytes [2] := by
    rintro bytes ⟨m, hm, hb⟩
    obtain rfl | rfl := hrotated m hm
    · left
      exact Except.ok.inj (hb.symm.trans (by decide +kernel))
    · right
      exact Except.ok.inj (hb.symm.trans (by decide +kernel))
  intro a ha b hb hab
  obtain rfl | rfl := hbytes a ha <;> obtain rfl | rfl := hbytes b hb
  · rfl
  · exact absurd hab (by decide +kernel)
  · exact absurd hab (by decide +kernel)
  · rfl

theorem admin_manifest_history_rotated :
    ((Runs.exec AdminCapabilityLedgerState.apply .empty [initializeCall, rotateCall]).insertAdminCapability
      { capability "r1" (seconds 300) with manifestDigest := digestOf (manifest 1 1) } false
      (seconds 160)).1 = false := by
  obtain ⟨-, -, -, -, -, -, -, hcapability⟩ :=
    admin_manifest_history [initializeCall, rotateCall] ⟨"lab"⟩ rotate_injOn
  exact hcapability [initializeCall] [rotateCall] ⟨1, digestOf (manifest 1 1)⟩
    ⟨2, digestOf (manifest 2 2)⟩ rfl (by decide +kernel) (by decide +kernel) (by decide +kernel) _ _ _
    rfl (.inl (by decide +kernel))

end SampleAdmin

end HeteroNetwork
