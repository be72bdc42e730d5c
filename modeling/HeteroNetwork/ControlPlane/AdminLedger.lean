import HeteroNetwork.Lib.Runs
import HeteroNetwork.ControlPlane.Errors
import HeteroNetwork.Quorum.Manifest

/-!
# Admin capabilities and the manifest they are issued under

`InMemoryStore` keeps, per cluster, the manifest in force (its anchor), the manifests it has seen, the
rotations, and a ledger of the capabilities that were used or revoked.  A capability is accepted once, and
only under the manifest in force.
-/

namespace HeteroNetwork

open Std (TreeMap)

open Checked OrderedMap Quorum Runs

/-! ## Records -/

def maxAdminCapabilityLedgerRecords : ℕ := 65536

def adminCapabilityLedgerGcGraceSeconds : ℤ := 300

structure AdminQuorumManifestAnchor where
  manifestEpoch : UInt64
  manifestDigest : String
deriving DecidableEq

structure AdminCapabilityUse where
  clusterId : ClusterId
  manifestEpoch : UInt64
  manifestDigest : String
  requestId : String
  claimsDigest : String
  expiresAt : Timestamp
  receivedAt : Timestamp
  method : String
  path : String
  requesterPublicKey : String
deriving DecidableEq

structure AdminCapabilityRevocation where
  clusterId : ClusterId
  manifestEpoch : UInt64
  manifestDigest : String
  requestId : String
  expiresAt : Timestamp
  receivedAt : Timestamp
  method : String
  path : String
  requesterPublicKey : String
deriving DecidableEq

structure AdminQuorumRotationHistory where
  rotation : ManifestRotation
  installedAt : Timestamp
deriving DecidableEq

def isAsciiHexdigit (b : UInt8) : Bool :=
  (48 ≤ b && b ≤ 57) || (65 ≤ b && b ≤ 70) || (97 ≤ b && b ≤ 102)

def isDigest (text : String) : Bool := (utf8 text).length = 64 && (utf8 text).all isAsciiHexdigit

def AdminQuorumManifestAnchor.isValid (anchor : AdminQuorumManifestAnchor) : Bool :=
  isDigest anchor.manifestDigest

namespace AdminCapabilityUse

def bounded (value : String) (limit : ℕ) : Bool :=
  value ≠ "" && (utf8 value).length ≤ limit && !value.toList.any isControl

def validateForLedger (record : AdminCapabilityUse) (now : Timestamp) : Bool :=
  bounded record.clusterId.asStr 256 && bounded record.requestId 256 &&
    isDigest record.manifestDigest && isDigest record.claimsDigest &&
    record.expiresAt > now && record.receivedAt < record.expiresAt &&
    bounded record.method 16 && (utf8 record.method).all (fun b => 65 ≤ b && b ≤ 90) &&
    bounded record.path 2048 && record.path.toList.head? = some '/' &&
    !record.path.toList.any (fun c => c = '?' || c = '#') &&
    bounded record.requesterPublicKey 512

def key (record : AdminCapabilityUse) : ClusterId × UInt64 × String :=
  (record.clusterId, record.manifestEpoch, record.requestId)

def anchor (record : AdminCapabilityUse) : AdminQuorumManifestAnchor :=
  ⟨record.manifestEpoch, record.manifestDigest⟩

end AdminCapabilityUse

def AdminCapabilityRevocation.intoLedgerUse (record : AdminCapabilityRevocation) :
    AdminCapabilityUse where
  clusterId := record.clusterId
  manifestEpoch := record.manifestEpoch
  manifestDigest := record.manifestDigest
  requestId := record.requestId
  claimsDigest := String.ofList (List.replicate 64 '0')
  expiresAt := record.expiresAt
  receivedAt := record.receivedAt
  method := record.method
  path := record.path
  requesterPublicKey := record.requesterPublicKey

@[irreducible] def validateAdminPublicManifest (env : Primitives) (cluster : ClusterId)
    (manifest : Manifest) : Except ControlPlaneError AdminQuorumManifestAnchor := do
  rejectIf (cluster.asStr ≠ manifest.clusterId) (.store "admin manifest cluster mismatch")
  match manifest.digest env with
  | .error _ => .error (.store "invalid admin public manifest")
  | .ok digest => pure ⟨manifest.epoch, digest⟩

/-! ## The ledger -/

structure AdminCapabilityLedgerState where
  anchors : TreeMap ClusterId AdminQuorumManifestAnchor
  entries : TreeMap (ClusterId × UInt64 × String) (AdminCapabilityUse × Bool)
  manifests : TreeMap (ClusterId × String) Manifest
  rotations : TreeMap (ClusterId × UInt64) AdminQuorumRotationHistory

/-- `now.timestamp().try_into().unwrap_or(0)`: whole seconds, and 0 before 1970. -/
def unixSeconds (now : Timestamp) : UInt64 := UInt64.ofNat (now / 1000000000).toNat

namespace AdminCapabilityLedgerState

def empty : AdminCapabilityLedgerState := ⟨∅, ∅, ∅, ∅⟩

def live (state : AdminCapabilityLedgerState) (now : Timestamp) :
    TreeMap (ClusterId × UInt64 × String) (AdminCapabilityUse × Bool) :=
  state.entries.filter fun _ entry =>
    decide (entry.1.expiresAt > now - seconds adminCapabilityLedgerGcGraceSeconds)

def insertAdminCapability (state : AdminCapabilityLedgerState) (record : AdminCapabilityUse)
    (revoked : Bool) (now : Timestamp) : Bool × AdminCapabilityLedgerState :=
  if ¬record.validateForLedger now then (false, state)
  else if state.anchors[record.clusterId]? ≠ some record.anchor then (false, state)
  else if record.key ∈ state.live now ∨
      (state.live now).size ≥ maxAdminCapabilityLedgerRecords then
    (false, { state with entries := state.live now })
  else (true, { state with entries := (state.live now).insert record.key (record, revoked) })

def hasHistory (state : AdminCapabilityLedgerState) (cluster : ClusterId) : Bool :=
  state.entries.keys.any (·.1 = cluster) || state.manifests.keys.any (·.1 = cluster) ||
    state.rotations.keys.any (·.1 = cluster)

variable (env : Primitives)

def initializeAdminQuorumManifest (state : AdminCapabilityLedgerState) (cluster : ClusterId)
    (manifest : Manifest) : Except ControlPlaneError Unit × AdminCapabilityLedgerState :=
  match validateAdminPublicManifest env cluster manifest with
  | .error error => (.error error, state)
  | .ok anchor =>
    let install : AdminCapabilityLedgerState :=
      { state with
        manifests := state.manifests.insert (cluster, anchor.manifestDigest) manifest
        anchors := state.anchors.insert cluster anchor }
    match state.anchors[cluster]? with
    | some existing =>
      if existing ≠ anchor then
        (.error (.store "admin public manifest anchor mismatch"), state)
      else (.ok (), install)
    | none =>
      if state.hasHistory cluster then
        (.error (.store "unanchored admin history requires review"), state)
      else (.ok (), install)

def publishAdminQuorumManifest (state : AdminCapabilityLedgerState) (cluster : ClusterId)
    (manifest : Manifest) : Except ControlPlaneError Unit × AdminCapabilityLedgerState :=
  match validateAdminPublicManifest env cluster manifest with
  | .error error => (.error error, state)
  | .ok anchor =>
    if state.anchors[cluster]? ≠ some anchor then
      (.error (.store "admin public manifest anchor mismatch"), state)
    else
      (.ok (), { state with
        manifests := state.manifests.insert (cluster, anchor.manifestDigest) manifest })

def getActiveAdminQuorumManifest (state : AdminCapabilityLedgerState) (cluster : ClusterId) :
    Except ControlPlaneError (Option Manifest) :=
  match state.anchors[cluster]? with
  | none =>
    if state.hasHistory cluster then
      .error (.store "unanchored admin history requires review")
    else .ok none
  | some anchor =>
    match state.manifests[(cluster, anchor.manifestDigest)]? with
    | none => .error (.store "active admin public manifest missing")
    | some manifest => do
        let stored ← validateAdminPublicManifest env cluster manifest
        rejectIf (stored ≠ anchor) (.store "active admin public manifest mismatch")
        pure (some manifest)

def installRotation (state : AdminCapabilityLedgerState) (cluster : ClusterId)
    (old new : AdminQuorumManifestAnchor) (oldManifest : Manifest) (rotation : ManifestRotation)
    (now : Timestamp) : AdminCapabilityLedgerState :=
  { state with
    manifests := (state.manifests.insert (cluster, old.manifestDigest) oldManifest).insert
      (cluster, new.manifestDigest) rotation.transition.newManifest
    rotations := state.rotations.insert (cluster, new.manifestEpoch) ⟨rotation, now⟩
    anchors := state.anchors.insert cluster new }

def usedRequestId (state : AdminCapabilityLedgerState) (cluster : ClusterId)
    (requestId : Bytes32) : Bool :=
  state.rotations.toList.any fun entry =>
    entry.1.1 = cluster && entry.2.rotation.transition.requestId = requestId

variable {env}

def rotateAdminQuorumManifest (state : AdminCapabilityLedgerState) (verified : VerifiedRotation env)
    (now : Timestamp) : Except ControlPlaneError Bool × AdminCapabilityLedgerState :=
  match verified.validateAt (unixSeconds now) with
  | .error _ => (.ok false, state)
  | .ok () =>
    let rotation := verified.rotation
    let cluster : ClusterId := ⟨rotation.transition.newManifest.clusterId⟩
    match validateAdminPublicManifest env cluster verified.oldManifest,
        validateAdminPublicManifest env cluster rotation.transition.newManifest with
    | .error error, _ => (.error error, state)
    | _, .error error => (.error error, state)
    | .ok old, .ok new =>
      if state.anchors[cluster]? ≠ some old ∨ (cluster, new.manifestEpoch) ∈ state.rotations ∨
          state.usedRequestId cluster rotation.transition.requestId then
        (.ok false, state)
      else
        (.ok true, state.installRotation cluster old new verified.oldManifest rotation now)

variable (env)

def bindAdminQuorumManifest (state : AdminCapabilityLedgerState) (cluster : ClusterId)
    (epoch : UInt64) (digest : String) :
    Except ControlPlaneError Unit × AdminCapabilityLedgerState :=
  let anchor : AdminQuorumManifestAnchor := ⟨epoch, digest⟩
  if ¬anchor.isValid then (.error (.store "invalid admin quorum manifest anchor"), state)
  else
    match state.anchors[cluster]? with
    | some existing =>
      if existing = anchor then (.ok (), state)
      else (.error (.store "admin quorum manifest anchor mismatch"), state)
    | none =>
      if state.hasHistory cluster then
        (.error (.store "unanchored admin capability ledger requires review"), state)
      else (.ok (), { state with anchors := state.anchors.insert cluster anchor })

end AdminCapabilityLedgerState

inductive AdminOp (env : Primitives) where
  | initializeManifest (cluster : ClusterId) (manifest : Manifest)
  | publishManifest (cluster : ClusterId) (manifest : Manifest)
  | bindManifest (cluster : ClusterId) (epoch : UInt64) (digest : String)
  | rotateManifest (verified : VerifiedRotation env)
  | consume (record : AdminCapabilityUse)
  | revoke (record : AdminCapabilityRevocation)

structure AdminCall (env : Primitives) where
  now : Timestamp
  op : AdminOp env

def AdminOp.capability {env : Primitives} : AdminOp env → Option AdminCapabilityUse
  | consume record => some record
  | revoke record => some record.intoLedgerUse
  | _ => none

/-- One call.  An operation without a result of its own answers `true`. -/
def AdminCapabilityLedgerState.apply {env : Primitives} (state : AdminCapabilityLedgerState)
    (call : AdminCall env) : Except ControlPlaneError Bool × AdminCapabilityLedgerState :=
  match call.op with
  | .initializeManifest cluster manifest =>
    (state.initializeAdminQuorumManifest env cluster manifest).map (·.map fun _ => true) id
  | .publishManifest cluster manifest =>
    (state.publishAdminQuorumManifest env cluster manifest).map (·.map fun _ => true) id
  | .bindManifest cluster epoch digest =>
    (state.bindAdminQuorumManifest cluster epoch digest).map (·.map fun _ => true) id
  | .rotateManifest verified => state.rotateAdminQuorumManifest verified call.now
  | .consume record => (state.insertAdminCapability record false call.now).map .ok id
  | .revoke record => (state.insertAdminCapability record.intoLedgerUse true call.now).map .ok id

section Manifests

variable {env : Primitives}

/-- Everything an operation on manifests can do: it is refused and changes nothing, or it is one of
the writes below. -/
inductive ManifestStep (state : AdminCapabilityLedgerState) : AdminCall env →
    Except ControlPlaneError Bool × AdminCapabilityLedgerState → Prop
  | refused {call r} (hr : r ≠ .ok true) : ManifestStep state call (r, state)
  | initializeManifest {now cluster manifest anchor}
      (hvalid : validateAdminPublicManifest env cluster manifest = .ok anchor)
      (hanchor : state.anchors[cluster]? = some anchor ∨
        (state.anchors[cluster]? = none ∧ state.hasHistory cluster = false)) :
      ManifestStep state ⟨now, .initializeManifest cluster manifest⟩
        (.ok true, { state with
          manifests := state.manifests.insert (cluster, anchor.manifestDigest) manifest
          anchors := state.anchors.insert cluster anchor })
  | publishManifest {now cluster manifest anchor}
      (hvalid : validateAdminPublicManifest env cluster manifest = .ok anchor)
      (hanchor : state.anchors[cluster]? = some anchor) :
      ManifestStep state ⟨now, .publishManifest cluster manifest⟩
        (.ok true, { state with
          manifests := state.manifests.insert (cluster, anchor.manifestDigest) manifest })
  | bindAgain {now cluster epoch digest} (hanchor : state.anchors[cluster]? = some ⟨epoch, digest⟩) :
      ManifestStep state ⟨now, .bindManifest cluster epoch digest⟩ (.ok true, state)
  | bindManifest {now cluster epoch digest} (hanchor : state.anchors[cluster]? = none)
      (hhistory : state.hasHistory cluster = false) :
      ManifestStep state ⟨now, .bindManifest cluster epoch digest⟩
        (.ok true, { state with anchors := state.anchors.insert cluster ⟨epoch, digest⟩ })
  | rotateManifest {now verified cluster old new}
      (hcluster : cluster = ⟨verified.rotation.transition.newManifest.clusterId⟩)
      (hverified : verified.validateAt (unixSeconds now) = .ok ())
      (hold : validateAdminPublicManifest env cluster verified.oldManifest = .ok old)
      (hnew : validateAdminPublicManifest env cluster verified.rotation.transition.newManifest =
        .ok new)
      (hanchor : state.anchors[cluster]? = some old)
      (hepoch : (cluster, new.manifestEpoch) ∉ state.rotations)
      (hfresh : state.usedRequestId cluster verified.rotation.transition.requestId = false) :
      ManifestStep state ⟨now, .rotateManifest verified⟩
        (.ok true,
          state.installRotation cluster old new verified.oldManifest verified.rotation now)

lemma manifestStep_apply (state : AdminCapabilityLedgerState) {call : AdminCall env}
    (hop : call.op.capability = none) : ManifestStep state call (state.apply call) := by
  rcases call with ⟨now, op⟩
  cases op with
  | initializeManifest cluster manifest =>
    simp only [AdminCapabilityLedgerState.apply, Prod.map,
      AdminCapabilityLedgerState.initializeAdminQuorumManifest]
    cases hvalid : validateAdminPublicManifest env cluster manifest with
    | error error => exact .refused (by simp [Except.map])
    | ok anchor =>
      cases hanchor : state.anchors[cluster]? with
      | some existing =>
        by_cases heq : existing = anchor
        · subst heq
          simp only [ne_eq, not_true_eq_false, if_false]
          exact .initializeManifest hvalid (.inl hanchor)
        · simp only [ne_eq, heq, not_false_eq_true, if_true]
          exact .refused (by simp [Except.map])
      | none =>
        cases hhistory : state.hasHistory cluster with
        | false => exact .initializeManifest hvalid (.inr ⟨hanchor, hhistory⟩)
        | true => exact .refused (by simp [Except.map])
  | publishManifest cluster manifest =>
    simp only [AdminCapabilityLedgerState.apply, Prod.map,
      AdminCapabilityLedgerState.publishAdminQuorumManifest]
    cases hvalid : validateAdminPublicManifest env cluster manifest with
    | error error => exact .refused (by simp [Except.map])
    | ok anchor =>
      by_cases hanchor : state.anchors[cluster]? = some anchor
      · simp only [hanchor, ne_eq, not_true_eq_false, if_false]
        exact .publishManifest hvalid hanchor
      · simp only [hanchor, ne_eq, not_false_eq_true, if_true]
        exact .refused (by simp [Except.map])
  | bindManifest cluster epoch digest =>
    simp only [AdminCapabilityLedgerState.apply, Prod.map,
      AdminCapabilityLedgerState.bindAdminQuorumManifest]
    cases AdminQuorumManifestAnchor.isValid ⟨epoch, digest⟩ with
    | false => exact .refused (by simp [Except.map])
    | true =>
      cases hanchor : state.anchors[cluster]? with
      | some existing =>
        by_cases heq : existing = ⟨epoch, digest⟩
        · subst heq
          simp only [not_true_eq_false, if_false, if_true]
          exact .bindAgain hanchor
        · simp only [heq, not_true_eq_false, if_false]
          exact .refused (by simp [Except.map])
      | none =>
        cases hhistory : state.hasHistory cluster with
        | false => exact .bindManifest hanchor hhistory
        | true => exact .refused (by simp [Except.map])
  | rotateManifest verified =>
    simp only [AdminCapabilityLedgerState.apply,
      AdminCapabilityLedgerState.rotateAdminQuorumManifest]
    cases hverified : verified.validateAt (unixSeconds now) with
    | error error => exact .refused (by simp)
    | ok _ =>
      cases hold : validateAdminPublicManifest env
          ⟨verified.rotation.transition.newManifest.clusterId⟩ verified.oldManifest with
      | error error => exact .refused (by simp)
      | ok old =>
        cases hnew : validateAdminPublicManifest env
            ⟨verified.rotation.transition.newManifest.clusterId⟩
            verified.rotation.transition.newManifest with
        | error error => exact .refused (by simp)
        | ok new =>
          dsimp only
          split_ifs with hrefused
          · exact .refused (by simp)
          · rw [not_or, not_or, not_not, Bool.not_eq_true] at hrefused
            exact .rotateManifest rfl hverified hold hnew hrefused.1 hrefused.2.1 hrefused.2.2
  | consume | revoke => cases hop

end Manifests

/-! ## What a call does to the ledger -/

section Capabilities

variable {env : Primitives} {state : AdminCapabilityLedgerState} {record : AdminCapabilityUse}
  {revoked : Bool} {now : Timestamp} {call : AdminCall env} {key : ClusterId × UInt64 × String}
  {entry : AdminCapabilityUse × Bool}

/-- The grace period after an expiry, in which a tombstone is kept. -/
abbrev grace : ℤ := seconds adminCapabilityLedgerGcGraceSeconds

lemma getElem?_live : (state.live now)[key]? = some entry ↔
    state.entries[key]? = some entry ∧ entry.1.expiresAt > now - grace := by
  rw [AdminCapabilityLedgerState.live, TreeMap.getElem?_filter', Option.filter_eq_some_iff,
    decide_eq_true_eq]

variable (state record revoked now) in
lemma insertAdminCapability_cases :
    state.insertAdminCapability record revoked now = (false, state) ∨
    ((record.key ∈ state.live now ∨ (state.live now).size ≥ maxAdminCapabilityLedgerRecords) ∧
      state.insertAdminCapability record revoked now =
        (false, { state with entries := state.live now })) ∨
    (now < record.expiresAt ∧ state.anchors[record.clusterId]? = some record.anchor ∧
      record.key ∉ state.live now ∧ (state.live now).size < maxAdminCapabilityLedgerRecords ∧
      state.insertAdminCapability record revoked now =
        (true, { state with entries := (state.live now).insert record.key (record, revoked) })) := by
  unfold AdminCapabilityLedgerState.insertAdminCapability
  by_cases hvalid : record.validateForLedger now = true
  · rw [if_neg (not_not.mpr hvalid)]
    by_cases hanchor : state.anchors[record.clusterId]? = some record.anchor
    · rw [if_neg (not_not.mpr hanchor)]
      by_cases hfull : record.key ∈ state.live now ∨
          (state.live now).size ≥ maxAdminCapabilityLedgerRecords
      · exact .inr (.inl ⟨hfull, if_pos hfull⟩)
      · have hexpires : now < record.expiresAt := by
          simp only [AdminCapabilityUse.validateForLedger, Bool.and_eq_true,
            decide_eq_true_eq] at hvalid
          tauto
        rw [if_neg hfull]
        rw [not_or, ge_iff_le, not_le] at hfull
        exact .inr (.inr ⟨hexpires, hanchor, hfull.1, hfull.2, rfl⟩)
    · exact .inl (if_pos hanchor)
  · exact .inl (if_pos hvalid)

lemma entries_apply (hop : call.op.capability = none) :
    (state.apply call).2.entries = state.entries := by
  have hstep := manifestStep_apply state hop
  generalize state.apply call = result at hstep ⊢
  cases hstep with
  | refused | initializeManifest | publishManifest | bindAgain | bindManifest | rotateManifest => rfl

lemma apply_capability (state : AdminCapabilityLedgerState) (hop : call.op.capability = some record) :
    ∃ revoked, state.apply call =
      (.ok (state.insertAdminCapability record revoked call.now).1,
        (state.insertAdminCapability record revoked call.now).2) := by
  rcases call with ⟨now, op⟩
  cases op with
  | consume used =>
    obtain rfl : used = record := Option.some.inj hop
    exact ⟨false, rfl⟩
  | revoke revocation =>
    obtain rfl : revocation.intoLedgerUse = record := Option.some.inj hop
    exact ⟨true, rfl⟩
  | _ => cases hop

variable (call) in
lemma entry_kept (hentry : state.entries[key]? = some entry)
    (hlive : entry.1.expiresAt > call.now - grace) :
    (state.apply call).2.entries[key]? = some entry := by
  cases hop : call.op.capability with
  | none => rwa [entries_apply hop]
  | some record =>
    have hkept : (state.live call.now)[key]? = some entry := getElem?_live.mpr ⟨hentry, hlive⟩
    obtain ⟨revoked, heq⟩ := apply_capability state hop
    rw [heq]
    obtain h | ⟨-, h⟩ | ⟨-, -, hnew, -, h⟩ :=
      insertAdminCapability_cases state record revoked call.now
    · rw [h]
      exact hentry
    · rw [h]
      exact hkept
    · rw [h]
      -- the new record's key was not live, so it is another one
      have hne : record.key ≠ key := by
        rintro rfl
        rw [TreeMap.mem_iff_isSome_getElem?, hkept] at hnew
        exact hnew rfl
      exact (getElem?_insert_ne hne).trans hkept

variable (call) in
lemma size_apply_le (h : state.entries.size ≤ maxAdminCapabilityLedgerRecords) :
    (state.apply call).2.entries.size ≤ maxAdminCapabilityLedgerRecords := by
  cases hop : call.op.capability with
  | none => rwa [entries_apply hop]
  | some record =>
    obtain ⟨revoked, heq⟩ := apply_capability state hop
    rw [heq]
    have hlive : (state.live call.now).size ≤ state.entries.size :=
      TreeMap.size_filter_le_size
    obtain h' | ⟨-, h'⟩ | ⟨-, -, -, hsize, h'⟩ :=
      insertAdminCapability_cases state record revoked call.now
    · rwa [h']
    · rw [h']
      exact hlive.trans h
    · rw [h']
      exact TreeMap.size_insert_le.trans hsize

section

variable (hop : call.op.capability = some record)
include hop

lemma refused_own_key (hrefused : (state.apply call).1 = .ok false)
    (hentry : (state.apply call).2.entries[record.key]? = some entry) :
    state.entries[record.key]? = some entry := by
  obtain ⟨revoked, heq⟩ := apply_capability state hop
  rw [heq] at hrefused hentry
  obtain h | ⟨-, h⟩ | ⟨-, -, -, -, h⟩ := insertAdminCapability_cases state record revoked call.now
  · rwa [h] at hentry
  · rw [h] at hentry
    exact (getElem?_live.mp hentry).1
  · rw [h] at hrefused
    cases hrefused

lemma entry_of_accepted (haccepted : (state.apply call).1 = .ok true) :
    call.now < record.expiresAt ∧
      ∃ revoked, (state.apply call).2.entries[record.key]? = some (record, revoked) := by
  obtain ⟨revoked, heq⟩ := apply_capability state hop
  rw [heq] at haccepted ⊢
  obtain h | ⟨-, h⟩ | ⟨hexpires, -, -, -, h⟩ :=
    insertAdminCapability_cases state record revoked call.now
  · rw [h] at haccepted
    cases haccepted
  · rw [h] at haccepted
    cases haccepted
  · refine ⟨hexpires, revoked, ?_⟩
    rw [h]
    exact TreeMap.getElem?_insert_self

lemma refused_of_entry (hentry : state.entries[record.key]? = some entry)
    (hlive : entry.1.expiresAt > call.now - grace) : (state.apply call).1 = .ok false := by
  have hmem : record.key ∈ state.live call.now := by
    rw [TreeMap.mem_iff_isSome_getElem?, getElem?_live.mpr ⟨hentry, hlive⟩]
    rfl
  obtain ⟨revoked, heq⟩ := apply_capability state hop
  rw [heq]
  obtain h | ⟨-, h⟩ | ⟨-, -, hnew, -, -⟩ :=
    insertAdminCapability_cases state record revoked call.now
  · rw [h]
  · rw [h]
  · exact absurd hmem hnew

lemma apply_capability_ne_error :
    (state.apply call).1 = .ok true ∨ (state.apply call).1 = .ok false := by
  obtain ⟨revoked, heq⟩ := apply_capability state hop
  rw [heq]
  cases (state.insertAdminCapability record revoked call.now).1 with
  | true => exact .inl rfl
  | false => exact .inr rfl

end

end Capabilities

/-! ## Single use -/

section SingleUse

variable {env : Primitives}

lemma entry_kept_run {state : AdminCapabilityLedgerState} {calls : List (AdminCall env)}
    {key : ClusterId × UInt64 × String} {entry : AdminCapabilityUse × Bool} {finish : Timestamp}
    (hfinish : ∀ call ∈ calls, call.now ≤ finish) (hentry : state.entries[key]? = some entry)
    (hlive : entry.1.expiresAt > finish - grace) :
    (exec AdminCapabilityLedgerState.apply state calls).entries[key]? = some entry :=
  exec_invariant (fun s : AdminCapabilityLedgerState => s.entries[key]? = some entry)
    (fun call hcall _ hs => entry_kept call hs (by linarith [hfinish call hcall])) hentry

/-- After a use or revocation, every later attempt with the same key and an expiry no later than the end of
the grace period fails.  No entry is dropped within its grace period, the ledger stays within its capacity,
and a failed attempt leaves the entry of its key alone. -/
theorem admin_capability_single_use (calls : List (AdminCall env))
    (hclock : (calls.map AdminCall.now).Pairwise (· ≤ ·)) :
    let state : List (AdminCall env) → AdminCapabilityLedgerState :=
      Runs.exec AdminCapabilityLedgerState.apply .empty
    (∀ before call middle call' after record record',
      calls = before ++ call :: (middle ++ call' :: after) →
      call.op.capability = some record → call'.op.capability = some record' →
      record'.key = record.key →
      record'.expiresAt ≤ record.expiresAt + seconds adminCapabilityLedgerGcGraceSeconds →
      ((state before).apply call).1 = .ok true →
      ((state (before ++ call :: middle)).apply call').1 = .ok false) ∧
    (∀ before call after (key : ClusterId × UInt64 × String) (entry : AdminCapabilityUse × Bool),
      calls = before ++ call :: after →
      (state before).entries[key]? = some entry →
      entry.1.expiresAt > call.now - seconds adminCapabilityLedgerGcGraceSeconds →
      ((state before).apply call).2.entries[key]? = some entry) ∧
    (∀ before after, calls = before ++ after →
      (state before).entries.size ≤ maxAdminCapabilityLedgerRecords) ∧
    (∀ before call after record entry, calls = before ++ call :: after →
      call.op.capability = some record → ((state before).apply call).1 = .ok false →
      ((state before).apply call).2.entries[record.key]? = some entry →
      (state before).entries[record.key]? = some entry) := by
  intro state
  refine ⟨?_, ?_, ?_, ?_⟩
  · rintro before call middle call' after record record' rfl hop hop' hkey hexpiry haccepted
    obtain ⟨-, revoked, hentry⟩ := entry_of_accepted hop haccepted
    have hlast := ordered_between hclock
    refine (apply_capability_ne_error hop').resolve_left fun haccepted' => ?_
    obtain ⟨hnow, -⟩ := entry_of_accepted hop' haccepted'
    have hlive : record.expiresAt > call'.now - grace := by
      change record'.expiresAt ≤ record.expiresAt + grace at hexpiry
      linarith
    have hstill := entry_kept_run (fun c hc => (hlast c (List.mem_append_left _ hc)).2) hentry hlive
    have hstate : state (before ++ call :: middle) =
        exec AdminCapabilityLedgerState.apply ((state before).apply call).2 middle := by
      simp only [state, exec_append, exec_cons]
    rw [← hkey, ← hstate] at hstill
    rw [refused_of_entry hop' hstill hlive] at haccepted'
    cases haccepted'
  · rintro before call after key entry rfl hentry hlive
    exact entry_kept call hentry hlive
  · rintro before after rfl
    refine exec_invariant (fun s : AdminCapabilityLedgerState => s.entries.size ≤ maxAdminCapabilityLedgerRecords)
      (fun call _ s hs => size_apply_le call hs) ?_
    simp [AdminCapabilityLedgerState.empty]
  · rintro before call after record entry rfl hop hrefused hentry
    exact refused_own_key hop hrefused hentry

end SingleUse

namespace SampleAdmin

def digest : String := String.ofList (List.replicate 64 'a')

def capability (requestId : String) (expiresAt : Timestamp) : AdminCapabilityUse where
  clusterId := ⟨"lab"⟩
  manifestEpoch := 1
  manifestDigest := digest
  requestId := requestId
  claimsDigest := digest
  expiresAt := expiresAt
  receivedAt := 0
  method := "PUT"
  path := "/v1/admin/policy"
  requesterPublicKey := "key"

def bindCall : AdminCall SampleQuorum.env := ⟨0, .bindManifest ⟨"lab"⟩ 1 digest⟩

def consumeCall (now : Timestamp) (requestId : String) (expiresAt : Timestamp) :
    AdminCall SampleQuorum.env :=
  ⟨now, .consume (capability requestId expiresAt)⟩

theorem admin_capability_single_use_later :
    ((Runs.exec AdminCapabilityLedgerState.apply .empty
      [bindCall, consumeCall (seconds 10) "r1" (seconds 200),
        consumeCall (seconds 350) "r2" (seconds 600)]).apply
      (consumeCall (seconds 400) "r1" (seconds 500))).1 = .ok false := by
  have hclock : (([bindCall, consumeCall (seconds 10) "r1" (seconds 200),
      consumeCall (seconds 350) "r2" (seconds 600),
      consumeCall (seconds 400) "r1" (seconds 500)]).map AdminCall.now).Pairwise (· ≤ ·) := by
    decide +kernel
  exact (admin_capability_single_use _ hclock).1 [bindCall] _ [_] _ [] _ _ rfl rfl rfl rfl
    (by decide +kernel) (by decide +kernel)

end SampleAdmin

end HeteroNetwork
