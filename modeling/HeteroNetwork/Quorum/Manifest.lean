import HeteroNetwork.Lib.Checked
import HeteroNetwork.Lib.Framing
import HeteroNetwork.Lib.OrderedMap
import HeteroNetwork.Types

/-!
# Manifests, capabilities and rotations of a signer group

A manifest freezes the members of a signer group and their group key.  A capability authorises one admin
request under a manifest, a rotation replaces the manifest; both are signed by a majority of the group.
-/

namespace HeteroNetwork

open Checked Framing BigEndian

namespace Quorum

inductive Error where
  | manifest
  | claims
  | time
  | proof
  | key
  | capacity
  | session
  | package
  | signature
  | random
deriving DecidableEq

abbrev Bytes32 := Vector UInt8 32

def zero32 : Bytes32 := Vector.replicate 32 0

/-! ## Primitives -/

/-- `frost::Identifier`: a scalar other than zero. -/
structure Identifier where
  scalar : ℕ
  ne_zero : scalar ≠ 0
deriving DecidableEq

namespace Identifier

def tryFrom (n : UInt16) : Option Identifier :=
  if h : n.toNat ≠ 0 then some ⟨n.toNat, h⟩ else none

end Identifier

/-- Group elements and scalars, by their encoding. -/
abbrev Element := Bytes32

structure PublicKeyPackage where
  minSigners : Option UInt16
  verifyingShares : Finmap fun _ : Identifier => Element
  verifyingKey : Element
deriving DecidableEq

structure KeyPackage where
  identifier : Identifier
  signingShare : Element
  verifyingShare : Element
  verifyingKey : Element
  minSigners : UInt16
deriving DecidableEq

structure SigningCommitments where
  hidingCommitment : Element
  bindingCommitment : Element
deriving DecidableEq

structure SigningNonces where
  hidingNonce : Element
  bindingNonce : Element
deriving DecidableEq

structure SigningPackage where
  signingCommitments : Finmap fun _ : Identifier => SigningCommitments
  message : List UInt8
deriving DecidableEq

structure Url where
  scheme : String
  hostStr : Option String
  username : String
  password : Option String
  query : Option String
  fragment : Option String
  path : String
  origin : String
deriving DecidableEq

/-- What the crate takes from other crates.  Serialised keys and packages can be read back. -/
structure Primitives where
  sha256 : List UInt8 → Bytes32
  parseUrl : String → Option Url
  deserializeKeys : List UInt8 → Option PublicKeyPackage
  serializeKeys : PublicKeyPackage → Option (List UInt8)
  deserializePackage : List UInt8 → Option SigningPackage
  serializePackage : SigningPackage → Option (List UInt8)
  /-- `frost::Signature::deserialize` and `VerifyingKey::verify`. -/
  verifyGroup : Element → List UInt8 → List UInt8 → Bool
  /-- `VerifyingKey::from_bytes` succeeds and the key is not weak. -/
  strongKey : Bytes32 → Bool
  /-- `Signature::from_slice` and `VerifyingKey::verify_strict`. -/
  verifyStrict : Bytes32 → List UInt8 → List UInt8 → Bool
  verifyingShare : Element → Element
  sign : SigningPackage → SigningNonces → KeyPackage → Option Element
  deserialize_serializeKeys : ∀ {keys bytes}, serializeKeys keys = some bytes →
    deserializeKeys bytes = some keys
  deserialize_serializePackage : ∀ {package bytes}, serializePackage package = some bytes →
    deserializePackage bytes = some package

def okOr {α : Type} (o : Option α) (error : Error) : Except Error α :=
  match o with
  | some a => .ok a
  | none => .error error

@[simp] lemma okOr_eq_ok {α : Type} {o : Option α} {error : Error} {a : α} :
    okOr o error = .ok a ↔ o = some a := by
  cases o <;> simp [okOr]

/-! ## Manifests -/

def schemaVersion : UInt32 := 1

def maxCapabilityTtlSecs : UInt64 := 300

structure Member where
  nodeId : String
  identifier : UInt16
  endpoint : String
deriving DecidableEq

structure Manifest where
  schemaVersion : UInt32
  clusterId : String
  epoch : UInt64
  members : List Member
  publicKeyPackage : List UInt8
deriving DecidableEq

def isAsciiAlphanumeric (b : UInt8) : Bool :=
  (48 ≤ b && b ≤ 57) || (65 ≤ b && b ≤ 90) || (97 ≤ b && b ≤ 122)

/-- `valid_id`: 1 to 256 bytes, all of them letters, digits or one of `-_.`. -/
def validId (value : String) : Bool :=
  value ≠ "" && (utf8 value).length ≤ 256 &&
    (utf8 value).all fun b => isAsciiAlphanumeric b || b ∈ utf8 "-_."

/-- `n.to_be_bytes()`. -/
def be16 (n : UInt16) : List UInt8 := toBytes 2 n.toNat

@[inherit_doc be16]
def be32 (n : UInt32) : List UInt8 := toBytes 4 n.toNat

@[inherit_doc be16]
def be64 (n : UInt64) : List UInt8 := toBytes 8 n.toNat

def field (value : String) : List UInt8 := frame (utf8 value)

def Member.bytes (member : Member) : List UInt8 :=
  field member.nodeId ++ be16 member.identifier ++ field member.endpoint

def hexDigest (env : Primitives) (bytes : List UInt8) : String :=
  String.ofList ((env.sha256 bytes).toList.flatMap fun b =>
    [Nat.digitChar (b.toNat / 16), Nat.digitChar (b.toNat % 16)])

namespace Manifest

variable (env : Primitives)

def publicKeys (manifest : Manifest) : Except Error PublicKeyPackage := do
  rejectIf (manifest.publicKeyPackage.length > 262144) .manifest
  okOr (env.deserializeKeys manifest.publicKeyPackage) .manifest

def threshold (manifest : Manifest) : UInt16 := UInt16.ofNat (manifest.members.length / 2 + 1)

/-- The loop of `validate` over the members, with the names, identifiers and endpoints seen. -/
def validateMembers (keys : PublicKeyPackage) :
    Finset String → Finset Identifier → Finset String → List Member → Except Error Unit
  | _, _, _, [] => pure ()
  | nodes, identifiers, endpoints, member :: members => do
      let id ← okOr (Identifier.tryFrom member.identifier) .manifest
      let endpoint ← okOr (env.parseUrl member.endpoint) .manifest
      rejectIf (¬validId member.nodeId ∨ member.nodeId ∈ nodes ∨ id ∈ identifiers ∨
        id ∉ keys.verifyingShares ∨ endpoint.scheme ∉ ["http", "https"] ∨
        endpoint.hostStr = none ∨ endpoint.username ≠ "" ∨ endpoint.password.isSome ∨
        endpoint.query.isSome ∨ endpoint.fragment.isSome ∨ endpoint.path ≠ "/" ∨
        endpoint.origin ∈ endpoints) .manifest
      validateMembers keys (insert member.nodeId nodes) (insert id identifiers)
        (insert endpoint.origin endpoints) members

def validate (manifest : Manifest) : Except Error Unit := do
  rejectIf (manifest.schemaVersion ≠ Quorum.schemaVersion ∨ manifest.epoch = 0 ∨
    ¬validId manifest.clusterId ∨ ¬(2 ≤ manifest.members.length ∧ manifest.members.length ≤ 1024))
    .manifest
  let keys ← manifest.publicKeys env
  rejectIf (keys.minSigners ≠ some manifest.threshold ∨
    keys.verifyingShares.keys.card ≠ manifest.members.length) .manifest
  validateMembers env keys ∅ ∅ ∅ manifest.members

def sortedMembers (manifest : Manifest) : List Member :=
  manifest.members.insertionSort fun a b => a.identifier.toNat ≤ b.identifier.toNat

def digestBytes (manifest : Manifest) (canonicalKeys : List UInt8) : List UInt8 :=
  utf8 "heteronetwork-quorum-manifest-v1\x00" ++
    be32 manifest.schemaVersion ++
    field manifest.clusterId ++
    be64 manifest.epoch ++
    counted Member.bytes manifest.sortedMembers ++
    frame canonicalKeys

def canonicalBytes (manifest : Manifest) : Except Error (List UInt8) := do
  manifest.validate env
  let keys ← manifest.publicKeys env
  let canonicalKeys ← okOr (env.serializeKeys keys) .manifest
  pure (manifest.digestBytes canonicalKeys)

def digest (manifest : Manifest) : Except Error String := do
  let bytes ← manifest.canonicalBytes env
  pure (hexDigest env bytes)

end Manifest

lemma Manifest.validateMembers_spec {env : Primitives} {keys : PublicKeyPackage} {members : List Member}
    {nodes endpoints : Finset String} {identifiers : Finset Identifier}
    (h : Manifest.validateMembers env keys nodes identifiers endpoints members = .ok ()) :
    ∃ ids : List Identifier, members.map (fun m => Identifier.tryFrom m.identifier) = ids.map some ∧
      ids.Nodup ∧ ∀ id ∈ ids, id ∉ identifiers ∧ id ∈ keys.verifyingShares.keys := by
  induction members generalizing nodes identifiers endpoints with
  | nil => exact ⟨[], rfl, List.nodup_nil, by simp⟩
  | cons member members ih =>
    simp only [Manifest.validateMembers, bind_eq_ok, okOr_eq_ok, rejectIf_eq_ok, not_or,
      not_not] at h
    obtain ⟨id, hid, endpoint, -, _, ⟨-, -, hnew, hkey, -⟩, hrest⟩ := h
    obtain ⟨ids, hids, hnodup, hmem⟩ := ih hrest
    refine ⟨id :: ids, by rw [List.map_cons, List.map_cons, hid, hids], ?_, ?_⟩
    · refine List.nodup_cons.mpr ⟨fun hin => ?_, hnodup⟩
      exact (hmem id hin).1 (Finset.mem_insert_self _ _)
    · rintro id' (_ | ⟨_, hin⟩)
      · exact ⟨hnew, Finmap.mem_keys.mpr hkey⟩
      · exact ⟨fun hold => (hmem id' hin).1 (Finset.mem_insert_of_mem hold), (hmem id' hin).2⟩

/-! ## What a digest determines -/

section Digests

variable {env : Primitives} {m m' : Manifest} {bytes bytes' : List UInt8} {digest : String}

lemma hexDigest_inj (h : hexDigest env bytes = hexDigest env bytes') :
    env.sha256 bytes = env.sha256 bytes' := by
  have hdigit : ∀ i < 16, ∀ j < 16, Nat.digitChar i = Nat.digitChar j → i = j := by decide
  have hbyte : Function.Injective fun b : UInt8 =>
      [Nat.digitChar (b.toNat / 16), Nat.digitChar (b.toNat % 16)] := by
    intro a b hab
    obtain ⟨hhigh, hlow⟩ := List.cons.inj hab
    have ha := a.toNat_lt
    have hb := b.toNat_lt
    have hdiv := hdigit _ (by omega) _ (by omega) hhigh
    have hmod := hdigit _ (by omega) _ (by omega) (List.cons.inj hlow).1
    exact UInt8.toNat_inj.mp (by omega)
  exact Vector.toList_inj.mp
    (flatMap_injective two_pos (fun _ => rfl) hbyte (String.ofList_injective h))

lemma canonicalBytes_of_digest (h : m.digest env = .ok digest) :
    ∃ bytes, m.canonicalBytes env = .ok bytes ∧ digest = hexDigest env bytes := by
  simp only [Manifest.digest, bind_eq_ok, pure_eq_ok_iff] at h
  obtain ⟨bytes, hbytes, rfl⟩ := h
  exact ⟨bytes, hbytes, rfl⟩

lemma length_lt_of_validId {value : String} (h : validId value = true) :
    (utf8 value).length < limit := by
  simp only [validId, Bool.and_eq_true, decide_eq_true_eq] at h
  have hle := h.1.2
  norm_num [limit]
  omega

lemma Manifest.of_canonicalBytes (h : m.canonicalBytes env = .ok bytes) :
    m.validate env = .ok () ∧ ∃ keys canonicalKeys, m.publicKeys env = .ok keys ∧
      env.serializeKeys keys = some canonicalKeys ∧ bytes = m.digestBytes canonicalKeys := by
  simp only [Manifest.canonicalBytes, bind_eq_ok, pure_eq_ok_iff, okOr_eq_ok] at h
  obtain ⟨_, hvalid, keys, hkeys, canonicalKeys, hserialize, rfl⟩ := h
  exact ⟨hvalid, keys, canonicalKeys, hkeys, hserialize, rfl⟩

lemma Manifest.validId_of_validate (h : m.validate env = .ok ()) : validId m.clusterId = true := by
  simp only [Manifest.validate, bind_eq_ok, rejectIf_eq_ok, not_or, not_not] at h
  obtain ⟨_, ⟨_, _, hid, _⟩, _⟩ := h
  exact hid

lemma Manifest.epoch_eq_of_canonicalBytes (h : m.canonicalBytes env = .ok bytes)
    (h' : m'.canonicalBytes env = .ok bytes) : m.epoch = m'.epoch := by
  obtain ⟨hvalid, keys, canonicalKeys, -, -, rfl⟩ := Manifest.of_canonicalBytes h
  obtain ⟨hvalid', keys', canonicalKeys', -, -, heq⟩ := Manifest.of_canonicalBytes h'
  simp only [Manifest.digestBytes, List.append_assoc, List.append_cancel_left_eq] at heq
  obtain ⟨-, heq⟩ := List.append_inj heq (by simp [be32])
  obtain ⟨-, heq⟩ := frame_inj heq (length_lt_of_validId (validId_of_validate hvalid))
    (length_lt_of_validId (validId_of_validate hvalid'))
  obtain ⟨hepoch, -⟩ := List.append_inj heq (by simp [be64])
  exact UInt64.toNat_inj.mp (toBytes_injective_of_lt hepoch m.epoch.toNat_lt m'.epoch.toNat_lt)

lemma Manifest.epoch_eq_of_digest {hashed : Set (List UInt8)} (hhash : Set.InjOn env.sha256 hashed)
    (hm : ∀ b, m.canonicalBytes env = .ok b → b ∈ hashed)
    (hm' : ∀ b, m'.canonicalBytes env = .ok b → b ∈ hashed)
    (h : m.digest env = .ok digest) (h' : m'.digest env = .ok digest) : m.epoch = m'.epoch := by
  obtain ⟨b, hb, rfl⟩ := canonicalBytes_of_digest h
  obtain ⟨b', hb', heq⟩ := canonicalBytes_of_digest h'
  obtain rfl := hhash (hm b hb) (hm' b' hb') (hexDigest_inj heq)
  exact epoch_eq_of_canonicalBytes hb hb'

end Digests

/-! ## Capabilities -/

structure CapabilityClaims where
  schemaVersion : UInt32
  clusterId : String
  epoch : UInt64
  manifestDigest : String
  method : String
  path : String
  bodySha256 : Bytes32
  requesterPublicKey : Bytes32
  requestId : Bytes32
  issuedAt : UInt64
  expiresAt : UInt64
deriving DecidableEq

def allowedNode (node : String) : Bool := validId node && node ≠ "." && node ≠ ".."

def allowedMutation (method path : String) : Bool :=
  match method, (path.toList.splitOn '/').map String.ofList with
  | "POST", ["", "v1", "admin", "enrollment"] => true
  | "POST", ["", "v1", "admin", "client-enrollment"] => true
  | "POST", ["", "v1", "admin", "quorum", "revocations"] => true
  | "PUT", ["", "v1", "admin", "policy"] => true
  | "DELETE", ["", "v1", "admin", "nodes", node] => allowedNode node
  | "PUT", ["", "v1", "admin", "nodes", node, "display-name"] => allowedNode node
  | "POST", ["", "v1", "admin", "paths", near, remote, "pin"] =>
    allowedNode near && allowedNode remote
  | _, _ => false

/-- `issued_at`, `expires_at` against the clock and a longest lifetime. -/
def lifetime (limit issued expires now : UInt64) : Except Error Unit :=
  rejectIf (issued > now ∨ expires ≤ now ∨ expires ≤ issued ∨ expires - issued > limit) .time

namespace CapabilityClaims

def signingBytes (claims : CapabilityClaims) : List UInt8 :=
  utf8 "heteronetwork-quorum-capability-v1\x00" ++
    be32 claims.schemaVersion ++
    field claims.clusterId ++
    be64 claims.epoch ++
    field claims.manifestDigest ++
    field claims.method ++
    field claims.path ++
    claims.bodySha256.toList ++
    claims.requesterPublicKey.toList ++
    claims.requestId.toList ++
    be64 claims.issuedAt ++
    be64 claims.expiresAt

def proofBytes (claims : CapabilityClaims) : List UInt8 :=
  utf8 "heteronetwork-quorum-request-proof-v1\x00" ++ frame claims.signingBytes

def validate (env : Primitives) (claims : CapabilityClaims) (manifest : Manifest) (now : UInt64) :
    Except Error Unit := do
  rejectIf (claims.schemaVersion ≠ Quorum.schemaVersion ∨ claims.clusterId ≠ manifest.clusterId ∨
    claims.epoch ≠ manifest.epoch) .claims
  -- the digest may itself fail, with the manifest's error
  let digest ← manifest.digest env
  rejectIf (claims.manifestDigest ≠ digest ∨ claims.requestId = zero32 ∨
    ¬allowedMutation claims.method claims.path) .claims
  lifetime maxCapabilityTtlSecs claims.issuedAt claims.expiresAt now

end CapabilityClaims

/-- `verify_ed25519`, and the body of `RequestProof::verify`. -/
def verifyEd25519 (env : Primitives) (key : Bytes32) (message signature : List UInt8) :
    Except Error Unit :=
  rejectIf (¬(env.strongKey key = true ∧ env.verifyStrict key message signature = true)) .proof

structure RequestProof where
  signature : List UInt8
deriving DecidableEq

def RequestProof.verify (env : Primitives) (proof : RequestProof) (claims : CapabilityClaims) :
    Except Error Unit :=
  verifyEd25519 env claims.requesterPublicKey claims.proofBytes proof.signature

/-! ## Rotations -/

structure ManifestTransition where
  oldManifestDigest : String
  newManifest : Manifest
  requestId : Bytes32
  issuedAt : UInt64
  expiresAt : UInt64
deriving DecidableEq

namespace ManifestTransition

variable (env : Primitives)

def validate (transition : ManifestTransition) (old : Manifest) (now : UInt64) :
    Except Error Unit := do
  let oldDigest ← old.digest env
  rejectIf (oldDigest ≠ transition.oldManifestDigest ∨
    transition.newManifest.clusterId ≠ old.clusterId ∨
    -- `old.epoch.checked_add(1)`
    old.epoch.toNat + 1 ≠ transition.newManifest.epoch.toNat ∨
    transition.requestId = zero32) .manifest
  transition.newManifest.validate env
  let oldKeys ← old.publicKeys env
  let newKeys ← transition.newManifest.publicKeys env
  rejectIf (oldKeys.verifyingKey = newKeys.verifyingKey) .key
  lifetime maxCapabilityTtlSecs transition.issuedAt transition.expiresAt now

def signingBytes (transition : ManifestTransition) : Except Error (List UInt8) := do
  let newDigest ← transition.newManifest.digest env
  pure (utf8 "heteronetwork-quorum-manifest-transition-v1\x00" ++
    field transition.oldManifestDigest ++
    field newDigest ++
    field transition.newManifest.clusterId ++
    be64 transition.newManifest.epoch ++
    transition.requestId.toList ++
    be64 transition.issuedAt ++
    be64 transition.expiresAt)

end ManifestTransition

structure ManifestRotation where
  transition : ManifestTransition
  oldSignature : List UInt8
  newSignature : List UInt8
deriving DecidableEq

def checkRotation (env : Primitives) (old : Manifest) (rotation : ManifestRotation) (now : UInt64) :
    Except Error Unit := do
  rotation.transition.validate env old now
  let message ← rotation.transition.signingBytes env
  let oldKeys ← old.publicKeys env
  rejectIf (env.verifyGroup oldKeys.verifyingKey message rotation.oldSignature = false) .signature
  let newKeys ← rotation.transition.newManifest.publicKeys env
  rejectIf (env.verifyGroup newKeys.verifyingKey message rotation.newSignature = false) .signature

/-- A rotation that `verify_rotation` has accepted, at some time. -/
structure VerifiedRotation (env : Primitives) where
  oldManifest : Manifest
  rotation : ManifestRotation
  verified : ∃ now, checkRotation env oldManifest rotation now = .ok ()

def VerifiedRotation.validateAt {env : Primitives} (verified : VerifiedRotation env) (now : UInt64) :
    Except Error Unit :=
  verified.rotation.transition.validate env verified.oldManifest now

/-! ## A group of two

Primitives that are as simple as their laws allow, and a manifest they accept. -/

namespace SampleQuorum

def one : Identifier := ⟨1, by decide⟩

def two : Identifier := ⟨2, by decide⟩

def keys (tag : UInt8) : PublicKeyPackage where
  minSigners := some 2
  verifyingShares := (Finmap.singleton one zero32).insert two zero32
  verifyingKey := Vector.replicate 32 tag

def env : Primitives where
  sha256 bytes := Vector.ofFn fun i => (bytes.reverse[i]?).getD 0
  parseUrl text := some ⟨"https", some text, "", none, none, none, "/", text⟩
  deserializeKeys bytes := bytes.head?.map keys
  serializeKeys package :=
    if package = keys package.verifyingKey[0] then some [package.verifyingKey[0]] else none
  deserializePackage _ := none
  serializePackage _ := none
  verifyGroup key _ signature := decide (signature = key.toList)
  strongKey _ := true
  verifyStrict key _ signature := decide (signature = key.toList)
  verifyingShare := id
  sign _ _ key := some key.signingShare
  deserialize_serializeKeys := by
    intro package bytes h
    split_ifs at h with hkeys
    obtain rfl := Option.some.inj h
    exact congrArg some hkeys.symm
  deserialize_serializePackage := by simp

def manifest (epoch : UInt64) (tag : UInt8) : Manifest where
  schemaVersion := 1
  clusterId := "lab"
  epoch := epoch
  members := [⟨"n1", 1, "https://n1"⟩, ⟨"n2", 2, "https://n2"⟩]
  publicKeyPackage := [tag]

end SampleQuorum

end Quorum

end HeteroNetwork
