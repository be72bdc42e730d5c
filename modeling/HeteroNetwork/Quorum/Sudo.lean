import HeteroNetwork.Quorum.Manifest

/-!
# Sudo grants

A sudo grant names a host, a caller and an identity under a policy that every signer has installed.  The host
attests it, the requester proves possession of a key in every round and at redemption, and the group signs
the attested grant.
-/

namespace HeteroNetwork.Quorum

open Checked Framing

def sudoSchemaVersion : UInt32 := 2

def maxSudoTtlSecs : UInt64 := 60

def maxPolicyBytes : ℕ := 1048576

/-! ## Identities and policies -/

structure SudoIdentity where
  issuer : String
  subject : String
deriving DecidableEq

def isWhitespaceChar (c : Char) : Bool :=
  (9 ≤ c.toNat && c.toNat ≤ 13) || (0x2000 ≤ c.toNat && c.toNat ≤ 0x200a) ||
    c.toNat ∈ [0x20, 0x85, 0xa0, 0x1680, 0x2028, 0x2029, 0x202f, 0x205f, 0x3000]

namespace SudoIdentity

def validate (env : Primitives) (identity : SudoIdentity) : Except Error Unit := do
  rejectIf ((utf8 identity.issuer).length > 2048 ∨
    ¬"https://".toList.isPrefixOf identity.issuer.toList ∨
    identity.issuer.toList.any isWhitespaceChar ∨
    identity.subject = "" ∨ (utf8 identity.subject).length > 256 ∨
    identity.subject.toList.any isControl) .claims
  let issuer ← okOr (env.parseUrl identity.issuer) .claims
  rejectIf (issuer.scheme ≠ "https" ∨ issuer.hostStr = none ∨ issuer.username ≠ "" ∨
    issuer.password.isSome ∨ issuer.query.isSome ∨ issuer.fragment.isSome) .claims

def bytes (identity : SudoIdentity) : List UInt8 := field identity.issuer ++ field identity.subject

end SudoIdentity

structure SudoHostPolicy where
  attestationKeyEpoch : UInt64
  attestationPublicKey : Bytes32
  callers : Std.TreeMap UInt32 SudoIdentity

structure SudoPolicy where
  schemaVersion : UInt32
  manifest : Manifest
  hosts : Std.TreeMap String SudoHostPolicy

def strongKey (env : Primitives) (key : Bytes32) : Except Error Unit :=
  rejectIf (env.strongKey key = false) .key

namespace SudoPolicy

variable (env : Primitives)

def callerBytes : List UInt8 → List (UInt32 × SudoIdentity) → Except Error (List UInt8)
  | out, [] => pure out
  | out, (uid, identity) :: callers => do
      rejectIf (uid = 0) .claims
      identity.validate env
      let out := out ++ be32 uid ++ identity.bytes
      rejectIf (out.length > maxPolicyBytes) .capacity
      callerBytes out callers

/-- The loop of `canonical_bytes` over the hosts, with the number of callers and the host keys seen. -/
def hostBytes (manifest : Manifest) : List UInt8 → ℕ → Finset Bytes32 →
    List (String × SudoHostPolicy) → Except Error (List UInt8)
  | out, _, _, [] => pure out
  | out, callers, hostKeys, (node, host) :: hosts => do
      rejectIf (¬manifest.members.any (·.nodeId = node) ∨ host.attestationKeyEpoch = 0 ∨
        host.callers.size = 0 ∨ host.callers.size > 256) .manifest
      strongKey env host.attestationPublicKey
      rejectIf (host.attestationPublicKey ∈ hostKeys) .key
      rejectIf (callers + host.callers.size > 4096) .capacity
      let out := out ++ field node ++ be64 host.attestationKeyEpoch ++
        host.attestationPublicKey.toList ++ BigEndian.toBytes 8 host.callers.size
      let out ← callerBytes env out host.callers.toList
      hostBytes manifest out (callers + host.callers.size)
        (insert host.attestationPublicKey hostKeys) hosts

def canonicalBytes (policy : SudoPolicy) : Except Error (List UInt8) := do
  policy.manifest.validate env
  rejectIf (policy.schemaVersion ≠ sudoSchemaVersion ∨ policy.hosts.size = 0 ∨
    policy.hosts.size > policy.manifest.members.length) .manifest
  let digest ← policy.manifest.digest env
  hostBytes env policy.manifest
    (utf8 "heteronetwork-sudo-policy-v2\x00" ++ be32 policy.schemaVersion ++ field digest ++
      BigEndian.toBytes 8 policy.hosts.size) 0 ∅ policy.hosts.toList

def digest (policy : SudoPolicy) : Except Error String := do
  let bytes ← policy.canonicalBytes env
  pure (hexDigest env bytes)

end SudoPolicy

/-! ## Grants and challenges -/

structure SudoGrant where
  schemaVersion : UInt32
  clusterId : String
  hostNodeId : String
  callerUid : UInt32
  runasUid : UInt32
  identity : SudoIdentity
  attestationKeyEpoch : UInt64
  requesterPublicKey : Bytes32
  manifestEpoch : UInt64
  manifestDigest : String
  policyDigest : String
  nonce : Bytes32
  issuedAt : UInt64
  expiresAt : UInt64
deriving DecidableEq

def isLowerDigest (digest : String) : Bool :=
  (utf8 digest).length = 64 &&
    (utf8 digest).all fun b => (48 ≤ b && b ≤ 57) || (97 ≤ b && b ≤ 102)

namespace SudoGrant

variable (env : Primitives)

def shape (grant : SudoGrant) : Except Error Unit := do
  rejectIf (grant.schemaVersion ≠ sudoSchemaVersion ∨ ¬validId grant.clusterId ∨
    ¬validId grant.hostNodeId ∨ grant.callerUid = 0 ∨ grant.runasUid ≠ 0 ∨
    grant.attestationKeyEpoch = 0 ∨ grant.manifestEpoch = 0 ∨ grant.nonce = zero32 ∨
    ¬isLowerDigest grant.manifestDigest ∨ ¬isLowerDigest grant.policyDigest) .claims
  grant.identity.validate env
  strongKey env grant.requesterPublicKey

def validate (grant : SudoGrant) (policy : SudoPolicy) (now : UInt64) : Except Error Unit := do
  grant.shape env
  let policyDigest ← policy.digest env
  rejectIf (grant.policyDigest ≠ policyDigest ∨ grant.clusterId ≠ policy.manifest.clusterId ∨
    grant.manifestEpoch ≠ policy.manifest.epoch) .claims
  let manifestDigest ← policy.manifest.digest env
  rejectIf (grant.manifestDigest ≠ manifestDigest) .claims
  let host ← okOr policy.hosts[grant.hostNodeId]? .claims
  rejectIf (grant.attestationKeyEpoch ≠ host.attestationKeyEpoch ∨
    host.callers[grant.callerUid]? ≠ some grant.identity) .claims
  lifetime maxSudoTtlSecs grant.issuedAt grant.expiresAt now

def bytes (grant : SudoGrant) : List UInt8 :=
  be32 grant.schemaVersion ++
    field grant.clusterId ++
    field grant.hostNodeId ++
    be32 grant.callerUid ++
    be32 grant.runasUid ++
    grant.identity.bytes ++
    be64 grant.attestationKeyEpoch ++
    grant.requesterPublicKey.toList ++
    be64 grant.manifestEpoch ++
    field grant.manifestDigest ++
    field grant.policyDigest ++
    grant.nonce.toList ++
    be64 grant.issuedAt ++
    be64 grant.expiresAt

def attestationBytes (grant : SudoGrant) : Except Error (List UInt8) := do
  grant.shape env
  pure (utf8 "heteronetwork-sudo-host-attestation-v2\x00" ++ grant.bytes)

end SudoGrant

structure SudoChallenge where
  grant : SudoGrant
  hostSignature : List UInt8
deriving DecidableEq

namespace SudoChallenge

variable (env : Primitives)

def validate (challenge : SudoChallenge) (policy : SudoPolicy) (now : UInt64) :
    Except Error Unit := do
  challenge.grant.validate env policy now
  let host ← okOr policy.hosts[challenge.grant.hostNodeId]? .claims
  let message ← challenge.grant.attestationBytes env
  verifyEd25519 env host.attestationPublicKey message challenge.hostSignature

def signingBytes (challenge : SudoChallenge) : Except Error (List UInt8) := do
  rejectIf (challenge.hostSignature.length ≠ 64) .proof
  let attestation ← challenge.grant.attestationBytes env
  pure (utf8 "heteronetwork-sudo-privilege-grant-v2\x00" ++ frame attestation ++
    frame challenge.hostSignature)

end SudoChallenge

/-! ## Requests -/

structure SudoRound1Request where
  identifier : UInt16
  challenge : SudoChallenge
  requesterProof : List UInt8
deriving DecidableEq

def SudoRound1Request.proofBytes (env : Primitives) (request : SudoRound1Request) :
    Except Error (List UInt8) := do
  let challenge ← request.challenge.signingBytes env
  pure (utf8 "heteronetwork-sudo-round1-pop-v2\x00" ++ be16 request.identifier ++ frame challenge)

structure SudoRound2Request where
  identifier : UInt16
  sessionId : Bytes32
  challenge : SudoChallenge
  signingPackage : SigningPackage
  requesterProof : List UInt8
deriving DecidableEq

def SudoRound2Request.proofBytes (env : Primitives) (request : SudoRound2Request) :
    Except Error (List UInt8) := do
  rejectIf (request.signingPackage.signingCommitments.keys.card > 1024 ∨
    request.signingPackage.message.length > 8192) .package
  let challenge ← request.challenge.signingBytes env
  let package ← okOr (env.serializePackage request.signingPackage) .package
  pure (utf8 "heteronetwork-sudo-round2-pop-v2\x00" ++ be16 request.identifier ++
    request.sessionId.toList ++ frame challenge ++ frame package)

structure SudoToken where
  challenge : SudoChallenge
  signature : List UInt8
deriving DecidableEq

structure SudoLocalInvocation where
  hostNodeId : String
  callerUid : UInt32
  runasUid : UInt32
  nonce : Bytes32
  issuedAt : UInt64
  expiresAt : UInt64
deriving DecidableEq

def SudoLocalInvocation.proofBytes (env : Primitives) (invocation : SudoLocalInvocation)
    (token : SudoToken) : Except Error (List UInt8) := do
  rejectIf (¬validId invocation.hostNodeId ∨ invocation.callerUid = 0 ∨ invocation.runasUid ≠ 0 ∨
    invocation.nonce = zero32 ∨ token.signature.length ≠ 64) .claims
  let challenge ← token.challenge.signingBytes env
  pure (utf8 "heteronetwork-sudo-redemption-pop-v2\x00" ++ frame challenge ++
    frame token.signature ++ field invocation.hostNodeId ++ be32 invocation.callerUid ++
    be32 invocation.runasUid ++ invocation.nonce.toList ++ be64 invocation.issuedAt ++
    be64 invocation.expiresAt)

end HeteroNetwork.Quorum
