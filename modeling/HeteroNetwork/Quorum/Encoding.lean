import HeteroNetwork.Quorum.Sudo

/-!
# What a signature stands for

Eight kinds of byte strings are signed: three by the signer group, five by requesters and hosts.  Each
begins with a domain of its own, and each of its fields is delimited, so a byte string has one reading
only: as one kind of message, with one set of fields.
-/

namespace HeteroNetwork.Quorum

open Checked Framing BigEndian List Manifest

/-! ## Fields -/

lemma delimited_be16 : Delimited be16 :=
  delimited_uint (fun n => n.toNat_lt) fun _ _ h => UInt16.toNat_inj.mp h

lemma delimited_be32 : Delimited be32 :=
  delimited_uint (fun n => n.toNat_lt) fun _ _ h => UInt32.toNat_inj.mp h

lemma delimited_be64 : Delimited be64 :=
  delimited_uint (fun n => n.toNat_lt) fun _ _ h => UInt64.toNat_inj.mp h

lemma delimited_field : Delimited field := delimited_frame.comp utf8 utf8_injective

/-! ## Manifests -/

/-- The same manifest, up to the order of its members and the encoding of its keys. -/
structure Manifest.Equivalent (env : Primitives) (m m' : Manifest) : Prop where
  schemaVersion : m.schemaVersion = m'.schemaVersion
  clusterId : m.clusterId = m'.clusterId
  epoch : m.epoch = m'.epoch
  members : m.members.Perm m'.members
  publicKeys : m.publicKeys env = m'.publicKeys env

lemma delimited_member : Delimited Member.bytes := by
  have h := (delimited_field.prod (delimited_be16.prod delimited_field)).comp
    (fun m : Member => (m.nodeId, m.identifier, m.endpoint)) (by
      rintro ⟨⟩ ⟨⟩ heq
      simpa using heq)
  exact h.congr fun m => append_assoc _ _ _

lemma Manifest.digestBytes_inj {m m' : Manifest} {keys keys' : List UInt8}
    (h : m.digestBytes keys = m'.digestBytes keys') (hlen : (m.digestBytes keys).length < limit) :
    m.schemaVersion = m'.schemaVersion ∧ m.clusterId = m'.clusterId ∧ m.epoch = m'.epoch ∧
      m.sortedMembers = m'.sortedMembers ∧ keys = keys' := by
  have hne : ∀ member : Member, member.bytes ≠ [] := by
    intro member heq
    simpa [Member.bytes, field] using congrArg List.length heq
  have hfields := delimited_be32.prod (delimited_field.prod (delimited_be64.prod
    ((delimited_counted delimited_member hne).prod delimited_frame)))
  simp only [digestBytes, append_assoc, append_cancel_left_eq,
    length_append] at h hlen
  have heq := hfields.injective (m.schemaVersion, m.clusterId, m.epoch, m.sortedMembers, keys)
    (m'.schemaVersion, m'.clusterId, m'.epoch, m'.sortedMembers, keys') h
    (by simp only [length_append]; omega)
  simpa using heq

theorem Manifest.equivalent_of_canonicalBytes {env : Primitives} {m m' : Manifest}
    {bytes : List UInt8} (h : m.canonicalBytes env = .ok bytes)
    (h' : m'.canonicalBytes env = .ok bytes) (hlen : bytes.length < limit) : m.Equivalent env m' := by
  obtain ⟨-, keys, canonicalKeys, hkeys, hserialize, rfl⟩ := of_canonicalBytes h
  obtain ⟨-, keys', canonicalKeys', hkeys', hserialize', heq⟩ := of_canonicalBytes h'
  obtain ⟨hversion, hcluster, hepoch, hsorted, rfl⟩ := digestBytes_inj heq hlen
  refine ⟨hversion, hcluster, hepoch, ?_, ?_⟩
  · have hperm : m.members.Perm m.sortedMembers := (perm_insertionSort _ _).symm
    rw [hsorted] at hperm
    exact hperm.trans (perm_insertionSort _ _)
  · have hread := env.deserialize_serializeKeys hserialize
    rw [env.deserialize_serializeKeys hserialize'] at hread
    rw [hkeys, hkeys', Option.some.inj hread]

def Manifest.canonicalKeys (env : Primitives) (m : Manifest) : Except Error (List UInt8) := do
  let keys ← m.publicKeys env
  okOr (env.serializeKeys keys) .manifest

section Canonical

variable {env : Primitives} {m m' : Manifest} {keys keys' : List UInt8}

lemma Manifest.canonicalBytes_eq (hvalid : m.validate env = .ok ())
    (hkeys : m.canonicalKeys env = .ok keys) : m.canonicalBytes env = .ok (m.digestBytes keys) := by
  simp only [canonicalKeys, bind_eq_ok, okOr_eq_ok] at hkeys
  obtain ⟨package, hpackage, hserialize⟩ := hkeys
  simp only [canonicalBytes, bind_eq_ok, pure_eq_ok_iff, okOr_eq_ok]
  exact ⟨(), hvalid, package, hpackage, keys, hserialize, rfl⟩

lemma Manifest.nodup_identifiers (hvalid : m.validate env = .ok ()) :
    (m.members.map Member.identifier).Nodup := by
  simp only [validate, bind_eq_ok, rejectIf_eq_ok] at hvalid
  obtain ⟨_, -, package, -, _, -, hmembers⟩ := hvalid
  obtain ⟨ids, hids, hnodup, -⟩ := validateMembers_spec hmembers
  have hmap : ((m.members.map Member.identifier).map Identifier.tryFrom).Nodup := by
    rw [map_map]
    exact hids ▸ hnodup.map (Option.some_injective _)
  exact hmap.of_map

lemma Manifest.sortedMembers_eq_iff (hvalid : m.validate env = .ok ())
    (hvalid' : m'.validate env = .ok ()) :
    m.sortedMembers = m'.sortedMembers ↔ ∀ member, member ∈ m.members ↔ member ∈ m'.members := by
  have hperm : ∀ m : Manifest, m.sortedMembers.Perm m.members := fun m => perm_insertionSort _ _
  have hsorted : ∀ m : Manifest, m.sortedMembers.Pairwise fun a b =>
      a.identifier.toNat ≤ b.identifier.toNat := by
    intro m
    have : Std.Total fun a b : Member => a.identifier.toNat ≤ b.identifier.toNat :=
      ⟨fun a b => Nat.le_total _ _⟩
    have : IsTrans Member fun a b => a.identifier.toNat ≤ b.identifier.toNat :=
      ⟨fun _ _ _ => Nat.le_trans⟩
    exact pairwise_insertionSort _ _
  constructor
  · intro h member
    rw [← (hperm m).mem_iff, h, (hperm m').mem_iff]
  · intro h
    have hsame := (perm_ext_iff_of_nodup (nodup_identifiers hvalid).of_map
      (nodup_identifiers hvalid').of_map).mpr h
    refine List.Perm.eq_of_pairwise (fun a b ha hb hab hba => ?_) (hsorted m) (hsorted m')
      ((hperm m).trans (hsame.trans (hperm m').symm))
    refine inj_on_of_nodup_map (nodup_identifiers hvalid) ((hperm m).mem_iff.mp ha)
      ((h b).mpr ((hperm m').mem_iff.mp hb)) (UInt16.toNat_inj.mp (Nat.le_antisymm hab hba))

lemma Manifest.canonicalKeys_eq_iff (hkeys : m.canonicalKeys env = .ok keys)
    (hkeys' : m'.canonicalKeys env = .ok keys') :
    keys = keys' ↔ m.publicKeys env = m'.publicKeys env := by
  simp only [canonicalKeys, bind_eq_ok, okOr_eq_ok] at hkeys hkeys'
  obtain ⟨package, hpackage, hserialize⟩ := hkeys
  obtain ⟨package', hpackage', hserialize'⟩ := hkeys'
  rw [hpackage, hpackage']
  constructor
  · rintro rfl
    have hread := env.deserialize_serializeKeys hserialize
    rw [env.deserialize_serializeKeys hserialize'] at hread
    rw [Option.some.inj hread]
  · intro h
    obtain rfl := Except.ok.inj h
    exact Option.some.inj (hserialize.symm.trans hserialize')

/-- **What is hashed is the manifest up to the order of its members.** -/
theorem manifest_digest_canonical (env : Primitives) (m m' : Manifest) (keys keys' : List UInt8)
    (hvalid : m.validate env = .ok ()) (hvalid' : m'.validate env = .ok ())
    (hkeys : m.canonicalKeys env = .ok keys) (hkeys' : m'.canonicalKeys env = .ok keys')
    (hlen : (m.digestBytes keys).length < limit) :
    let same := m.schemaVersion = m'.schemaVersion ∧ m.clusterId = m'.clusterId ∧ m.epoch = m'.epoch ∧
      (∀ member, member ∈ m.members ↔ member ∈ m'.members) ∧ keys = keys'
    m.canonicalBytes env = .ok (m.digestBytes keys) ∧
    m'.canonicalBytes env = .ok (m'.digestBytes keys') ∧
    (keys = keys' ↔ m.publicKeys env = m'.publicKeys env) ∧
    (m.digestBytes keys = m'.digestBytes keys' ↔ same) ∧
    (same → m.digest env = m'.digest env) ∧
    ((env.sha256 (m.digestBytes keys) = env.sha256 (m'.digestBytes keys') →
        m.digestBytes keys = m'.digestBytes keys') →
      m.digest env = m'.digest env → same) := by
  intro same
  have hbytes := Manifest.canonicalBytes_eq hvalid hkeys
  have hbytes' := Manifest.canonicalBytes_eq hvalid' hkeys'
  have hiff : m.digestBytes keys = m'.digestBytes keys' ↔ same := by
    constructor
    · intro h
      obtain ⟨hversion, hcluster, hepoch, hsorted, hsame⟩ := Manifest.digestBytes_inj h hlen
      exact ⟨hversion, hcluster, hepoch, (Manifest.sortedMembers_eq_iff hvalid hvalid').mp hsorted, hsame⟩
    · rintro ⟨hversion, hcluster, hepoch, hmembers, rfl⟩
      have hsorted := (Manifest.sortedMembers_eq_iff hvalid hvalid').mpr hmembers
      rw [Manifest.digestBytes, Manifest.digestBytes, hversion, hcluster, hepoch, hsorted]
  have hdigest : m.digest env = .ok (hexDigest env (m.digestBytes keys)) := by
    rw [Manifest.digest, hbytes]
    rfl
  have hdigest' : m'.digest env = .ok (hexDigest env (m'.digestBytes keys')) := by
    rw [Manifest.digest, hbytes']
    rfl
  refine ⟨hbytes, hbytes', Manifest.canonicalKeys_eq_iff hkeys hkeys', hiff, ?_, ?_⟩
  · intro hsame
    rw [hdigest, hdigest', hiff.mpr hsame]
  · intro hhash heq
    rw [hdigest, hdigest'] at heq
    exact hiff.mp (hhash (hexDigest_inj (Except.ok.inj heq)))

end Canonical

/-! ## Records -/

section Records

variable {env : Primitives} {bytes : List UInt8}

lemma CapabilityClaims.signingBytes_inj {c c' : CapabilityClaims}
    (h : c.signingBytes = c'.signingBytes) (hlen : c.signingBytes.length < limit) : c = c' := by
  have hfields := (delimited_be32.prod (delimited_field.prod (delimited_be64.prod
    (delimited_field.prod (delimited_field.prod (delimited_field.prod ((delimited_bytes 32).prod
    ((delimited_bytes 32).prod ((delimited_bytes 32).prod (delimited_be64.prod
    delimited_be64)))))))))).comp
    (fun c : CapabilityClaims => (c.schemaVersion, c.clusterId, c.epoch, c.manifestDigest, c.method,
      c.path, c.bodySha256, c.requesterPublicKey, c.requestId, c.issuedAt, c.expiresAt)) (by
      rintro ⟨⟩ ⟨⟩ heq
      simpa using heq)
  simp only [CapabilityClaims.signingBytes, append_assoc, append_cancel_left_eq,
    length_append] at h hlen
  exact hfields.injective c c' h (by simp only [length_append]; omega)

lemma delimited_identity : Delimited SudoIdentity.bytes :=
  (delimited_field.prod delimited_field).comp (fun i : SudoIdentity => (i.issuer, i.subject)) (by
    rintro ⟨⟩ ⟨⟩ heq
    simpa using heq)

lemma delimited_grant : Delimited SudoGrant.bytes := by
  have hfields := (delimited_be32.prod (delimited_field.prod (delimited_field.prod
    (delimited_be32.prod (delimited_be32.prod (delimited_identity.prod (delimited_be64.prod
    ((delimited_bytes 32).prod (delimited_be64.prod (delimited_field.prod (delimited_field.prod
    ((delimited_bytes 32).prod (delimited_be64.prod delimited_be64))))))))))))).comp
    (fun g : SudoGrant => (g.schemaVersion, g.clusterId, g.hostNodeId, g.callerUid, g.runasUid,
      g.identity, g.attestationKeyEpoch, g.requesterPublicKey, g.manifestEpoch, g.manifestDigest,
      g.policyDigest, g.nonce, g.issuedAt, g.expiresAt)) (by
      rintro ⟨⟩ ⟨⟩ heq
      simpa using heq)
  exact hfields.congr fun g => by simp only [SudoGrant.bytes, append_assoc]

lemma SudoGrant.attestationBytes_inj {g g' : SudoGrant} (h : g.attestationBytes env = .ok bytes)
    (h' : g'.attestationBytes env = .ok bytes) (hlen : bytes.length < limit) : g = g' := by
  simp only [SudoGrant.attestationBytes, bind_eq_ok, pure_eq_ok_iff] at h h'
  obtain ⟨_, -, rfl⟩ := h
  obtain ⟨_, -, heq⟩ := h'
  rw [append_cancel_left_eq] at heq
  rw [length_append] at hlen
  exact delimited_grant.injective g g' heq.symm (by omega)

lemma SudoChallenge.signingBytes_inj {c c' : SudoChallenge} (h : c.signingBytes env = .ok bytes)
    (h' : c'.signingBytes env = .ok bytes) (hlen : bytes.length < limit) : c = c' := by
  simp only [SudoChallenge.signingBytes, bind_eq_ok, pure_eq_ok_iff] at h h'
  obtain ⟨_, -, attestation, hattestation, rfl⟩ := h
  obtain ⟨_, -, attestation', hattestation', heq⟩ := h'
  simp only [append_assoc, append_cancel_left_eq, length_append, length_frame]
    at heq hlen
  have hpair := (delimited_frame.prod delimited_frame).injective
    (attestation, c.hostSignature) (attestation', c'.hostSignature) heq.symm
    (by simp only [length_append, length_frame]; omega)
  obtain ⟨rfl, hsignature⟩ := Prod.mk.inj hpair
  have hgrant := SudoGrant.attestationBytes_inj hattestation hattestation' (by omega)
  cases c
  cases c'
  exact congrArg₂ SudoChallenge.mk hgrant hsignature

lemma CapabilityClaims.proofBytes_inj {c c' : CapabilityClaims} (h : c.proofBytes = c'.proofBytes)
    (hlen : c.proofBytes.length < limit) : c = c' := by
  simp only [CapabilityClaims.proofBytes, append_cancel_left_eq, length_append,
    length_frame] at h hlen
  exact signingBytes_inj (delimited_frame.injective _ _ h (by rw [length_frame]; omega)) (by omega)

lemma SudoRound1Request.proofBytes_inj {r r' : SudoRound1Request}
    (h : r.proofBytes env = .ok bytes) (h' : r'.proofBytes env = .ok bytes)
    (hlen : bytes.length < limit) : r.identifier = r'.identifier ∧ r.challenge = r'.challenge := by
  simp only [SudoRound1Request.proofBytes, bind_eq_ok, pure_eq_ok_iff] at h h'
  obtain ⟨challenge, hchallenge, rfl⟩ := h
  obtain ⟨challenge', hchallenge', heq⟩ := h'
  simp only [append_assoc, append_cancel_left_eq, length_append, length_frame]
    at heq hlen
  have hpair := (delimited_be16.prod delimited_frame).injective
    (r.identifier, challenge) (r'.identifier, challenge') heq.symm
    (by simp only [length_append, length_frame]; omega)
  obtain ⟨hidentifier, rfl⟩ := Prod.mk.inj hpair
  exact ⟨hidentifier, SudoChallenge.signingBytes_inj hchallenge hchallenge' (by omega)⟩

lemma SudoRound2Request.proofBytes_inj {r r' : SudoRound2Request}
    (h : r.proofBytes env = .ok bytes) (h' : r'.proofBytes env = .ok bytes)
    (hlen : bytes.length < limit) :
    r.identifier = r'.identifier ∧ r.sessionId = r'.sessionId ∧ r.challenge = r'.challenge ∧
      r.signingPackage = r'.signingPackage := by
  simp only [SudoRound2Request.proofBytes, bind_eq_ok, pure_eq_ok_iff, okOr_eq_ok] at h h'
  obtain ⟨_, -, challenge, hchallenge, package, hpackage, rfl⟩ := h
  obtain ⟨_, -, challenge', hchallenge', package', hpackage', heq⟩ := h'
  simp only [append_assoc, append_cancel_left_eq, length_append, length_frame]
    at heq hlen
  have htuple := (delimited_be16.prod ((delimited_bytes 32).prod
    (delimited_frame.prod delimited_frame))).injective
    (r.identifier, r.sessionId, challenge, package)
    (r'.identifier, r'.sessionId, challenge', package') heq.symm
    (by simp only [length_append, length_frame]; omega)
  simp only [Prod.mk.injEq] at htuple
  obtain ⟨hidentifier, hsession, rfl, rfl⟩ := htuple
  refine ⟨hidentifier, hsession,
    SudoChallenge.signingBytes_inj hchallenge hchallenge' (by omega), ?_⟩
  have hread := env.deserialize_serializePackage hpackage
  rw [env.deserialize_serializePackage hpackage'] at hread
  exact (Option.some.inj hread).symm

lemma SudoLocalInvocation.proofBytes_inj {i i' : SudoLocalInvocation} {token token' : SudoToken}
    (h : i.proofBytes env token = .ok bytes) (h' : i'.proofBytes env token' = .ok bytes)
    (hlen : bytes.length < limit) : i = i' ∧ token = token' := by
  simp only [SudoLocalInvocation.proofBytes, bind_eq_ok, pure_eq_ok_iff] at h h'
  obtain ⟨_, -, challenge, hchallenge, rfl⟩ := h
  obtain ⟨_, -, challenge', hchallenge', heq⟩ := h'
  simp only [append_assoc, append_cancel_left_eq, length_append, length_frame]
    at heq hlen
  have htuple := (delimited_frame.prod (delimited_frame.prod (delimited_field.prod
    (delimited_be32.prod (delimited_be32.prod ((delimited_bytes 32).prod
    (delimited_be64.prod delimited_be64))))))).injective
    (challenge, token.signature, i.hostNodeId, i.callerUid, i.runasUid, i.nonce, i.issuedAt,
      i.expiresAt)
    (challenge', token'.signature, i'.hostNodeId, i'.callerUid, i'.runasUid, i'.nonce, i'.issuedAt,
      i'.expiresAt) heq.symm
    (by simp only [length_append, length_frame]; omega)
  simp only [Prod.mk.injEq] at htuple
  obtain ⟨rfl, hsignature, hinvocation⟩ := htuple
  have hsame := SudoChallenge.signingBytes_inj hchallenge hchallenge' (by omega)
  cases i
  cases i'
  cases token
  cases token'
  exact ⟨by simpa using hinvocation, congrArg₂ SudoToken.mk hsame hsignature⟩

lemma ManifestTransition.signingBytes_inj {t t' : ManifestTransition}
    (h : t.signingBytes env = .ok bytes) (h' : t'.signingBytes env = .ok bytes)
    (hlen : bytes.length < limit) :
    t.oldManifestDigest = t'.oldManifestDigest ∧
      t.newManifest.digest env = t'.newManifest.digest env ∧
      t.newManifest.clusterId = t'.newManifest.clusterId ∧
      t.newManifest.epoch = t'.newManifest.epoch ∧ t.requestId = t'.requestId ∧
      t.issuedAt = t'.issuedAt ∧ t.expiresAt = t'.expiresAt := by
  simp only [ManifestTransition.signingBytes, bind_eq_ok, pure_eq_ok_iff] at h h'
  obtain ⟨digest, hdigest, rfl⟩ := h
  obtain ⟨digest', hdigest', heq⟩ := h'
  simp only [append_assoc, append_cancel_left_eq, length_append] at heq hlen
  have htuple := (delimited_field.prod (delimited_field.prod (delimited_field.prod
    (delimited_be64.prod ((delimited_bytes 32).prod
    (delimited_be64.prod delimited_be64)))))).injective
    (t.oldManifestDigest, digest, t.newManifest.clusterId, t.newManifest.epoch, t.requestId,
      t.issuedAt, t.expiresAt)
    (t'.oldManifestDigest, digest', t'.newManifest.clusterId, t'.newManifest.epoch, t'.requestId,
      t'.issuedAt, t'.expiresAt) heq.symm
    (by simp only [length_append]; omega)
  simp only [Prod.mk.injEq] at htuple
  obtain ⟨hold, rfl, hrest⟩ := htuple
  exact ⟨hold, hdigest.trans hdigest'.symm, hrest⟩

end Records

/-! ## Messages -/

inductive SignedMessage where
  | capability (claims : CapabilityClaims)
  | transition (t : ManifestTransition)
  | sudoChallenge (challenge : SudoChallenge)
  | capabilityProof (claims : CapabilityClaims)
  | round1Proof (request : SudoRound1Request)
  | round2Proof (request : SudoRound2Request)
  | redemptionProof (invocation : SudoLocalInvocation) (token : SudoToken)
  | attestation (grant : SudoGrant)

namespace SignedMessage

variable (env : Primitives)

def bytes : SignedMessage → Except Error (List UInt8)
  | capability claims => .ok claims.signingBytes
  | transition t => t.signingBytes env
  | sudoChallenge challenge => challenge.signingBytes env
  | capabilityProof claims => .ok claims.proofBytes
  | round1Proof request => request.proofBytes env
  | round2Proof request => request.proofBytes env
  | redemptionProof invocation token => invocation.proofBytes env token
  | attestation grant => grant.attestationBytes env

/-- The same kind of message with the same fields: a request for a round without the proof that signs it, a
transition with its manifest up to equivalence unless hashes collide. -/
def Agree : SignedMessage → SignedMessage → Prop
  | capability claims, capability claims' => claims = claims'
  | transition t, transition t' =>
    t.oldManifestDigest = t'.oldManifestDigest ∧
      t.newManifest.digest env = t'.newManifest.digest env ∧
      t.newManifest.clusterId = t'.newManifest.clusterId ∧
      t.newManifest.epoch = t'.newManifest.epoch ∧ t.requestId = t'.requestId ∧
      t.issuedAt = t'.issuedAt ∧ t.expiresAt = t'.expiresAt ∧
      ∀ b b', t.newManifest.canonicalBytes env = .ok b →
        t'.newManifest.canonicalBytes env = .ok b' → b.length < limit →
        Set.InjOn env.sha256 {b, b'} → t.newManifest.Equivalent env t'.newManifest
  | sudoChallenge challenge, sudoChallenge challenge' => challenge = challenge'
  | capabilityProof claims, capabilityProof claims' => claims = claims'
  | round1Proof r, round1Proof r' => r.identifier = r'.identifier ∧ r.challenge = r'.challenge
  | round2Proof r, round2Proof r' => r.identifier = r'.identifier ∧ r.sessionId = r'.sessionId ∧
      r.challenge = r'.challenge ∧ r.signingPackage = r'.signingPackage
  | redemptionProof i token, redemptionProof i' token' => i = i' ∧ token = token'
  | attestation grant, attestation grant' => grant = grant'
  | _, _ => False

def domain : SignedMessage → String
  | capability _ => "heteronetwork-quorum-capability-v1\x00"
  | transition _ => "heteronetwork-quorum-manifest-transition-v1\x00"
  | sudoChallenge _ => "heteronetwork-sudo-privilege-grant-v2\x00"
  | capabilityProof _ => "heteronetwork-quorum-request-proof-v1\x00"
  | round1Proof _ => "heteronetwork-sudo-round1-pop-v2\x00"
  | round2Proof _ => "heteronetwork-sudo-round2-pop-v2\x00"
  | redemptionProof _ _ => "heteronetwork-sudo-redemption-pop-v2\x00"
  | attestation _ => "heteronetwork-sudo-host-attestation-v2\x00"

variable {env} {m m' : SignedMessage} {b : List UInt8}

lemma exists_domain (h : m.bytes env = .ok b) : ∃ body, b = utf8 m.domain ++ body := by
  cases m with
  | capability claims =>
    obtain rfl := Except.ok.inj h
    simp only [CapabilityClaims.signingBytes, append_assoc]
    exact ⟨_, rfl⟩
  | transition t =>
    simp only [bytes, ManifestTransition.signingBytes, bind_eq_ok, pure_eq_ok_iff,
      append_assoc] at h
    obtain ⟨_, _, rfl⟩ := h
    exact ⟨_, rfl⟩
  | sudoChallenge challenge =>
    simp only [bytes, SudoChallenge.signingBytes, bind_eq_ok, pure_eq_ok_iff,
      append_assoc] at h
    obtain ⟨_, _, _, _, rfl⟩ := h
    exact ⟨_, rfl⟩
  | capabilityProof claims =>
    obtain rfl := Except.ok.inj h
    exact ⟨_, rfl⟩
  | round1Proof request =>
    simp only [bytes, SudoRound1Request.proofBytes, bind_eq_ok, pure_eq_ok_iff,
      append_assoc] at h
    obtain ⟨_, _, rfl⟩ := h
    exact ⟨_, rfl⟩
  | round2Proof request =>
    simp only [bytes, SudoRound2Request.proofBytes, bind_eq_ok, pure_eq_ok_iff,
      append_assoc] at h
    obtain ⟨_, _, _, _, _, _, rfl⟩ := h
    exact ⟨_, rfl⟩
  | redemptionProof invocation token =>
    simp only [bytes, SudoLocalInvocation.proofBytes, bind_eq_ok, pure_eq_ok_iff,
      append_assoc] at h
    obtain ⟨_, _, _, _, rfl⟩ := h
    exact ⟨_, rfl⟩
  | attestation grant =>
    simp only [bytes, SudoGrant.attestationBytes, bind_eq_ok, pure_eq_ok_iff] at h
    obtain ⟨_, _, rfl⟩ := h
    exact ⟨_, rfl⟩

lemma exists_terminated (m : SignedMessage) : ∃ name, utf8 m.domain = name ++ [0] ∧ 0 ∉ name := by
  have hdomains : ∀ domain ∈ ["heteronetwork-quorum-capability-v1\x00",
      "heteronetwork-quorum-manifest-transition-v1\x00",
      "heteronetwork-sudo-privilege-grant-v2\x00", "heteronetwork-quorum-request-proof-v1\x00",
      "heteronetwork-sudo-round1-pop-v2\x00", "heteronetwork-sudo-round2-pop-v2\x00",
      "heteronetwork-sudo-redemption-pop-v2\x00", "heteronetwork-sudo-host-attestation-v2\x00"],
      utf8 domain = (utf8 domain).dropLast ++ [0] ∧ 0 ∉ (utf8 domain).dropLast := by
    decide +kernel
  exact ⟨_, hdomains m.domain (by cases m <;> simp [domain])⟩

lemma domain_eq (h : m.bytes env = .ok b) (h' : m'.bytes env = .ok b) : m.domain = m'.domain := by
  obtain ⟨body, rfl⟩ := exists_domain h
  obtain ⟨body', heq⟩ := exists_domain h'
  obtain ⟨name, hname, hterminated⟩ := exists_terminated m
  obtain ⟨name', hname', hterminated'⟩ := exists_terminated m'
  rw [hname, hname', append_assoc, append_assoc] at heq
  obtain ⟨rfl, -⟩ := terminated_inj hterminated hterminated' heq
  exact utf8_injective (hname.trans hname'.symm)

end SignedMessage

/-- Equal bytes are the same message: of the same kind, and with the same fields. -/
theorem signed_messages_unambiguous (env : Primitives) (m m' : SignedMessage) (bytes : List UInt8)
    (h : m.bytes env = .ok bytes) (h' : m'.bytes env = .ok bytes) (hlen : bytes.length < 2 ^ 64) :
    m.Agree env m' := by
  have hdomain := SignedMessage.domain_eq h h'
  have hlimit : bytes.length < limit := hlen.trans_eq (by norm_num)
  cases m with
  | capability c =>
    cases m' with
    | capability c' =>
      obtain rfl := Except.ok.inj h
      exact CapabilityClaims.signingBytes_inj (Except.ok.inj h').symm hlimit
    | _ => exact absurd hdomain (by simp [SignedMessage.domain])
  | transition t =>
    cases m' with
    | transition t' =>
      obtain ⟨hold, hdigest, hcluster, hepoch, hrequest, hissued, hexpires⟩ :=
        ManifestTransition.signingBytes_inj h h' hlimit
      refine ⟨hold, hdigest, hcluster, hepoch, hrequest, hissued, hexpires, ?_⟩
      intro b b' hb hb' hblen hhash
      have hhex : hexDigest env b = hexDigest env b' := by
        simpa [Manifest.digest, hb, hb'] using hdigest
      obtain rfl := hhash (by simp) (by simp) (hexDigest_inj hhex)
      exact Manifest.equivalent_of_canonicalBytes hb hb' hblen
    | _ => exact absurd hdomain (by simp [SignedMessage.domain])
  | sudoChallenge c =>
    cases m' with
    | sudoChallenge c' => exact SudoChallenge.signingBytes_inj h h' hlimit
    | _ => exact absurd hdomain (by simp [SignedMessage.domain])
  | capabilityProof c =>
    cases m' with
    | capabilityProof c' =>
      obtain rfl := Except.ok.inj h
      exact CapabilityClaims.proofBytes_inj (Except.ok.inj h').symm hlimit
    | _ => exact absurd hdomain (by simp [SignedMessage.domain])
  | round1Proof r =>
    cases m' with
    | round1Proof r' => exact SudoRound1Request.proofBytes_inj h h' hlimit
    | _ => exact absurd hdomain (by simp [SignedMessage.domain])
  | round2Proof r =>
    cases m' with
    | round2Proof r' => exact SudoRound2Request.proofBytes_inj h h' hlimit
    | _ => exact absurd hdomain (by simp [SignedMessage.domain])
  | redemptionProof i token =>
    cases m' with
    | redemptionProof i' token' => exact SudoLocalInvocation.proofBytes_inj h h' hlimit
    | _ => exact absurd hdomain (by simp [SignedMessage.domain])
  | attestation g =>
    cases m' with
    | attestation g' => exact SudoGrant.attestationBytes_inj h h' hlimit
    | _ => exact absurd hdomain (by simp [SignedMessage.domain])

namespace SampleQuorum

def transition (m : Manifest) : ManifestTransition where
  oldManifestDigest := "00"
  newManifest := m
  requestId := Vector.replicate 32 7
  issuedAt := 1
  expiresAt := 2

def reversed : Manifest := { manifest 2 2 with members := (manifest 2 2).members.reverse }

theorem signed_messages_unambiguous_reversed :
    SignedMessage.Agree env (.transition (transition (manifest 2 2)))
      (.transition (transition reversed)) :=
  signed_messages_unambiguous env (.transition (transition (manifest 2 2)))
    (.transition (transition reversed))
    (((transition (manifest 2 2)).signingBytes env).toOption.getD []) (by decide +kernel)
    (by decide +kernel) (by decide +kernel)

theorem manifest_digest_canonical_reversed :
    (manifest 2 2).members ≠ reversed.members ∧ (manifest 2 2).digest env = reversed.digest env :=
  ⟨by decide +kernel, (manifest_digest_canonical env (manifest 2 2) reversed [2] [2] (by decide +kernel)
    (by decide +kernel) (by decide +kernel) (by decide +kernel) (by decide +kernel)).2.2.2.2.1
    ⟨rfl, rfl, rfl, by simp [reversed], rfl⟩⟩

end SampleQuorum

end HeteroNetwork.Quorum
