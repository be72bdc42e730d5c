import HeteroNetwork.Lib.Runs
import HeteroNetwork.Quorum.Sudo

/-!
# The signer engine

Round 1 draws a pair of nonces, commits to it and keeps it under a fresh session id together with the message
it is for; round 2 takes it out again and signs with it.  A pair of nonces that signs twice gives the key
share away.
-/

namespace HeteroNetwork

open Std (TreeMap)

open Runs

namespace Quorum

open Checked OrderedMap List

/-! ## Sessions -/

structure Pending where
  message : List UInt8
  createdAt : UInt64
  expiresAt : UInt64
  nonces : SigningNonces
  commitments : SigningCommitments
deriving DecidableEq

structure Round1Response where
  sessionId : Bytes32
  identifier : UInt16
  commitments : SigningCommitments
deriving DecidableEq

/-- What one allocation draws: a session id, unless there is no randomness, and
`frost::round1::commit`. -/
structure Draw where
  sessionId : Option Bytes32
  nonces : SigningNonces
  commitments : SigningCommitments
deriving DecidableEq

/-- The arguments of `frost::round2::sign`, besides the engine's own key. -/
structure SignCall where
  package : SigningPackage
  nonces : SigningNonces
deriving DecidableEq

abbrev Sessions := TreeMap Bytes32 Pending

/-- An engine is made for a valid manifest only. -/
structure SignerEngine (env : Primitives) where
  manifest : Manifest
  key : KeyPackage
  identifier : UInt16
  maxPending : ℕ
  pendingTtlSecs : UInt64
  pending : Sessions
  manifest_valid : manifest.validate env = .ok ()

namespace SignerEngine

variable {env : Primitives}

def new (manifest : Manifest) (nodeId : String) (key : KeyPackage) (maxPending : ℕ)
    (pendingTtlSecs : UInt64) : Except Error (SignerEngine env) :=
  match hvalid : manifest.validate env with
  | .error error => .error error
  | .ok () => do
      rejectIf (¬(1 ≤ maxPending ∧ maxPending ≤ 1024) ∨
        ¬(1 ≤ pendingTtlSecs ∧ pendingTtlSecs ≤ 300)) .capacity
      let member ← okOr (manifest.members.find? (·.nodeId = nodeId)) .key
      let id ← okOr (Identifier.tryFrom member.identifier) .key
      let keys ← manifest.publicKeys env
      rejectIf (key.identifier ≠ id ∨ key.minSigners ≠ manifest.threshold ∨
        key.verifyingKey ≠ keys.verifyingKey ∨
        keys.verifyingShares.lookup id ≠ some key.verifyingShare ∨
        env.verifyingShare key.signingShare ≠ key.verifyingShare) .key
      pure ⟨manifest, key, member.identifier, maxPending, pendingTtlSecs, ∅, hvalid⟩

def retain (engine : SignerEngine env) (now : UInt64) : SignerEngine env :=
  { engine with
    pending := engine.pending.filter fun _ pending =>
      decide (now ≥ pending.createdAt ∧ now < pending.expiresAt) }

def allocatePending (engine : SignerEngine env) (message : List UInt8) (expiresAt now : UInt64)
    (draw : Draw) : Except Error Round1Response × SignerEngine env :=
  let engine := engine.retain now
  if engine.pending.size ≥ engine.maxPending then (.error .capacity, engine)
  else
    match draw.sessionId with
    | none => (.error .random, engine)
    | some sessionId =>
      if sessionId = zero32 ∨ sessionId ∈ engine.pending then (.error .random, engine)
      else
        (.ok ⟨sessionId, engine.identifier, draw.commitments⟩,
          { engine with
            pending := engine.pending.insert sessionId
              { message
                createdAt := now
                expiresAt := min (saturatingAdd now engine.pendingTtlSecs) expiresAt
                nonces := draw.nonces
                commitments := draw.commitments } })

def signPending (engine : SignerEngine env) (pending : Pending) (message : List UInt8)
    (package : SigningPackage) (now : UInt64) : Except Error SignCall := do
  rejectIf (now < pending.createdAt ∨ now ≥ pending.expiresAt) .time
  let keys ← engine.manifest.publicKeys env
  rejectIf (pending.message ≠ message ∨ package.message ≠ message ∨
    package.signingCommitments.keys.card < engine.manifest.threshold.toNat ∨
    package.signingCommitments.keys.card > engine.manifest.members.length ∨
    ¬(∀ id ∈ package.signingCommitments.keys, id ∈ keys.verifyingShares) ∨
    package.signingCommitments.lookup engine.key.identifier ≠ some pending.commitments) .package
  pure ⟨package, pending.nonces⟩

def sign (engine : SignerEngine env) (call : SignCall) : Except Error Element :=
  okOr (env.sign call.package call.nonces engine.key) .package

/-- The second round of every protocol consumes the session before it checks anything. -/
def answer (engine : SignerEngine env) (sessionId : Bytes32)
    (check : Pending → Except Error SignCall) : Except Error SignCall × SignerEngine env :=
  match engine.pending[sessionId]? with
  | none => (.error .session, engine)
  | some pending => (check pending, { engine with pending := engine.pending.erase sessionId })

def round1 (engine : SignerEngine env) (claims : CapabilityClaims) (proof : RequestProof)
    (now : UInt64) (draw : Draw) : Except Error Round1Response × SignerEngine env :=
  let engine := engine.retain now
  match (do claims.validate env engine.manifest now; proof.verify env claims : Except Error Unit) with
  | .error error => (.error error, engine)
  | .ok () => engine.allocatePending claims.signingBytes claims.expiresAt now draw

def round2 (engine : SignerEngine env) (sessionId : Bytes32) (claims : CapabilityClaims)
    (package : SigningPackage) (now : UInt64) : Except Error SignCall × SignerEngine env :=
  engine.answer sessionId fun pending => do
    rejectIf (now < pending.createdAt ∨ now ≥ pending.expiresAt) .time
    claims.validate env engine.manifest now
    engine.signPending pending claims.signingBytes package now

def validateRotationGroup (engine : SignerEngine env) (old : Manifest)
    (transition : ManifestTransition) (now : UInt64) : Except Error Unit := do
  transition.validate env old now
  let digest ← engine.manifest.digest env
  if digest ≠ transition.oldManifestDigest then
    let newDigest ← transition.newManifest.digest env
    rejectIf (digest ≠ newDigest) .manifest

def round1Rotation (engine : SignerEngine env) (old : Manifest) (transition : ManifestTransition)
    (now : UInt64) (draw : Draw) : Except Error Round1Response × SignerEngine env :=
  match (do engine.validateRotationGroup old transition now; transition.signingBytes env :
      Except Error (List UInt8)) with
  | .error error => (.error error, engine)
  | .ok message => engine.allocatePending message transition.expiresAt now draw

def round2Rotation (engine : SignerEngine env) (sessionId : Bytes32) (old : Manifest)
    (transition : ManifestTransition) (package : SigningPackage) (now : UInt64) :
    Except Error SignCall × SignerEngine env :=
  engine.answer sessionId fun pending => do
    engine.validateRotationGroup old transition now
    let message ← transition.signingBytes env
    engine.signPending pending message package now

def validateSudoIdentity (engine : SignerEngine env) (policy : SudoPolicy)
    (authenticated : SudoIdentity) (challenge : SudoChallenge) (now : UInt64) :
    Except Error Unit := do
  let digest ← engine.manifest.digest env
  let policyManifestDigest ← policy.manifest.digest env
  rejectIf (digest ≠ policyManifestDigest) .manifest
  challenge.validate env policy now
  rejectIf (authenticated ≠ challenge.grant.identity) .proof

def round1Sudo (engine : SignerEngine env) (policy : SudoPolicy) (authenticated : SudoIdentity)
    (request : SudoRound1Request) (now : UInt64) (draw : Draw) :
    Except Error Round1Response × SignerEngine env :=
  match (do
      engine.validateSudoIdentity policy authenticated request.challenge now
      rejectIf (request.identifier ≠ engine.identifier) .proof
      let proof ← request.proofBytes env
      verifyEd25519 env request.challenge.grant.requesterPublicKey proof request.requesterProof
      request.challenge.signingBytes env : Except Error (List UInt8)) with
  | .error error => (.error error, engine)
  | .ok message => engine.allocatePending message request.challenge.grant.expiresAt now draw

def round2Sudo (engine : SignerEngine env) (policy : SudoPolicy) (authenticated : SudoIdentity)
    (request : SudoRound2Request) (now : UInt64) : Except Error SignCall × SignerEngine env :=
  engine.answer request.sessionId fun pending => do
    engine.validateSudoIdentity policy authenticated request.challenge now
    rejectIf (request.identifier ≠ engine.identifier) .proof
    let proof ← request.proofBytes env
    verifyEd25519 env request.challenge.grant.requesterPublicKey proof request.requesterProof
    let message ← request.challenge.signingBytes env
    engine.signPending pending message request.signingPackage now

end SignerEngine

/-! ## Calls -/

inductive SignerOp where
  | round1 (claims : CapabilityClaims) (proof : RequestProof) (now : UInt64) (draw : Draw)
  | round1Rotation (old : Manifest) (transition : ManifestTransition) (now : UInt64) (draw : Draw)
  | round1Sudo (policy : SudoPolicy) (authenticated : SudoIdentity) (request : SudoRound1Request)
      (now : UInt64) (draw : Draw)
  | round2 (sessionId : Bytes32) (claims : CapabilityClaims) (package : SigningPackage)
      (now : UInt64)
  | round2Rotation (sessionId : Bytes32) (old : Manifest) (transition : ManifestTransition)
      (package : SigningPackage) (now : UInt64)
  | round2Sudo (policy : SudoPolicy) (authenticated : SudoIdentity) (request : SudoRound2Request)
      (now : UInt64)

namespace SignerOp

def now : SignerOp → UInt64
  | round1 _ _ now _ | round1Rotation _ _ now _ | round1Sudo _ _ _ now _ => now
  | round2 _ _ _ now | round2Rotation _ _ _ _ now | round2Sudo _ _ _ now => now

def draw : SignerOp → Option Draw
  | round1 _ _ _ draw | round1Rotation _ _ _ draw | round1Sudo _ _ _ _ draw => some draw
  | _ => none

def session : SignerOp → Option Bytes32
  | round2 sessionId _ _ _ => some sessionId
  | round2Rotation sessionId _ _ _ _ => some sessionId
  | round2Sudo _ _ request _ => some request.sessionId
  | _ => none

def message (env : Primitives) : SignerOp → Except Error (List UInt8)
  | round1 claims _ _ _ | round2 _ claims _ _ => .ok claims.signingBytes
  | round1Rotation _ transition _ _ | round2Rotation _ _ transition _ _ => transition.signingBytes env
  | round1Sudo _ _ request _ _ => request.challenge.signingBytes env
  | round2Sudo _ _ request _ => request.challenge.signingBytes env

def expiresAt : SignerOp → UInt64
  | round1 claims _ _ _ | round2 _ claims _ _ => claims.expiresAt
  | round1Rotation _ transition _ _ | round2Rotation _ _ transition _ _ => transition.expiresAt
  | round1Sudo _ _ request _ _ => request.challenge.grant.expiresAt
  | round2Sudo _ _ request _ => request.challenge.grant.expiresAt

end SignerOp

/-- What a call answers.  A second round that gets as far as `frost::round2::sign` shows the call it
made beside the share. -/
inductive SignerOutcome where
  | allocated (response : Except Error Round1Response)
  | answered (share : Except Error Element) (call : Option SignCall)

namespace SignerEngine

variable {env : Primitives}

def outcome (engine : SignerEngine env) (call : Except Error SignCall) : SignerOutcome :=
  .answered (call >>= engine.sign) call.toOption

def apply (engine : SignerEngine env) : SignerOp → SignerOutcome × SignerEngine env
  | .round1 claims proof now draw => (engine.round1 claims proof now draw).map .allocated id
  | .round1Rotation old transition now draw =>
    (engine.round1Rotation old transition now draw).map .allocated id
  | .round1Sudo policy authenticated request now draw =>
    (engine.round1Sudo policy authenticated request now draw).map .allocated id
  | .round2 sessionId claims package now =>
    (engine.round2 sessionId claims package now).map engine.outcome id
  | .round2Rotation sessionId old transition package now =>
    (engine.round2Rotation sessionId old transition package now).map engine.outcome id
  | .round2Sudo policy authenticated request now =>
    (engine.round2Sudo policy authenticated request now).map engine.outcome id

end SignerEngine

section Members

variable {env : Primitives} {m : Manifest} {keys : PublicKeyPackage}

/-- The keys of a valid manifest are those of its members, and no others. -/
theorem Manifest.mem_verifyingShares_iff (hvalid : m.validate env = .ok ())
    (hkeys : m.publicKeys env = .ok keys) (id : Identifier) :
    id ∈ keys.verifyingShares ↔ ∃ member ∈ m.members, Identifier.tryFrom member.identifier = some id := by
  simp only [Manifest.validate, bind_eq_ok, rejectIf_eq_ok, not_or, not_not] at hvalid
  obtain ⟨_, _, keys', hkeys', _, ⟨-, hcard⟩, hmembers⟩ := hvalid
  obtain rfl : keys = keys' := Except.ok.inj (hkeys.symm.trans hkeys')
  obtain ⟨ids, hids, hnodup, hmem⟩ := Manifest.validateMembers_spec hmembers
  have hlength : ids.length = m.members.length := by
    simpa using (congrArg List.length hids).symm
  have hall : ids.toFinset = keys.verifyingShares.keys := by
    refine Finset.eq_of_subset_of_card_le (fun id hid => (hmem id (mem_toFinset.mp hid)).2) ?_
    rw [hcard, toFinset_card_of_nodup hnodup, hlength]
  rw [← Finmap.mem_keys, ← hall, mem_toFinset]
  have hsome : id ∈ ids ↔ some id ∈ ids.map some := by simp
  rw [hsome, ← hids, mem_map]

end Members

/-! ## What a call does -/

section Steps

variable {env : Primitives} {engine : SignerEngine env} {op : SignerOp}

def SignerEngine.opened (engine : SignerEngine env) (op : SignerOp) (message : List UInt8)
    (draw : Draw) : Pending where
  message := message
  createdAt := op.now
  expiresAt := min (saturatingAdd op.now engine.pendingTtlSecs) op.expiresAt
  nonces := draw.nonces
  commitments := draw.commitments

/-- No session is added or changed. -/
def KeptFrom (kept pending : Sessions) : Prop :=
  ∀ (sessionId : Bytes32) p, kept[sessionId]? = some p → pending[sessionId]? = some p

/-- Everything a call can do: a first round is refused or opens a session, and a second one names an
unknown session or consumes the one it names. -/
inductive SignerStep (engine : SignerEngine env) (op : SignerOp) :
    SignerOutcome × SignerEngine env → Prop
  | refused {error kept} (hop : op.session = none) (hkept : KeptFrom kept engine.pending) :
      SignerStep engine op (.allocated (.error error), { engine with pending := kept })
  | opened {draw message sessionId} {kept : Sessions} (hop : op.session = none)
      (hdraw : op.draw = some draw) (hmessage : op.message env = .ok message)
      (hkept : KeptFrom kept engine.pending) (hnew : sessionId ∉ kept)
      (hsize : kept.size < engine.maxPending) :
      SignerStep engine op (.allocated (.ok ⟨sessionId, engine.identifier, draw.commitments⟩),
        { engine with pending := kept.insert sessionId (engine.opened op message draw) })
  | unknown {sessionId} (hop : op.session = some sessionId) (hdraw : op.draw = none)
      (hnone : engine.pending[sessionId]? = none) :
      SignerStep engine op (.answered (.error .session) none, engine)
  | consumed {sessionId p call} (hop : op.session = some sessionId) (hdraw : op.draw = none)
      (hp : engine.pending[sessionId]? = some p)
      (hcall : ∀ c, call = .ok c → ∃ message package, op.message env = .ok message ∧
        engine.signPending p message package op.now = .ok c) :
      SignerStep engine op
        (engine.outcome call, { engine with pending := engine.pending.erase sessionId })

lemma keptFrom_retain (engine : SignerEngine env) (now : UInt64) :
    KeptFrom (engine.retain now).pending engine.pending := by
  intro sessionId p h
  simp only [SignerEngine.retain, TreeMap.getElem?_filter', Option.filter_eq_some_iff] at h
  exact h.1

lemma signerStep_allocatePending (op : SignerOp) {kept : Sessions} {message : List UInt8}
    {draw : Draw} (hop : op.session = none) (hdraw : op.draw = some draw) (hmessage : op.message env = .ok message)
    (hkept : KeptFrom kept engine.pending) :
    SignerStep engine op ((({ engine with pending := kept } : SignerEngine env).allocatePending
      message op.expiresAt op.now draw).map .allocated id) := by
  have hretained : KeptFrom
      (({ engine with pending := kept } : SignerEngine env).retain op.now).pending engine.pending :=
    fun sessionId p h => hkept sessionId p (keptFrom_retain _ _ sessionId p h)
  simp only [SignerEngine.allocatePending, Prod.map]
  split_ifs with hfull
  · exact .refused hop hretained
  · cases hid : draw.sessionId with
    | none => exact .refused hop hretained
    | some sessionId =>
      dsimp only
      split_ifs with hbad
      · exact .refused hop hretained
      · exact .opened hop hdraw hmessage hretained (fun hmem => hbad (.inr hmem))
          (Nat.lt_of_not_le hfull)

lemma signerStep_answer {sessionId : Bytes32} {check : Pending → Except Error SignCall}
    (hop : op.session = some sessionId) (hdraw : op.draw = none)
    (hcheck : ∀ p c, check p = .ok c → ∃ message package, op.message env = .ok message ∧
      engine.signPending p message package op.now = .ok c) :
    SignerStep engine op ((engine.answer sessionId check).map engine.outcome id) := by
  simp only [SignerEngine.answer]
  cases hp : engine.pending[sessionId]? with
  | none => exact .unknown hop hdraw hp
  | some p => exact .consumed hop hdraw hp (hcheck p)

lemma signerStep_apply (engine : SignerEngine env) (op : SignerOp) :
    SignerStep engine op (engine.apply op) := by
  cases op with
  | round1 claims proof now draw =>
    simp only [SignerEngine.apply, SignerEngine.round1]
    split
    · exact .refused rfl (keptFrom_retain engine now)
    · exact signerStep_allocatePending (.round1 claims proof now draw) rfl rfl rfl
        (keptFrom_retain engine now)
  | round1Rotation old transition now draw =>
    simp only [SignerEngine.apply, SignerEngine.round1Rotation]
    split
    · exact .refused rfl fun _ _ h => h
    · rename_i message hmessage
      simp only [bind_eq_ok] at hmessage
      obtain ⟨_, -, hmessage⟩ := hmessage
      exact signerStep_allocatePending (.round1Rotation old transition now draw) rfl rfl
        hmessage fun _ _ h => h
  | round1Sudo policy authenticated request now draw =>
    simp only [SignerEngine.apply, SignerEngine.round1Sudo]
    split
    · exact .refused rfl fun _ _ h => h
    · rename_i message hmessage
      simp only [bind_eq_ok] at hmessage
      obtain ⟨_, -, _, -, _, -, _, -, hmessage⟩ := hmessage
      exact signerStep_allocatePending (.round1Sudo policy authenticated request now draw)
        rfl rfl hmessage fun _ _ h => h
  | round2 sessionId claims package now =>
    refine signerStep_answer rfl rfl fun p c hc => ?_
    simp only [bind_eq_ok] at hc
    obtain ⟨_, -, _, -, hc⟩ := hc
    exact ⟨_, package, rfl, hc⟩
  | round2Rotation sessionId old transition package now =>
    refine signerStep_answer rfl rfl fun p c hc => ?_
    simp only [bind_eq_ok] at hc
    obtain ⟨_, -, message, hmessage, hc⟩ := hc
    exact ⟨message, package, hmessage, hc⟩
  | round2Sudo policy authenticated request now =>
    refine signerStep_answer rfl rfl fun p c hc => ?_
    simp only [bind_eq_ok] at hc
    obtain ⟨_, -, _, -, _, -, _, -, message, hmessage, hc⟩ := hc
    exact ⟨message, request.signingPackage, hmessage, hc⟩

lemma signPending_eq_ok {p : Pending} {message : List UInt8} {package : SigningPackage} {now : UInt64}
    {c : SignCall} (h : engine.signPending p message package now = .ok c) :
    c.nonces = p.nonces ∧ p.message = message ∧ c.package.message = message ∧
      p.createdAt ≤ now ∧ now < p.expiresAt ∧
      engine.manifest.threshold.toNat ≤ c.package.signingCommitments.keys.card ∧
      c.package.signingCommitments.keys.card ≤ engine.manifest.members.length ∧
      (∀ id ∈ c.package.signingCommitments, ∃ member ∈ engine.manifest.members,
        Identifier.tryFrom member.identifier = some id) ∧
      c.package.signingCommitments.lookup engine.key.identifier = some p.commitments := by
  simp only [SignerEngine.signPending, bind_eq_ok, rejectIf_eq_ok, pure_eq_ok_iff, not_or,
    not_not, not_lt, ge_iff_le, gt_iff_lt] at h
  obtain ⟨_, ⟨hcreated, hexpires⟩, keys, hkeys, _, ⟨hmessage, hpackage, hmin, hmax, hall, hown⟩, rfl⟩ := h
  refine ⟨rfl, hmessage, hpackage, UInt64.not_lt.mp hcreated, UInt64.not_le.mp hexpires, hmin, hmax, ?_, hown⟩
  intro id hid
  exact (Manifest.mem_verifyingShares_iff engine.manifest_valid hkeys id).mp
    (hall id (Finmap.mem_keys.mpr hid))

end Steps

/-! ## Runs -/

def draws (ops : List SignerOp) : List SigningNonces :=
  ops.filterMap fun op => op.draw.map Draw.nonces

def signed (history : List (SignerOp × SignerOutcome)) : List SigningNonces :=
  history.filterMap fun
    | (_, .answered _ (some call)) => some call.nonces
    | _ => none

/-- What an engine has pending after a history: sessions as they were opened, whose nonces are all
different and have not been used to sign. -/
structure SignerInv {env : Primitives} (start : SignerEngine env)
    (history : List (SignerOp × SignerOutcome)) (engine : SignerEngine env) : Prop where
  manifest : engine.manifest = start.manifest
  key : engine.key = start.key
  maxPending : engine.maxPending = start.maxPending
  pendingTtlSecs : engine.pendingTtlSecs = start.pendingTtlSecs
  size : engine.pending.size ≤ engine.maxPending
  openedBy : ∀ (sessionId : Bytes32) p, engine.pending[sessionId]? = some p →
    ∃ op ∈ history.map Prod.fst, ∃ draw message, op.draw = some draw ∧
      op.message env = .ok message ∧ p = engine.opened op message draw
  distinct : ∀ (sessionId sessionId' : Bytes32) p p', engine.pending[sessionId]? = some p →
    engine.pending[sessionId']? = some p' → p.nonces = p'.nonces → sessionId = sessionId'
  unsigned : ∀ (sessionId : Bytes32) p, engine.pending[sessionId]? = some p →
    p.nonces ∉ signed history
  drawn : ∀ nonces ∈ signed history, nonces ∈ draws (history.map Prod.fst)
  nodup : (signed history).Nodup

section Runs

variable {env : Primitives} {start engine : SignerEngine env} {op : SignerOp}
  {history : List (SignerOp × SignerOutcome)} {outcome : SignerOutcome}

lemma signerInv_start (hempty : engine.pending = ∅) : SignerInv engine [] engine := by
  have hnone : ∀ (sessionId : Bytes32) p, engine.pending[sessionId]? ≠ some p := by
    intro sessionId p h
    simp [hempty] at h
  refine ⟨rfl, rfl, rfl, rfl, by simp [hempty], ?_, ?_, ?_, ?_, nodup_nil⟩
  · exact fun sessionId p h => absurd h (hnone sessionId p)
  · exact fun sessionId _ p _ h => absurd h (hnone sessionId p)
  · exact fun sessionId p h => absurd h (hnone sessionId p)
  · exact fun nonces h => absurd h not_mem_nil

lemma mem_draws_of_openedBy {p : Pending} {ops : List SignerOp}
    (h : ∃ op ∈ ops, ∃ draw message, op.draw = some draw ∧
      op.message env = .ok message ∧ p = engine.opened op message draw) : p.nonces ∈ draws ops := by
  obtain ⟨op, hop, draw, message, hdraw, -, rfl⟩ := h
  refine mem_filterMap.mpr ⟨op, hop, ?_⟩
  rw [hdraw]
  rfl

lemma signed_append_singleton (history : List (SignerOp × SignerOutcome)) (e : SignerOp × SignerOutcome) :
    signed (history ++ [e]) = signed history ++ signed [e] := filterMap_append

lemma draws_append_singleton (ops : List SignerOp) (op : SignerOp) :
    draws (ops ++ [op]) = draws ops ++ draws [op] := filterMap_append

section

variable (h : SignerInv start history engine)
include h

lemma SignerInv.kept {kept : Sessions}
    (hkept : KeptFrom kept engine.pending) (hunsigned : signed [(op, outcome)] = []) :
    SignerInv start (history ++ [(op, outcome)]) { engine with pending := kept } := by
  have hsize : kept.size ≤ engine.pending.size := by
    refine size_le fun sessionId hmem => ?_
    obtain ⟨p, hp⟩ := OrderedMap.mem_iff_exists.mp hmem
    rw [TreeMap.mem_iff_isSome_getElem?, hkept sessionId p hp]
    rfl
  refine ⟨h.manifest, h.key, h.maxPending, h.pendingTtlSecs, hsize.trans h.size, ?_, ?_, ?_, ?_, ?_⟩
  · intro sessionId p hp
    obtain ⟨op', hop', hopened⟩ := h.openedBy sessionId p (hkept sessionId p hp)
    refine ⟨op', ?_, hopened⟩
    rw [map_append]
    exact mem_append_left _ hop'
  · exact fun sessionId sessionId' p p' hp hp' =>
      h.distinct sessionId sessionId' p p' (hkept _ p hp) (hkept _ p' hp')
  · intro sessionId p hp
    rw [signed_append_singleton, hunsigned, append_nil]
    exact h.unsigned sessionId p (hkept sessionId p hp)
  · intro nonces hnonces
    rw [signed_append_singleton, hunsigned, append_nil] at hnonces
    rw [map_append]
    exact ((sublist_append_left _ _).filterMap _).subset (h.drawn nonces hnonces)
  · rw [signed_append_singleton, hunsigned, append_nil]
    exact h.nodup

lemma SignerInv.allocate {kept : Sessions} {sessionId : Bytes32} {draw : Draw} {message : List UInt8}
    (hfresh : (draws (history.map Prod.fst ++ [op])).Nodup)
    (hdraw : op.draw = some draw) (hmessage : op.message env = .ok message)
    (hkept : KeptFrom kept engine.pending) (hsize : kept.size < engine.maxPending)
    (hunsigned : signed [(op, outcome)] = []) :
    SignerInv start (history ++ [(op, outcome)])
      { engine with pending := kept.insert sessionId (engine.opened op message draw) } := by
  have hrest := h.kept hkept hunsigned
  have hnew : draw.nonces ∉ draws (history.map Prod.fst) := by
    rw [draws_append_singleton, nodup_append] at hfresh
    intro hmem
    exact hfresh.2.2 _ hmem draw.nonces (by simp [draws, hdraw]) rfl
  have hold : ∀ (sessionId' : Bytes32) p, kept[sessionId']? = some p → p.nonces ≠ draw.nonces := by
    rintro sessionId' p hp heq
    exact hnew (heq ▸ mem_draws_of_openedBy (h.openedBy sessionId' p (hkept sessionId' p hp)))
  have hlookup : ∀ (sessionId' : Bytes32) p,
      (kept.insert sessionId (engine.opened op message draw))[sessionId']? = some p →
      (sessionId = sessionId' ∧ p = engine.opened op message draw) ∨ kept[sessionId']? = some p := by
    intro sessionId' p hp
    by_cases hid : sessionId = sessionId'
    · subst hid
      rw [TreeMap.getElem?_insert_self] at hp
      exact .inl ⟨rfl, (Option.some.inj hp).symm⟩
    · rw [getElem?_insert_ne hid] at hp
      exact .inr hp
  refine ⟨h.manifest, h.key, h.maxPending, h.pendingTtlSecs,
    TreeMap.size_insert_le.trans hsize, ?_, ?_, ?_, hrest.drawn, hrest.nodup⟩
  · intro sessionId' p hp
    obtain ⟨-, rfl⟩ | hp := hlookup sessionId' p hp
    · exact ⟨op, by simp, draw, message, hdraw, hmessage, rfl⟩
    · exact hrest.openedBy sessionId' p hp
  · intro id₁ id₂ p₁ p₂ hp₁ hp₂ heq
    obtain ⟨rfl, rfl⟩ | hp₁ := hlookup id₁ p₁ hp₁
    · obtain ⟨rfl, -⟩ | hp₂ := hlookup id₂ p₂ hp₂
      · rfl
      · exact absurd heq.symm (hold id₂ p₂ hp₂)
    · obtain ⟨rfl, rfl⟩ | hp₂ := hlookup id₂ p₂ hp₂
      · exact absurd heq (hold id₁ p₁ hp₁)
      · exact hrest.distinct id₁ id₂ p₁ p₂ hp₁ hp₂ heq
  · intro sessionId' p hp
    obtain ⟨-, rfl⟩ | hp := hlookup sessionId' p hp
    · rw [signed_append_singleton, hunsigned, append_nil]
      exact fun hmem => hnew (h.drawn _ hmem)
    · exact hrest.unsigned sessionId' p hp

lemma SignerInv.consume {sessionId : Bytes32} {p : Pending} (hp : engine.pending[sessionId]? = some p)
    (hsigned : signed [(op, outcome)] = [] ∨ signed [(op, outcome)] = [p.nonces]) :
    SignerInv start (history ++ [(op, outcome)])
      { engine with pending := engine.pending.erase sessionId } := by
  have hlookup : ∀ (sessionId' : Bytes32) p', (engine.pending.erase sessionId)[sessionId']? = some p' →
      sessionId ≠ sessionId' ∧ engine.pending[sessionId']? = some p' := by
    intro sessionId' p' hp'
    rw [TreeMap.getElem?_erase] at hp'
    split_ifs at hp' with heq
    refine ⟨?_, hp'⟩
    rintro rfl
    exact heq Std.ReflCmp.compare_self
  obtain hnone | hone := hsigned
  · exact h.kept (fun sessionId' p' hp' => (hlookup sessionId' p' hp').2) hnone
  · refine ⟨h.manifest, h.key, h.maxPending, h.pendingTtlSecs,
      TreeMap.size_erase_le.trans h.size, ?_, ?_, ?_, ?_, ?_⟩
    · intro sessionId' p' hp'
      obtain ⟨op', hop', hopened⟩ := h.openedBy sessionId' p' (hlookup sessionId' p' hp').2
      exact ⟨op', by simp [hop'], hopened⟩
    · exact fun id₁ id₂ p₁ p₂ hp₁ hp₂ =>
        h.distinct id₁ id₂ p₁ p₂ (hlookup id₁ p₁ hp₁).2 (hlookup id₂ p₂ hp₂).2
    · intro sessionId' p' hp'
      obtain ⟨hne, hp'⟩ := hlookup sessionId' p' hp'
      rw [signed_append_singleton, hone, mem_append, mem_singleton, not_or]
      exact ⟨h.unsigned sessionId' p' hp',
        fun heq => hne (h.distinct sessionId sessionId' p p' hp hp' heq.symm)⟩
    · intro nonces hnonces
      rw [signed_append_singleton, hone, mem_append, mem_singleton] at hnonces
      rw [map_append]
      refine ((sublist_append_left _ _).filterMap _).subset ?_
      obtain hold | rfl := hnonces
      · exact h.drawn nonces hold
      · exact mem_draws_of_openedBy (h.openedBy sessionId p hp)
    · rw [signed_append_singleton, hone, nodup_append]
      refine ⟨h.nodup, nodup_singleton _, ?_⟩
      rintro a ha b hb rfl
      obtain rfl := mem_singleton.mp hb
      exact h.unsigned sessionId p hp ha

lemma signerInv_apply (hfresh : (draws (history.map Prod.fst ++ [op])).Nodup) :
    SignerInv start (history ++ [(op, (engine.apply op).1)]) (engine.apply op).2 := by
  have hstep := signerStep_apply engine op
  generalize engine.apply op = result at hstep ⊢
  cases hstep with
  | refused _ hkept => exact h.kept hkept rfl
  | opened _ hdraw hmessage hkept _ hsize => exact h.allocate hfresh hdraw hmessage hkept hsize rfl
  | unknown _ _ _ => exact h.kept (fun _ _ hp => hp) rfl
  | @consumed sessionId p call _ _ hp hcall =>
    refine h.consume hp ?_
    cases call with
    | error error => exact .inl rfl
    | ok c =>
      obtain ⟨message, package, -, hsign⟩ := hcall c rfl
      right
      show [c.nonces] = [p.nonces]
      rw [(signPending_eq_ok hsign).1]

end

lemma signerInv_run (ops : List SignerOp) (hempty : start.pending = ∅) (hfresh : (draws ops).Nodup) :
    SignerInv start (trace SignerEngine.apply start ops) (exec SignerEngine.apply start ops) := by
  induction ops using List.reverseRecOn with
  | nil => exact signerInv_start hempty
  | append_singleton ops op ih =>
    have hbefore : (draws ops).Nodup := by
      rw [draws_append_singleton] at hfresh
      exact (nodup_append.mp hfresh).1
    rw [trace_append, exec_append]
    refine signerInv_apply (ih hbefore) ?_
    rw [map_fst_trace]
    exact hfresh

lemma session_consumed {sessionId : Bytes32} (hop : op.session = some sessionId) :
    sessionId ∉ (engine.apply op).2.pending := by
  have hstep := signerStep_apply engine op
  generalize engine.apply op = result at hstep ⊢
  cases hstep with
  | refused hnone _ => rw [hop] at hnone; cases hnone
  | opened hnone _ _ _ _ _ => rw [hop] at hnone; cases hnone
  | unknown hsome _ hmissing =>
    obtain rfl := Option.some.inj (hop.symm.trans hsome)
    rw [TreeMap.mem_iff_isSome_getElem?, hmissing]
    simp
  | consumed hsome _ _ _ =>
    obtain rfl := Option.some.inj (hop.symm.trans hsome)
    simp

lemma le_saturatingAdd (a b : UInt64) : (saturatingAdd a b).toNat ≤ a.toNat + b.toNat := by
  unfold saturatingAdd
  split_ifs with hlt
  · rw [UInt64.toNat_add]
    exact Nat.mod_le _ _
  · rw [UInt64.toNat_ofNat_of_lt' (by norm_num)]
    omega

lemma SignerEngine.pending_new {manifest : Manifest} {nodeId : String} {key : KeyPackage}
    {maxPending : ℕ} {ttl : UInt64}
    (h : SignerEngine.new manifest nodeId key maxPending ttl = .ok engine) : engine.pending = ∅ := by
  unfold SignerEngine.new at h
  split at h
  · cases h
  · simp only [bind_eq_ok, pure_eq_ok_iff] at h
    obtain ⟨_, -, _, -, _, -, _, -, _, -, rfl⟩ := h
    rfl

end Runs

/-- No pair of nonces signs twice.  In every run of an engine whose draws are fresh, the nonces given to
`frost::round2::sign` are all different, and each was drawn by an earlier first round for the very bytes
that are signed, within the lifetime of its session and with the commitments of a quorum. -/
theorem signer_nonces_single_use {env : Primitives} (engine : SignerEngine env)
    (hempty : engine.pending = ∅) (ops : List SignerOp) (hfresh : (draws ops).Nodup) :
    let state := Runs.exec SignerEngine.apply engine
    (signed (Runs.trace SignerEngine.apply engine ops)).Nodup ∧
    (∀ before op after share call, ops = before ++ op :: after →
      ((state before).apply op).1 = .answered share (some call) →
      ∃ first ∈ before, ∃ draw message, first.draw = some draw ∧ draw.nonces = call.nonces ∧
        first.message env = .ok message ∧ op.message env = .ok message ∧
        call.package.message = message ∧ first.now ≤ op.now ∧
        op.now.toNat < min (first.now.toNat + engine.pendingTtlSecs.toNat) first.expiresAt.toNat ∧
        call.package.signingCommitments.lookup engine.key.identifier = some draw.commitments ∧
        engine.manifest.threshold.toNat ≤ call.package.signingCommitments.keys.card ∧
        call.package.signingCommitments.keys.card ≤ engine.manifest.members.length ∧
        ∀ id ∈ call.package.signingCommitments, ∃ member ∈ engine.manifest.members,
          Identifier.tryFrom member.identifier = some id) ∧
    (∀ before op after sessionId, ops = before ++ op :: after → op.session = some sessionId →
      sessionId ∉ ((state before).apply op).2.pending) ∧
    (∀ before after, ops = before ++ after → (state before).pending.size ≤ engine.maxPending) := by
  intro state
  have hbefore : ∀ before after, ops = before ++ after →
      SignerInv engine (trace SignerEngine.apply engine before) (state before) := by
    rintro before after rfl
    refine signerInv_run before hempty ?_
    exact hfresh.sublist ((List.sublist_append_left before after).filterMap _)
  refine ⟨(signerInv_run ops hempty hfresh).nodup, ?_, ?_, ?_⟩
  · intro before op after share call hops hanswer
    have hinv := hbefore before _ hops
    have hstep := signerStep_apply (state before) op
    generalize (state before).apply op = result at hstep hanswer
    cases hstep with
    | refused | opened | unknown => cases hanswer
    | @consumed sessionId p result hop _ hp hcall =>
      cases result with
      | error error => cases hanswer
      | ok c =>
        obtain rfl : c = call := by
          simp only [SignerEngine.outcome, SignerOutcome.answered.injEq] at hanswer
          exact Option.some.inj hanswer.2
        obtain ⟨message, package, hmessage, hsign⟩ := hcall c rfl
        obtain ⟨hnonces, hpmessage, hpackage, hcreated, hexpires, hmin, hmax, hmembers, hown⟩ :=
          signPending_eq_ok hsign
        obtain ⟨first, hfirst, draw, message', hdraw, hmessage', rfl⟩ :=
          hinv.openedBy sessionId p hp
        rw [map_fst_trace] at hfirst
        obtain rfl : message' = message := hpmessage
        rw [hinv.manifest] at hmin hmax hmembers
        rw [hinv.key] at hown
        refine ⟨first, hfirst, draw, message', hdraw, hnonces.symm, hmessage', hmessage, hpackage,
          hcreated, ?_, hown, hmin, hmax, hmembers⟩
        have hlt := UInt64.lt_iff_toNat_lt.mp hexpires
        have hadd := le_saturatingAdd first.now (state before).pendingTtlSecs
        simp only [SignerEngine.opened, UInt64.toNat_min] at hlt
        rw [hinv.pendingTtlSecs] at hadd hlt
        omega
  · intro before op after sessionId _ hop
    exact session_consumed hop
  · intro before after hops
    have hinv := hbefore before after hops
    exact hinv.maxPending ▸ hinv.size

namespace SampleQuorum

def signerKey : KeyPackage where
  identifier := one
  signingShare := zero32
  verifyingShare := zero32
  verifyingKey := Vector.replicate 32 1
  minSigners := 2

def signer : Except Error (SignerEngine env) := SignerEngine.new (manifest 1 1) "n1" signerKey 1 30

def claims : CapabilityClaims where
  schemaVersion := 1
  clusterId := "lab"
  epoch := 1
  manifestDigest := ((manifest 1 1).digest env).toOption.getD ""
  method := "PUT"
  path := "/v1/admin/policy"
  bodySha256 := zero32
  requesterPublicKey := Vector.replicate 32 5
  requestId := Vector.replicate 32 9
  issuedAt := 100
  expiresAt := 200

def commitments (tag : UInt8) : SigningCommitments :=
  ⟨Vector.replicate 32 tag, Vector.replicate 32 tag⟩

def draw : Draw where
  sessionId := some (Vector.replicate 32 3)
  nonces := ⟨Vector.replicate 32 1, Vector.replicate 32 2⟩
  commitments := commitments 4

def package : SigningPackage where
  signingCommitments := (Finmap.singleton one (commitments 4)).insert two (commitments 6)
  message := claims.signingBytes

def signerOps : List SignerOp :=
  [.round1 claims ⟨List.replicate 32 5⟩ 110 draw, .round2 (Vector.replicate 32 3) claims package 120,
    .round2 (Vector.replicate 32 3) claims package 121]

theorem signer_nonces_single_use_sample :
    ∃ engine, signer = .ok engine ∧
      (signed (Runs.trace SignerEngine.apply engine signerOps)).Nodup ∧
      (signed (Runs.trace SignerEngine.apply engine signerOps)).length = 1 := by
  have hsome : (signer.toOption.any fun engine =>
      (signed (trace SignerEngine.apply engine signerOps)).length = 1) = true := by
    decide +kernel
  cases hsigner : signer with
  | error error =>
    rw [hsigner] at hsome
    cases hsome
  | ok engine =>
    rw [hsigner] at hsome
    exact ⟨engine, rfl, (signer_nonces_single_use engine (SignerEngine.pending_new hsigner)
      signerOps (by decide +kernel)).1, of_decide_eq_true hsome⟩

end SampleQuorum

end Quorum

end HeteroNetwork
