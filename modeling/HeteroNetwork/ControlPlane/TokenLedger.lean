import HeteroNetwork.Lib.OrderedMap
import HeteroNetwork.Lib.Runs
import HeteroNetwork.Relay.MultiHop
import HeteroNetwork.ControlPlane.Errors

/-!
# The ledger of join tokens

`InMemoryTokenLedger` keeps two maps under one joined key: the token as it was first seen, with the number
of its uses, and the revocation of its nonce, which may arrive first.  Whichever call touches the token
next merges the two.
-/

namespace HeteroNetwork

open Std (TreeMap)

open Checked OrderedMap Runs List

/-! ## Tokens -/

inductive BootstrapEndpointKind where
  | controlPlane
  | signal
  | stun
  | relay
  | webUi
deriving DecidableEq

structure BootstrapEndpoint where
  url : String
  kind : BootstrapEndpointKind
deriving DecidableEq

structure TokenPolicy where
  allowJoin : Bool
  allowRelay : Bool
  allowedRoutes : List IpNet
  allowedTags : Finset Tag
  maxTokenUses : Option UInt32
deriving DecidableEq

structure JoinTokenClaims where
  clusterId : ClusterId
  bootstrapEndpoints : List BootstrapEndpoint
  expiresAt : Timestamp
  notBefore : Timestamp
  role : Role
  tags : Finset Tag
  issuer : NodeId
  keyId : KeyId
  policy : TokenPolicy
  nonce : String
deriving DecidableEq

def maxJoinTokenClaimIdentifierBytes : ℕ := 255

def validateJoinTokenClaimIdentifier (value label : String) : Except String Unit := do
  rejectIf (value = "") s!"{label} cannot be empty"
  rejectIf ((utf8 value).length > maxJoinTokenClaimIdentifierBytes)
    s!"{label} exceeds {maxJoinTokenClaimIdentifierBytes} bytes"
  rejectIf (¬(utf8 value).all isNodeIdByte)
    s!"{label} must contain only ASCII letters, digits, '_', '.' or '-'"

/-- The checks of `JoinTokenClaims::validate_shape` on the identifiers of a token, which come before
all its others. -/
def JoinTokenClaims.validateIdentifiers (claims : JoinTokenClaims) : Except String Unit := do
  validateJoinTokenClaimIdentifier claims.clusterId.asStr "cluster ID"
  validateJoinTokenClaimIdentifier claims.issuer.asStr "issuer node ID"
  validateJoinTokenClaimIdentifier claims.keyId.asStr "issuer key ID"
  validateJoinTokenClaimIdentifier claims.role.asStr "role"
  validateJoinTokenClaimIdentifier claims.nonce "nonce"

structure TokenLedgerRecord where
  clusterId : ClusterId
  nonce : String
  tokenClaims : Option JoinTokenClaims
  issuer : NodeId
  keyId : KeyId
  role : Role
  tags : Finset Tag
  expiresAt : Timestamp
  maxUses : Option UInt32
  uses : UInt32
  revokedAt : Option Timestamp
  createdAt : Timestamp
deriving DecidableEq

structure TokenRevocationRecord where
  clusterId : ClusterId
  nonce : String
  issuer : NodeId
  keyId : KeyId
  revokedAt : Timestamp
deriving DecidableEq

structure TokenRevocationOutcome where
  revocation : TokenRevocationRecord
  record : Option TokenLedgerRecord
deriving DecidableEq

namespace TokenLedgerRecord

def fromClaims (claims : JoinTokenClaims) (createdAt : Timestamp) : TokenLedgerRecord where
  clusterId := claims.clusterId
  nonce := claims.nonce
  tokenClaims := some claims
  issuer := claims.issuer
  keyId := claims.keyId
  role := claims.role
  tags := claims.tags
  expiresAt := claims.expiresAt
  maxUses := claims.policy.maxTokenUses
  uses := 0
  revokedAt := none
  createdAt := createdAt

def status (record : TokenLedgerRecord) (now : Timestamp) : TokenStatus :=
  if record.revokedAt.isSome then .revoked
  else if record.expiresAt ≤ now then .expired
  else if record.maxUses.any (· ≤ record.uses) then .exhausted
  else .active

def hasSameDefinition (record other : TokenLedgerRecord) : Bool :=
  record.clusterId = other.clusterId && record.nonce = other.nonce &&
    record.issuer = other.issuer && record.keyId = other.keyId && record.role = other.role &&
    record.tags = other.tags && record.expiresAt = other.expiresAt &&
    record.maxUses = other.maxUses &&
    match record.tokenClaims, other.tokenClaims with
    | some stored, some requested => stored = requested
    | _, _ => true

def withRevocation (record : TokenLedgerRecord) : Option TokenRevocationRecord → TokenLedgerRecord
  | some revocation => { record with revokedAt := some revocation.revokedAt }
  | none => record

end TokenLedgerRecord

/-! ## The ledger -/

structure InMemoryTokenLedger where
  tokens : TreeMap String TokenLedgerRecord
  revocations : TreeMap String TokenRevocationRecord

def tokenKey (clusterId : ClusterId) (nonce : String) : String := clusterId.asStr ++ ":" ++ nonce

@[irreducible] def ensureTokenDefinitionMatches (stored requested : TokenLedgerRecord) :
    Except ControlPlaneError Unit :=
  rejectIf (stored.hasSameDefinition requested = false)
    (.tokenVerification
      s!"token nonce {requested.nonce} conflicts with its durable definition")

def saturatingSucc (n : UInt32) : UInt32 := if n.toNat + 1 < 2 ^ 32 then n + 1 else n

namespace InMemoryTokenLedger

def empty : InMemoryTokenLedger := ⟨∅, ∅⟩

/-- `insert_token_if_absent`: the record under the token's key, which is the given one when there is
none yet, with a revocation that is already known. -/
def insertTokenIfAbsent (state : InMemoryTokenLedger) (record : TokenLedgerRecord) :
    Except ControlPlaneError TokenLedgerRecord × InMemoryTokenLedger :=
  let key := tokenKey record.clusterId record.nonce
  let stored := state.tokens[key]?.getD record
  match ensureTokenDefinitionMatches stored record with
  | .error error => (.error error, { state with tokens := state.tokens.insert key stored })
  | .ok () =>
    let stored := stored.withRevocation state.revocations[key]?
    (.ok stored, { state with tokens := state.tokens.insert key stored })

/-- `admit_token`, which begins as `insert_token_if_absent` does. -/
def admitToken (state : InMemoryTokenLedger) (record : TokenLedgerRecord) (now : Timestamp) :
    Except ControlPlaneError TokenLedgerRecord × InMemoryTokenLedger :=
  match state.insertTokenIfAbsent record with
  | (.error error, state) => (.error error, state)
  | (.ok stored, state) =>
    if stored.status now ≠ .active then
      (.error (.tokenRejected record.nonce (stored.status now)), state)
    else
      let stored := { stored with uses := saturatingSucc stored.uses }
      (.ok stored,
        { state with tokens := state.tokens.insert (tokenKey record.clusterId record.nonce) stored })

def revokeToken (state : InMemoryTokenLedger) (revocation : TokenRevocationRecord) :
    TokenRevocationOutcome × InMemoryTokenLedger :=
  let key := tokenKey revocation.clusterId revocation.nonce
  let stored := state.revocations[key]?.getD revocation
  let state := { state with revocations := state.revocations.insert key stored }
  match state.tokens[key]? with
  | none => ({ revocation := stored, record := none }, state)
  | some record =>
    let record := record.withRevocation (some stored)
    ({ revocation := stored, record := some record },
      { state with tokens := state.tokens.insert key record })

end InMemoryTokenLedger

/-! ## Calls -/

inductive TokenOp where
  | insert (claims : JoinTokenClaims) (createdAt : Timestamp)
  | admission (claims : JoinTokenClaims) (createdAt now : Timestamp)
  | revoke (revocation : TokenRevocationRecord)

inductive TokenOutcome where
  | record (result : Except ControlPlaneError TokenLedgerRecord)
  | revocation (outcome : TokenRevocationOutcome)

def InMemoryTokenLedger.apply (state : InMemoryTokenLedger) :
    TokenOp → TokenOutcome × InMemoryTokenLedger
  | .insert claims createdAt =>
    (state.insertTokenIfAbsent (.fromClaims claims createdAt)).map .record id
  | .admission claims createdAt now =>
    (state.admitToken (.fromClaims claims createdAt) now).map .record id
  | .revoke revocation => (state.revokeToken revocation).map .revocation id

namespace TokenOp

def clusterId : TokenOp → ClusterId
  | insert claims _ => claims.clusterId
  | admission claims _ _ => claims.clusterId
  | revoke revocation => revocation.clusterId

def nonce : TokenOp → String
  | insert claims _ => claims.nonce
  | admission claims _ _ => claims.nonce
  | revoke revocation => revocation.nonce

def key (op : TokenOp) : String := tokenKey op.clusterId op.nonce

def names (clusterId : ClusterId) (nonce : String) (op : TokenOp) : Bool :=
  op.clusterId = clusterId && op.nonce = nonce

end TokenOp

/-! ## One token

What the ledger holds under one key, as a machine of its own. -/

structure TokenSlot where
  token : Option TokenLedgerRecord
  revocation : Option TokenRevocationRecord

namespace TokenSlot

def empty : TokenSlot := ⟨none, none⟩

def insert (slot : TokenSlot) (record : TokenLedgerRecord) :
    Except ControlPlaneError TokenLedgerRecord × TokenSlot :=
  let stored := slot.token.getD record
  match ensureTokenDefinitionMatches stored record with
  | .error error => (.error error, { slot with token := some stored })
  | .ok () =>
    let stored := stored.withRevocation slot.revocation
    (.ok stored, { slot with token := some stored })

def admitAt (slot : TokenSlot) (record : TokenLedgerRecord) (now : Timestamp) :
    Except ControlPlaneError TokenLedgerRecord × TokenSlot :=
  match slot.insert record with
  | (.error error, slot) => (.error error, slot)
  | (.ok stored, slot) =>
    if stored.status now ≠ .active then
      (.error (.tokenRejected record.nonce (stored.status now)), slot)
    else
      let stored := { stored with uses := saturatingSucc stored.uses }
      (.ok stored, { slot with token := some stored })

def revoke (slot : TokenSlot) (revocation : TokenRevocationRecord) :
    TokenRevocationOutcome × TokenSlot :=
  let stored := slot.revocation.getD revocation
  let token := slot.token.map (·.withRevocation (some stored))
  ({ revocation := stored, record := token }, { token, revocation := some stored })

def apply (slot : TokenSlot) : TokenOp → TokenOutcome × TokenSlot
  | .insert claims createdAt => (slot.insert (.fromClaims claims createdAt)).map .record id
  | .admission claims createdAt now => (slot.admitAt (.fromClaims claims createdAt) now).map .record id
  | .revoke revocation => (slot.revoke revocation).map .revocation id

end TokenSlot

def InMemoryTokenLedger.slot (key : String) (state : InMemoryTokenLedger) : TokenSlot :=
  ⟨state.tokens[key]?, state.revocations[key]?⟩

@[simp] lemma slot_empty (key : String) : InMemoryTokenLedger.empty.slot key = .empty := by
  simp [InMemoryTokenLedger.slot, InMemoryTokenLedger.empty, TokenSlot.empty]

section Slots

variable {state : InMemoryTokenLedger} {record : TokenLedgerRecord} {key : String}
  {now : Timestamp} {cluster : ClusterId} {nonce : String}

variable (state record) in
lemma insertTokenIfAbsent_slot :
    (state.slot (tokenKey record.clusterId record.nonce)).insert record =
      ((state.insertTokenIfAbsent record).1,
        (state.insertTokenIfAbsent record).2.slot (tokenKey record.clusterId record.nonce)) := by
  simp only [TokenSlot.insert, InMemoryTokenLedger.insertTokenIfAbsent, InMemoryTokenLedger.slot]
  cases ensureTokenDefinitionMatches
      (state.tokens[tokenKey record.clusterId record.nonce]?.getD record) record with
  | error error => simp only [TreeMap.getElem?_insert_self]
  | ok _ => simp only [TreeMap.getElem?_insert_self]

lemma insertTokenIfAbsent_other (hkey : tokenKey record.clusterId record.nonce ≠ key) :
    (state.insertTokenIfAbsent record).2.slot key = state.slot key := by
  simp only [InMemoryTokenLedger.insertTokenIfAbsent, InMemoryTokenLedger.slot]
  cases ensureTokenDefinitionMatches
      (state.tokens[tokenKey record.clusterId record.nonce]?.getD record) record with
  | error error => simp only [getElem?_insert_ne hkey]
  | ok _ => simp only [getElem?_insert_ne hkey]

variable (state record now) in
lemma admitToken_slot :
    (state.slot (tokenKey record.clusterId record.nonce)).admitAt record now =
      ((state.admitToken record now).1,
        (state.admitToken record now).2.slot (tokenKey record.clusterId record.nonce)) := by
  simp only [TokenSlot.admitAt, InMemoryTokenLedger.admitToken, insertTokenIfAbsent_slot]
  rcases state.insertTokenIfAbsent record with ⟨error | stored, state'⟩
  · rfl
  · by_cases hactive : stored.status now = .active
    · simp only [hactive, ne_eq, not_true_eq_false, if_false, InMemoryTokenLedger.slot,
        TreeMap.getElem?_insert_self]
    · simp only [hactive, ne_eq, not_false_eq_true, if_true]

lemma admitToken_other (hkey : tokenKey record.clusterId record.nonce ≠ key) :
    (state.admitToken record now).2.slot key = state.slot key := by
  have hinsert : (state.insertTokenIfAbsent record).2.slot key = state.slot key :=
    insertTokenIfAbsent_other hkey
  rw [← hinsert]
  simp only [InMemoryTokenLedger.admitToken]
  rcases state.insertTokenIfAbsent record with ⟨error | stored, state'⟩
  · rfl
  · by_cases hactive : stored.status now = .active
    · simp only [hactive, ne_eq, not_true_eq_false, if_false, InMemoryTokenLedger.slot,
        getElem?_insert_ne hkey]
    · simp only [hactive, ne_eq, not_false_eq_true, if_true]

variable (state) in
lemma revokeToken_slot (revocation : TokenRevocationRecord) :
    (state.slot (tokenKey revocation.clusterId revocation.nonce)).revoke revocation =
      ((state.revokeToken revocation).1,
        (state.revokeToken revocation).2.slot (tokenKey revocation.clusterId revocation.nonce)) := by
  simp only [TokenSlot.revoke, InMemoryTokenLedger.revokeToken, InMemoryTokenLedger.slot]
  cases hstored : state.tokens[tokenKey revocation.clusterId revocation.nonce]? with
  | none => simp only [hstored, Option.map_none, TreeMap.getElem?_insert_self]
  | some record => simp only [Option.map_some, TreeMap.getElem?_insert_self]

lemma revokeToken_other {revocation : TokenRevocationRecord}
    (hkey : tokenKey revocation.clusterId revocation.nonce ≠ key) :
    (state.revokeToken revocation).2.slot key = state.slot key := by
  simp only [InMemoryTokenLedger.revokeToken, InMemoryTokenLedger.slot]
  cases state.tokens[tokenKey revocation.clusterId revocation.nonce]? with
  | none | some => simp only [getElem?_insert_ne hkey]

lemma slot_follows (key : String) :
    Follows InMemoryTokenLedger.apply TokenSlot.apply (InMemoryTokenLedger.slot key)
      (fun op => op.key = key) := by
  constructor
  · intro state op hop
    obtain rfl : op.key = key := of_decide_eq_true hop
    cases op with (simp only [TokenSlot.apply, InMemoryTokenLedger.apply, TokenOp.key, TokenOp.clusterId,
      TokenOp.nonce])
    | insert claims createdAt =>
      have hslot := insertTokenIfAbsent_slot state (.fromClaims claims createdAt)
      exact congrArg (Prod.map TokenOutcome.record id) hslot
    | admission claims createdAt now =>
      have hslot := admitToken_slot state (.fromClaims claims createdAt) now
      exact congrArg (Prod.map TokenOutcome.record id) hslot
    | revoke revocation =>
      have hslot := revokeToken_slot state revocation
      exact congrArg (Prod.map TokenOutcome.revocation id) hslot
  · intro state op hop
    have hne : op.key ≠ key := of_decide_eq_false hop
    cases op with
    | insert claims createdAt => exact insertTokenIfAbsent_other hne
    | admission claims createdAt now => exact admitToken_other hne
    | revoke revocation => exact revokeToken_other hne

end Slots

/-! ## What the ledger has answered -/

def definitions (history : List (TokenOp × TokenOutcome)) : List JoinTokenClaims :=
  history.filterMap fun
    | (.insert claims _, .record (.ok _)) => some claims
    | (.admission claims _ _, .record (.ok _)) => some claims
    | _ => none

def admits (history : List (TokenOp × TokenOutcome)) : ℕ :=
  history.countP fun
    | (.admission _ _ _, .record (.ok _)) => true
    | _ => false

def firstRevocation (history : List (TokenOp × TokenOutcome)) : Option TokenRevocationRecord :=
  history.findSome? fun
    | (.revoke revocation, _) => some revocation
    | _ => none

/-- The stored record stands for `claims` and for all that the ledger has granted. -/
structure Tracks (history : List (TokenOp × TokenOutcome)) (claims : JoinTokenClaims)
    (revocation : Option TokenRevocationRecord) (record : TokenLedgerRecord) : Prop where
  tokenClaims : record.tokenClaims = some claims
  expiresAt : record.expiresAt = claims.expiresAt
  maxUses : record.maxUses = claims.policy.maxTokenUses
  revokedAt : record.revokedAt = revocation.map (·.revokedAt)
  agreed : ∀ c ∈ definitions history, c = claims
  uses : ∀ max, record.maxUses = some max →
    record.uses.toNat = admits history ∧ admits history ≤ max.toNat

structure LedgerInv (history : List (TokenOp × TokenOutcome)) (slot : TokenSlot) : Prop where
  revocation : slot.revocation = firstRevocation history
  unseen : slot.token = none → definitions history = [] ∧ admits history = 0
  seen : ∀ record, slot.token = some record → ∃ claims, Tracks history claims slot.revocation record

section Steps

variable {history : List (TokenOp × TokenOutcome)} {slot : TokenSlot} {claims : JoinTokenClaims}
  {createdAt now : Timestamp} {revocation : TokenRevocationRecord}

lemma ledgerInv_empty : LedgerInv [] .empty :=
  ⟨rfl, fun _ => ⟨rfl, rfl⟩, fun _ h => by cases h⟩

lemma hasSameDefinition_self (record : TokenLedgerRecord) : record.hasSameDefinition record = true := by
  simp only [TokenLedgerRecord.hasSameDefinition, decide_true, Bool.true_and]
  cases record.tokenClaims <;> simp

lemma claims_eq_of_hasSameDefinition {stored requested : TokenLedgerRecord} {c c' : JoinTokenClaims}
    (h : stored.hasSameDefinition requested = true) (hstored : stored.tokenClaims = some c)
    (hrequested : requested.tokenClaims = some c') : c = c' := by
  simp only [TokenLedgerRecord.hasSameDefinition, hstored, hrequested, Bool.and_eq_true,
    decide_eq_true_eq] at h
  exact h.2

lemma LedgerInv.insert_cases (h : LedgerInv history slot) :
    (∃ error, slot.insert (.fromClaims claims createdAt) = (.error error, slot)) ∨
      ∃ stored, slot.insert (.fromClaims claims createdAt) =
          (.ok stored, { slot with token := some stored }) ∧
        Tracks history claims slot.revocation stored := by
  cases htoken : slot.token with
  | none =>
    -- the first sight of the token
    obtain ⟨hdefinitions, hadmits⟩ := h.unseen htoken
    right
    refine ⟨{ TokenLedgerRecord.fromClaims claims createdAt with
      revokedAt := slot.revocation.map (·.revokedAt) }, ?_, rfl, rfl, rfl, rfl, ?_, ?_⟩
    · have hmatches : ensureTokenDefinitionMatches (.fromClaims claims createdAt)
          (.fromClaims claims createdAt) = .ok () := by
        rw [ensureTokenDefinitionMatches, rejectIf_eq_ok, hasSameDefinition_self]
        decide
      simp only [TokenSlot.insert, htoken, Option.getD_none, hmatches]
      cases slot.revocation <;> rfl
    · simp [hdefinitions]
    · intro max _
      simp [hadmits, TokenLedgerRecord.fromClaims]
  | some record =>
    obtain ⟨c, htracks⟩ := h.seen record htoken
    simp only [TokenSlot.insert, htoken, Option.getD_some]
    cases hmatches : ensureTokenDefinitionMatches record (.fromClaims claims createdAt) with
    | error error =>
      left
      exact ⟨error, by rw [← htoken]⟩
    | ok _ =>
      right
      rw [ensureTokenDefinitionMatches, rejectIf_eq_ok, Bool.not_eq_false] at hmatches
      obtain rfl : c = claims := claims_eq_of_hasSameDefinition hmatches htracks.tokenClaims rfl
      have hrevokedAt := htracks.revokedAt
      cases hrevocation : slot.revocation with
      | none => exact ⟨record, rfl, hrevocation ▸ htracks⟩
      | some revocation =>
        rw [hrevocation] at hrevokedAt htracks
        have hsame : record.withRevocation (some revocation) = record := by
          rw [TokenLedgerRecord.withRevocation, ← Option.map_some, ← hrevokedAt]
        refine ⟨record, ?_, htracks⟩
        simp only [hsame]

variable (history' : List (TokenOp × TokenOutcome))

lemma definitions_append :
    definitions (history ++ history') = definitions history ++ definitions history' :=
  filterMap_append

lemma admits_append : admits (history ++ history') = admits history + admits history' :=
  countP_append

lemma firstRevocation_append :
    firstRevocation (history ++ history') = (firstRevocation history).or (firstRevocation history') :=
  findSome?_append

variable {record : TokenLedgerRecord}

lemma Tracks.append {history' : List (TokenOp × TokenOutcome)}
    {rev : Option TokenRevocationRecord} (h : Tracks history claims rev record)
    (hagreed : ∀ c ∈ definitions history', c = claims) (hadmits : admits history' = 0) :
    Tracks (history ++ history') claims rev record := by
  refine ⟨h.tokenClaims, h.expiresAt, h.maxUses, h.revokedAt, ?_, ?_⟩
  · intro c hc
    rw [definitions_append, mem_append] at hc
    exact hc.elim (h.agreed c) (hagreed c)
  · rw [admits_append, hadmits, Nat.add_zero]
    exact h.uses

lemma LedgerInv.refused {op : TokenOp} {error : ControlPlaneError} (h : LedgerInv history slot)
    (hop : firstRevocation [(op, .record (.error error))] = none) :
    LedgerInv (history ++ [(op, .record (.error error))]) slot := by
  have hdefinitions : definitions [(op, .record (.error error))] = [] := by
    cases op <;> rfl
  have hadmits : admits [(op, .record (.error error))] = 0 := by
    cases op <;> rfl
  refine ⟨?_, ?_, ?_⟩
  · rw [firstRevocation_append, hop, Option.or_none, h.revocation]
  · intro htoken
    obtain ⟨hnone, hzero⟩ := h.unseen htoken
    rw [definitions_append, admits_append, hnone, hzero, hdefinitions, hadmits]
    exact ⟨rfl, rfl⟩
  · intro record htoken
    obtain ⟨c, htracks⟩ := h.seen record htoken
    exact ⟨c, htracks.append (by simp [hdefinitions]) hadmits⟩

lemma ledgerInv_of_tracks {history' : List (TokenOp × TokenOutcome)} (h : LedgerInv history slot)
    (hrevocation : firstRevocation history' = none)
    (htracks : Tracks (history ++ history') claims slot.revocation record) :
    LedgerInv (history ++ history') { slot with token := some record } := by
  refine ⟨?_, ?_, ?_⟩
  · rw [firstRevocation_append, hrevocation, Option.or_none]
    exact h.revocation
  · rintro ⟨⟩
  · intro record' hrecord
    obtain rfl : record = record' := Option.some.inj hrecord
    exact ⟨claims, htracks⟩

lemma LedgerInv.insert (h : LedgerInv history slot) :
    LedgerInv (history ++ [(.insert claims createdAt,
        .record (slot.insert (.fromClaims claims createdAt)).1)])
      (slot.insert (.fromClaims claims createdAt)).2 := by
  obtain ⟨error, heq⟩ | ⟨stored, heq, htracks⟩ :
      (∃ error, slot.insert (.fromClaims claims createdAt) = (.error error, slot)) ∨ _ :=
    h.insert_cases
  · rw [heq]
    exact h.refused rfl
  · rw [heq]
    refine ledgerInv_of_tracks h rfl (htracks.append ?_ rfl)
    intro c hc
    exact mem_singleton.mp hc

lemma uses_lt_of_active {max : UInt32} (hactive : record.status now = .active)
    (hmax : record.maxUses = some max) : record.uses.toNat < max.toNat := by
  rw [TokenLedgerRecord.status] at hactive
  split_ifs at hactive with hrevoked hexpired hexhausted
  rw [hmax, Option.any_some, decide_eq_true_eq, UInt32.le_iff_toNat_le] at hexhausted
  omega

lemma LedgerInv.admitAt (h : LedgerInv history slot) :
    LedgerInv (history ++ [(.admission claims createdAt now,
        .record (slot.admitAt (.fromClaims claims createdAt) now).1)])
      (slot.admitAt (.fromClaims claims createdAt) now).2 := by
  obtain ⟨error, heq⟩ | ⟨stored, heq, htracks⟩ :
      (∃ error, slot.insert (.fromClaims claims createdAt) = (.error error, slot)) ∨ _ :=
    h.insert_cases
  · simp only [TokenSlot.admitAt, heq]
    exact h.refused rfl
  · simp only [TokenSlot.admitAt, heq]
    by_cases hactive : stored.status now = .active
    · simp only [hactive, ne_eq, not_true_eq_false, if_false]
      refine ledgerInv_of_tracks h rfl
        ⟨htracks.tokenClaims, htracks.expiresAt, htracks.maxUses, htracks.revokedAt, ?_, ?_⟩
      · intro c hc
        rw [definitions_append, mem_append] at hc
        exact hc.elim (htracks.agreed c) mem_singleton.mp
      · intro max hmax
        obtain ⟨huses, -⟩ := htracks.uses max hmax
        have hlt := uses_lt_of_active hactive hmax
        have hmaxlt := max.toNat_lt
        have hsucc : (saturatingSucc stored.uses).toNat = stored.uses.toNat + 1 := by
          rw [saturatingSucc, if_pos (by omega), UInt32.toNat_add, UInt32.toNat_one]
          exact Nat.mod_eq_of_lt (by omega)
        rw [admits_append]
        show (saturatingSucc stored.uses).toNat = admits history + 1 ∧ admits history + 1 ≤ max.toNat
        omega
    · simp only [hactive, ne_eq, not_false_eq_true, if_true]
      refine ledgerInv_of_tracks h rfl (htracks.append ?_ rfl)
      intro c hc
      cases hc

lemma LedgerInv.revoke (h : LedgerInv history slot) :
    LedgerInv (history ++ [(.revoke revocation, .revocation (slot.revoke revocation).1)])
      (slot.revoke revocation).2 := by
  have hfirst : some (slot.revocation.getD revocation) = slot.revocation.or (some revocation) := by
    cases slot.revocation <;> rfl
  refine ⟨?_, ?_, ?_⟩
  · rw [firstRevocation_append, ← h.revocation]
    exact hfirst
  · intro htoken
    obtain ⟨hnone, hzero⟩ := h.unseen (Option.map_eq_none_iff.mp htoken)
    rw [definitions_append, admits_append, hnone, hzero]
    exact ⟨rfl, rfl⟩
  · intro record htoken
    obtain ⟨record', htoken', rfl⟩ := Option.map_eq_some_iff.mp htoken
    obtain ⟨c, htracks⟩ := h.seen record' htoken'
    have happend : Tracks (history ++ [(.revoke revocation,
        .revocation (slot.revoke revocation).1)]) c slot.revocation record' :=
      htracks.append (by intro c hc; cases hc) rfl
    exact ⟨c, happend.tokenClaims, happend.expiresAt, happend.maxUses, rfl, happend.agreed,
      happend.uses⟩

lemma LedgerInv.apply (h : LedgerInv history slot) (op : TokenOp) :
    LedgerInv (history ++ [(op, (slot.apply op).1)]) (slot.apply op).2 := by
  cases op with
  | insert claims createdAt => exact h.insert
  | admission claims createdAt now => exact h.admitAt
  | revoke revocation => exact h.revoke

lemma ledgerInv_run (ops : List TokenOp) :
    LedgerInv (trace TokenSlot.apply .empty ops) (exec TokenSlot.apply .empty ops) := by
  induction ops using List.reverseRecOn with
  | nil => exact ledgerInv_empty
  | append_singleton ops op ih =>
    rw [trace_append, exec_append]
    exact ih.apply op

lemma LedgerInv.of_admitted (h : LedgerInv history slot)
    (hok : (slot.admitAt (.fromClaims claims createdAt) now).1 = .ok record) :
    now < claims.expiresAt ∧ firstRevocation history = none := by
  obtain ⟨error, heq⟩ | ⟨stored, heq, htracks⟩ :
      (∃ error, slot.insert (.fromClaims claims createdAt) = (.error error, slot)) ∨ _ :=
    h.insert_cases
  · simp [TokenSlot.admitAt, heq] at hok
  · by_cases hactive : stored.status now = .active
    · rw [TokenLedgerRecord.status] at hactive
      split_ifs at hactive with hrevoked hexpired hexhausted
      rw [htracks.expiresAt] at hexpired
      rw [htracks.revokedAt, Option.isSome_map, Bool.not_eq_true, Option.isSome_eq_false_iff,
        Option.isNone_iff_eq_none] at hrevoked
      exact ⟨not_le.mp hexpired, h.revocation ▸ hrevoked⟩
    · simp [TokenSlot.admitAt, heq, hactive] at hok

end Steps

/-! ## Runs of the ledger -/

section Safety

variable {ops before after : List TokenOp} {key : String}

def historyAt (key : String) (ops : List TokenOp) : List (TokenOp × TokenOutcome) :=
  Runs.trace TokenSlot.apply .empty (ops.filter fun op => op.key = key)

variable (key ops) in
lemma ledgerInv_slot :
    LedgerInv (historyAt key ops) ((exec InMemoryTokenLedger.apply .empty ops).slot key) := by
  rw [(slot_follows key).exec, slot_empty]
  exact ledgerInv_run _

lemma historyAt_append : ∃ later, historyAt key (before ++ after) = historyAt key before ++ later := by
  rw [historyAt, filter_append, trace_append]
  exact ⟨_, rfl⟩

lemma names_sublist_historyAt (cluster : ClusterId) (nonce : String) :
    ((trace InMemoryTokenLedger.apply .empty ops).filter (·.1.names cluster nonce)).Sublist
      (historyAt (tokenKey cluster nonce) ops) := by
  rw [historyAt, ← slot_empty, ← (slot_follows (tokenKey cluster nonce)).trace]
  refine monotone_filter_right _ fun e he => ?_
  simp only [TokenOp.names, Bool.and_eq_true, decide_eq_true_eq] at he
  simp [TokenOp.key, he.1, he.2]

lemma firstRevocation_historyAt_ne_none {revocation : TokenRevocationRecord}
    (h : .revoke revocation ∈ ops) :
    firstRevocation (historyAt (tokenKey revocation.clusterId revocation.nonce) ops) ≠ none := by
  intro hnone
  have hmem : .revoke revocation ∈ ops.filter fun op =>
      op.key = tokenKey revocation.clusterId revocation.nonce :=
    mem_filter.mpr ⟨h, by simp [TokenOp.key, TokenOp.clusterId, TokenOp.nonce]⟩
  obtain ⟨outcome, hanswer⟩ := exists_mem_trace hmem
  cases findSome?_eq_none_iff.mp hnone _ hanswer

lemma definitions_historyAt {c : JoinTokenClaims} (hc : c ∈ definitions (historyAt key ops)) :
    (∀ c' ∈ definitions (historyAt key ops), c' = c) ∧
      ∀ max, c.policy.maxTokenUses = some max → admits (historyAt key ops) ≤ max.toNat := by
  have h := ledgerInv_slot ops key
  cases htoken : ((exec InMemoryTokenLedger.apply .empty ops).slot key).token with
  | none =>
    rw [(h.unseen htoken).1] at hc
    cases hc
  | some record =>
    obtain ⟨claims, htracks⟩ := h.seen record htoken
    obtain rfl := htracks.agreed c hc
    exact ⟨htracks.agreed, fun max hmax => (htracks.uses max (htracks.maxUses.trans hmax)).2⟩

lemma revocation_stays {r : TokenRevocationRecord}
    (h : (exec InMemoryTokenLedger.apply .empty before).revocations[key]? = some r) :
    (exec InMemoryTokenLedger.apply .empty (before ++ after)).revocations[key]? = some r ∧
      ∀ record, (exec InMemoryTokenLedger.apply .empty (before ++ after)).tokens[key]? =
        some record → record.revokedAt = some r.revokedAt := by
  have hfinal := ledgerInv_slot (before ++ after) key
  obtain ⟨later, hlater⟩ : ∃ later, historyAt key (before ++ after) = historyAt key before ++ later :=
    historyAt_append
  have hfirst : firstRevocation (historyAt key before) = some r :=
    (ledgerInv_slot before key).revocation.symm.trans h
  have hstored : ((exec InMemoryTokenLedger.apply .empty (before ++ after)).slot key).revocation =
      some r := by
    rw [hfinal.revocation, hlater, firstRevocation_append, hfirst, Option.some_or]
  refine ⟨hstored, ?_⟩
  intro record hrecord
  obtain ⟨claims, htracks⟩ := hfinal.seen record hrecord
  rw [htracks.revokedAt, hstored, Option.map_some]

/-- At every point of every run: all calls for a token that succeed carry the same claims, no more
admissions succeed than these allow, each before their expiry and after no revocation; and the revocation
recorded first stays. -/
theorem token_ledger_safe (ops : List TokenOp) (cluster : ClusterId) (nonce : String) :
    let history := (Runs.trace InMemoryTokenLedger.apply .empty ops).filter (·.1.names cluster nonce)
    let state := Runs.exec InMemoryTokenLedger.apply .empty
    (∀ c ∈ definitions history, ∀ c' ∈ definitions history, c' = c) ∧
    (∀ c ∈ definitions history, ∀ max, c.policy.maxTokenUses = some max →
      admits history ≤ max.toNat) ∧
    (∀ before claims createdAt now after record,
      ops = before ++ .admission claims createdAt now :: after →
      claims.clusterId = cluster → claims.nonce = nonce →
      ((state before).admitToken (.fromClaims claims createdAt) now).1 = .ok record →
      now < claims.expiresAt ∧
        ∀ r, .revoke r ∈ before → ¬(r.clusterId = cluster ∧ r.nonce = nonce)) ∧
    (∀ r, .revoke r ∈ ops → r.clusterId = cluster → r.nonce = nonce →
      ((state ops).revocations[tokenKey cluster nonce]?).isSome) ∧
    (∀ before after r, ops = before ++ after →
      (state before).revocations[tokenKey cluster nonce]? = some r →
      (state ops).revocations[tokenKey cluster nonce]? = some r ∧
        ∀ record, (state ops).tokens[tokenKey cluster nonce]? = some record →
          record.revokedAt = some r.revokedAt) := by
  intro history state
  have hsublist : history.Sublist (historyAt (tokenKey cluster nonce) ops) :=
    names_sublist_historyAt cluster nonce
  have hmem : ∀ c ∈ definitions history, c ∈ definitions (historyAt (tokenKey cluster nonce) ops) :=
    (hsublist.filterMap _).subset
  refine ⟨?_, ?_, ?_, ?_, ?_⟩
  · intro c hc c' hc'
    exact (definitions_historyAt (hmem c hc)).1 c' (hmem c' hc')
  · intro c hc max hmax
    exact (hsublist.countP_le).trans ((definitions_historyAt (hmem c hc)).2 max hmax)
  · rintro before claims createdAt now after record - rfl rfl hok
    have hslot := admitToken_slot (state before) (.fromClaims claims createdAt) now
    obtain ⟨hexpiry, hnone⟩ := (ledgerInv_slot before _).of_admitted
      ((congrArg Prod.fst hslot).trans hok)
    refine ⟨hexpiry, ?_⟩
    rintro r hr ⟨hcluster, hnonce⟩
    refine firstRevocation_historyAt_ne_none hr ?_
    rw [hcluster, hnonce]
    exact hnone
  · rintro r hr rfl rfl
    have hstored := (ledgerInv_slot ops (tokenKey r.clusterId r.nonce)).revocation
    rw [Option.isSome_iff_ne_none]
    exact fun hnone => firstRevocation_historyAt_ne_none hr (hstored.symm.trans hnone)
  · rintro before after r rfl hr
    exact revocation_stays hr

end Safety

namespace SampleTokens

def claims : JoinTokenClaims where
  clusterId := ⟨"lab"⟩
  bootstrapEndpoints := [⟨"https://cp.lab", .controlPlane⟩]
  expiresAt := seconds 60
  notBefore := 0
  role := ⟨"edge"⟩
  tags := ∅
  issuer := ⟨"issuer"⟩
  keyId := ⟨"key-1"⟩
  policy := ⟨true, false, [], ∅, some 1⟩
  nonce := "n1"

def revocation (nonce : String) : TokenRevocationRecord :=
  ⟨⟨"lab"⟩, nonce, ⟨"issuer"⟩, ⟨"key-1"⟩, seconds 10⟩

def ops : List TokenOp :=
  [.revoke (revocation "n0"), .admission claims 0 (seconds 1), .admission claims 0 (seconds 2),
    .revoke (revocation "n1")]

theorem token_ledger_safe_one_use :
    admits ((Runs.trace InMemoryTokenLedger.apply .empty ops).filter (·.1.names ⟨"lab"⟩ "n1")) = 1 := by
  obtain ⟨-, huses, -⟩ := token_ledger_safe ops ⟨"lab"⟩ "n1"
  exact le_antisymm (huses claims (by decide +kernel) 1 rfl) (by decide +kernel)

end SampleTokens

end HeteroNetwork
