import HeteroNetwork.Lib.Runs
import HeteroNetwork.Quorum.Sudo

/-!
# The ledger of local sudo invocations

A host keeps its sudo invocations in a database that several processes share.  An invocation is stored when
it begins, gets the digest of its challenge and of its redemption, and is consumed once.  A statement, or a
transaction, is one step of the machine below; the begins are numbered, to tell two uses of a nonce apart.
-/

namespace HeteroNetwork

open Std Std.TreeMap

namespace Quorum

open Checked OrderedMap Runs

/-! ## Redemptions -/

structure VerifiedSudoGrant where
  grant : SudoGrant
  invocation : SudoLocalInvocation
deriving DecidableEq

def VerifiedSudoGrant.validateAt (verified : VerifiedSudoGrant) (now : UInt64) : Except Error Unit := do
  lifetime maxSudoTtlSecs verified.grant.issuedAt verified.grant.expiresAt now
  lifetime maxSudoTtlSecs verified.invocation.issuedAt verified.invocation.expiresAt now

def verifySudoRedemption (env : Primitives) (policy : SudoPolicy) (token : SudoToken)
    (invocation : SudoLocalInvocation) (requesterProof : List UInt8) (now : UInt64) :
    Except Error VerifiedSudoGrant := do
  token.challenge.validate env policy now
  let grant := token.challenge.grant
  rejectIf (invocation.hostNodeId ≠ grant.hostNodeId ∨ invocation.callerUid ≠ grant.callerUid ∨
    invocation.runasUid ≠ grant.runasUid ∨ invocation.nonce = grant.nonce ∨
    invocation.issuedAt < grant.issuedAt ∨ invocation.expiresAt > grant.expiresAt) .claims
  lifetime maxSudoTtlSecs invocation.issuedAt invocation.expiresAt now
  let proof ← invocation.proofBytes env token
  verifyEd25519 env grant.requesterPublicKey proof requesterProof
  let keys ← policy.manifest.publicKeys env
  let message ← token.challenge.signingBytes env
  rejectIf (env.verifyGroup keys.verifyingKey message token.signature = false) .signature
  pure ⟨grant, invocation⟩

lemma verifySudoRedemption_eq_ok {env : Primitives} {policy : SudoPolicy} {token : SudoToken}
    {invocation : SudoLocalInvocation} {proof : List UInt8} {now : UInt64}
    {verified : VerifiedSudoGrant}
    (h : verifySudoRedemption env policy token invocation proof now = .ok verified) :
    verified = ⟨token.challenge.grant, invocation⟩ := by
  simp only [verifySudoRedemption, bind_eq_ok, pure_eq_ok_iff] at h
  obtain ⟨_, _, _, _, _, _, _, _, _, _, _, _, _, _, _, _, rfl⟩ := h
  rfl

/-! ## Tables -/

inductive LocalError where
  | context
  | configuration
  | signature
  | time
  | unavailable
  | ledger
deriving DecidableEq

structure Invocation where
  uid : UInt32
  expires : UInt64
  challenge : Option Bytes32
  redemption : Option Bytes32
  consumed : Bool
  /-- Which begin has stored the row. -/
  number : ℕ
deriving DecidableEq

structure Ledger where
  anchor : Bytes32
  floor : UInt64
  invocations : TreeMap Bytes32 Invocation
  begins : ℕ

def maxInvocations : ℕ := 1024

def Ledger.new (anchor : Bytes32) (now : UInt64) : Ledger := ⟨anchor, now, ∅, 0⟩

/-- What a transaction is asked to do.  A reading of the clock is `none` before 1970. -/
inductive Statement where
  | observe (reading : Option UInt64)
  | begin (anchor : Bytes32) (uid : UInt32) (nonce : Bytes32) (reading : Option UInt64)
  | setChallenge (anchor : Bytes32) (uid : UInt32) (nonce digest : Bytes32)
  | setRedemption (anchor : Bytes32) (uid : UInt32) (nonce digest : Bytes32)
  | consume (anchor : Bytes32) (uid : UInt32) (nonce challenge redemption : Bytes32)
      (verified : VerifiedSudoGrant) (first second : Option UInt64)

inductive Reply where
  | observed (fresh : UInt64)
  | begun (issuedAt expiresAt : UInt64) (number : ℕ)
  | updated
  | consumed (number : ℕ)
deriving DecidableEq

namespace Ledger

/-! ## Statements -/

section Statements

variable (ledger : Ledger)

def observeLocked (reading : Option UInt64) : Except LocalError (UInt64 × Ledger) := do
  let fresh ← orError reading .time
  -- `i64::try_from`
  rejectIf (¬fresh.toNat < 2 ^ 63) .time
  rejectIf (¬ledger.floor ≤ fresh) .time
  pure (fresh, { ledger with floor := fresh })

def deleteExpired (now : UInt64) : Ledger :=
  let expired := (ledger.invocations.toList.filter fun row => row.2.expires ≤ now).take maxInvocations
  { ledger with invocations := (expired.map Prod.fst).foldl TreeMap.erase ledger.invocations }

def insertInvocation (anchor : Bytes32) (uid : UInt32) (nonce : Bytes32) (expires : UInt64) :
    Except LocalError Ledger := do
  rejectIf (¬(ledger.invocations.size < maxInvocations ∧ ledger.anchor = anchor)) .unavailable
  -- The nonce is the primary key.
  rejectIf (nonce ∈ ledger.invocations) .ledger
  pure { ledger with
    invocations := ledger.invocations.insert nonce ⟨uid, expires, none, none, false, ledger.begins⟩
    begins := ledger.begins + 1 }

def begin (anchor : Bytes32) (uid : UInt32) (nonce : Bytes32) (reading : Option UInt64) :
    Except LocalError (Reply × Ledger) := do
  let (issuedAt, observed) ← ledger.observeLocked reading
  let collected := observed.deleteExpired issuedAt
  -- `checked_add`, then `i64::try_from`
  rejectIf (¬issuedAt.toNat + maxSudoTtlSecs.toNat < 2 ^ 63) .time
  let expiresAt := issuedAt + maxSudoTtlSecs
  let stored ← collected.insertInvocation anchor uid nonce expiresAt
  pure (.begun issuedAt expiresAt ledger.begins, stored)

/-- An `UPDATE` of the row of a nonce that is about the user, is not consumed and fulfils the rest of
the condition.  It has to affect one row. -/
def updateInvocation (anchor : Bytes32) (uid : UInt32) (nonce : Bytes32) (condition : Invocation → Bool)
    (set : Invocation → Invocation) : Except LocalError (Invocation × Ledger) := do
  let row ← orError (ledger.invocations[nonce]?.filter fun row =>
    row.uid = uid && !row.consumed && condition row && ledger.anchor = anchor) .unavailable
  pure (row, { ledger with invocations := ledger.invocations.insert nonce (set row) })

def consume (anchor : Bytes32) (uid : UInt32) (nonce challenge redemption : Bytes32)
    (verified : VerifiedSudoGrant) (first second : Option UInt64) :
    Except LocalError (Reply × Ledger) := do
  let (fresh, observed) ← ledger.observeLocked first
  (verified.validateAt fresh).mapError fun _ => LocalError.time
  let (row, updated) ← observed.updateInvocation anchor uid nonce
    (fun row => row.challenge = some challenge && row.redemption = some redemption &&
      row.expires > fresh)
    ({ · with consumed := true })
  let (again, observed) ← updated.observeLocked second
  (verified.validateAt again).mapError fun _ => LocalError.time
  pure (.consumed row.number, observed)

def run : Statement → Except LocalError (Reply × Ledger)
  | .observe reading => do
      let (fresh, observed) ← ledger.observeLocked reading
      pure (.observed fresh, observed)
  | .begin anchor uid nonce reading => ledger.begin anchor uid nonce reading
  | .setChallenge anchor uid nonce digest => do
      let (_, updated) ← ledger.updateInvocation anchor uid nonce (fun row => row.challenge = none)
        ({ · with challenge := some digest })
      pure (.updated, updated)
  | .setRedemption anchor uid nonce digest => do
      let (_, updated) ← ledger.updateInvocation anchor uid nonce
        (fun row => row.redemption = none && row.challenge ≠ none)
        ({ · with redemption := some digest })
      pure (.updated, updated)
  | .consume anchor uid nonce challenge redemption verified first second =>
    ledger.consume anchor uid nonce challenge redemption verified first second

/-- A transaction commits or is rolled back. -/
def step (statement : Statement) : Except LocalError Reply × Ledger :=
  match ledger.run statement with
  | .ok (reply, next) => (.ok reply, next)
  | .error error => (.error error, ledger)

end Statements

/-! ## What a statement does -/

section Spec

variable {ledger next : Ledger} {anchor nonce challenge redemption digest : Bytes32} {uid : UInt32}
  {reading first second : Option UInt64} {verified : VerifiedSudoGrant} {statement : Statement}
  {reply : Reply} {number : ℕ} {row : Invocation} {other : Bytes32}

lemma observeLocked_eq_ok {fresh : UInt64} :
    ledger.observeLocked reading = .ok (fresh, next) ↔
      reading = some fresh ∧ fresh.toNat < 2 ^ 63 ∧ ledger.floor ≤ fresh ∧
        next = { ledger with floor := fresh } := by
  simp only [observeLocked, bind_eq_ok, orError_eq_ok, rejectIf_eq_ok, not_not, pure_eq_ok_iff,
    Prod.mk.injEq]
  constructor
  · rintro ⟨_, hreading, _, hfits, _, hfloor, rfl, rfl⟩
    exact ⟨hreading, hfits, hfloor, rfl⟩
  · rintro ⟨hreading, hfits, hfloor, rfl⟩
    exact ⟨fresh, hreading, (), hfits, (), hfloor, rfl, rfl⟩

lemma getElem?_deleteExpired {now : UInt64} :
    ((ledger.deleteExpired now).invocations[other]? = some row →
      ledger.invocations[other]? = some row) ∧
    (ledger.invocations[other]? = some row → now < row.expires →
      (ledger.deleteExpired now).invocations[other]? = some row) := by
  refine ⟨fun h => (getElem?_foldl_erase.mp h).2, fun h hlive => getElem?_foldl_erase.mpr ⟨?_, h⟩⟩
  intro hmem
  obtain ⟨⟨nonce, expired⟩, hexpired, rfl⟩ := List.mem_map.mp hmem
  obtain ⟨hstored, hle⟩ := List.mem_filter.mp (List.mem_of_mem_take hexpired)
  obtain rfl := Option.some.inj
    (h.symm.trans (mem_toList_iff_getElem?_eq_some.mp hstored))
  exact absurd (of_decide_eq_true hle) (UInt64.not_le.mpr hlive)

/-- A begin: the floor is raised, expired rows go, and the new row is numbered. -/
structure Begins (ledger : Ledger) (uid : UInt32) (nonce : Bytes32) (issuedAt : UInt64)
    (next : Ledger) : Prop where
  floor_le : ledger.floor ≤ issuedAt
  fits : issuedAt.toNat + maxSudoTtlSecs.toNat < 2 ^ 63
  room : ({ ledger with floor := issuedAt }.deleteExpired issuedAt).invocations.size < maxInvocations
  fresh : nonce ∉ ({ ledger with floor := issuedAt }.deleteExpired issuedAt).invocations
  eq : next = { ledger with
    floor := issuedAt
    invocations := ({ ledger with floor := issuedAt }.deleteExpired issuedAt).invocations.insert nonce
      ⟨uid, issuedAt + maxSudoTtlSecs, none, none, false, ledger.begins⟩
    begins := ledger.begins + 1 }

lemma begin_eq_ok (h : ledger.begin anchor uid nonce reading = .ok (reply, next)) :
    ∃ issuedAt, reading = some issuedAt ∧
      reply = .begun issuedAt (issuedAt + maxSudoTtlSecs) ledger.begins ∧
      Begins ledger uid nonce issuedAt next := by
  simp only [begin, insertInvocation, bind_eq_ok, rejectIf_eq_ok, not_not, pure_eq_ok_iff,
    Prod.mk.injEq, Prod.exists, observeLocked_eq_ok] at h
  obtain ⟨issuedAt, _, ⟨hreading, -, hfloor, rfl⟩, _, hfits, _, ⟨_, hroom, _, hfresh, rfl⟩, rfl, rfl⟩ :=
    h
  exact ⟨issuedAt, hreading, rfl, hfloor, hfits, hroom.1, hfresh, rfl⟩

lemma updateInvocation_eq_ok {condition : Invocation → Bool} {set : Invocation → Invocation} :
    ledger.updateInvocation anchor uid nonce condition set = .ok (row, next) ↔
      ledger.invocations[nonce]? = some row ∧
        (row.uid = uid ∧ row.consumed = false ∧ condition row = true ∧ ledger.anchor = anchor) ∧
        next = { ledger with invocations := ledger.invocations.insert nonce (set row) } := by
  simp only [updateInvocation, bind_eq_ok, orError_eq_ok, pure_eq_ok_iff, Prod.mk.injEq,
    Option.filter_eq_some_iff, Bool.and_eq_true, Bool.not_eq_true', decide_eq_true_eq]
  constructor
  · rintro ⟨_, ⟨hrow, ⟨⟨huid, hconsumed⟩, hcondition⟩, hanchor⟩, rfl, rfl⟩
    exact ⟨hrow, ⟨huid, hconsumed, hcondition, hanchor⟩, rfl⟩
  · rintro ⟨hrow, ⟨huid, hconsumed, hcondition, hanchor⟩, rfl⟩
    exact ⟨row, ⟨hrow, ⟨⟨huid, hconsumed⟩, hcondition⟩, hanchor⟩, rfl, rfl⟩

/-- A consumption: the clock is not behind the floor and before the expiry, and the row is the one that
the digests were stored in. -/
structure Consumes (ledger : Ledger) (uid : UInt32) (nonce challenge redemption : Bytes32)
    (verified : VerifiedSudoGrant) (fresh again : UInt64) (row : Invocation) (next : Ledger) : Prop where
  floor_le : ledger.floor ≤ fresh
  valid : verified.validateAt fresh = .ok ()
  stored : ledger.invocations[nonce]? = some row
  uid_eq : row.uid = uid
  unconsumed : row.consumed = false
  challenge_eq : row.challenge = some challenge
  redemption_eq : row.redemption = some redemption
  live : fresh < row.expires
  fresh_le : fresh ≤ again
  eq : next = { ledger with
    floor := again
    invocations := ledger.invocations.insert nonce { row with consumed := true } }

lemma consume_eq_ok
    (h : ledger.consume anchor uid nonce challenge redemption verified first second =
      .ok (reply, next)) :
    ∃ fresh again row, first = some fresh ∧ reply = .consumed row.number ∧
      Consumes ledger uid nonce challenge redemption verified fresh again row next := by
  simp only [consume, bind_eq_ok, mapError_eq_ok, pure_eq_ok_iff, Prod.mk.injEq, Prod.exists,
    observeLocked_eq_ok, updateInvocation_eq_ok, Bool.and_eq_true, decide_eq_true_eq] at h
  obtain ⟨fresh, _, ⟨hfirst, -, hfloor, rfl⟩, _, hvalid, row, _, ⟨hrow, ⟨huid, hconsumed,
    ⟨⟨hchallenge, hredemption⟩, hlive⟩, -⟩, rfl⟩, again, _, ⟨-, -, hagain, rfl⟩, _, -, rfl, rfl⟩ := h
  exact ⟨fresh, again, row, hfirst, rfl, hfloor, hvalid, hrow, huid, hconsumed, hchallenge,
    hredemption, hlive, hagain, rfl⟩

inductive Change (ledger : Ledger) : Ledger → Prop where
  | raise {floor : UInt64} (hfloor : ledger.floor ≤ floor) : Change ledger { ledger with floor }
  | begins {uid : UInt32} {nonce : Bytes32} {issuedAt : UInt64} {next : Ledger}
      (hbegins : Begins ledger uid nonce issuedAt next) : Change ledger next
  | rewrite {floor : UInt64} {nonce : Bytes32} {row row' : Invocation}
      (hfloor : ledger.floor ≤ floor) (hrow : ledger.invocations[nonce]? = some row)
      (hopen : row.consumed = false)
      (hsame : row'.uid = row.uid ∧ row'.expires = row.expires ∧ row'.number = row.number) :
      Change ledger
        { ledger with floor, invocations := ledger.invocations.insert nonce row' }

lemma run_change (h : ledger.run statement = .ok (reply, next)) : Change ledger next := by
  cases statement with
  | observe reading =>
    simp only [run, bind_eq_ok, Prod.exists, observeLocked_eq_ok, pure_eq_ok_iff, Prod.mk.injEq] at h
    obtain ⟨fresh, _, ⟨-, -, hfloor, rfl⟩, -, rfl⟩ := h
    exact .raise hfloor
  | begin anchor uid nonce reading =>
    obtain ⟨issuedAt, -, -, hbegins⟩ := begin_eq_ok h
    exact .begins hbegins
  | setChallenge anchor uid nonce digest | setRedemption anchor uid nonce digest =>
    simp only [run, bind_eq_ok, Prod.exists, updateInvocation_eq_ok, pure_eq_ok_iff,
      Prod.mk.injEq] at h
    obtain ⟨row, _, ⟨hrow, ⟨-, hopen, -⟩, rfl⟩, -, rfl⟩ := h
    exact .rewrite (UInt64.le_refl _) hrow hopen ⟨rfl, rfl, rfl⟩
  | consume anchor uid nonce challenge redemption verified first second =>
    obtain ⟨fresh, again, row, -, -, hconsumes⟩ := consume_eq_ok h
    rw [hconsumes.eq]
    exact .rewrite (UInt64.le_trans hconsumes.floor_le hconsumes.fresh_le) hconsumes.stored
      hconsumes.unconsumed ⟨rfl, rfl, rfl⟩

lemma step_eq_ok (h : (ledger.step statement).1 = .ok reply) :
    ledger.run statement = .ok (reply, (ledger.step statement).2) := by
  rw [step] at h ⊢
  split at h
  · obtain rfl := Except.ok.inj h
    assumption
  · cases h

lemma step_change : Change ledger (ledger.step statement).2 := by
  cases hrun : ledger.run statement with
  | ok result =>
    rw [step, hrun]
    exact run_change hrun
  | error error =>
    rw [step, hrun]
    exact .raise (UInt64.le_refl _)

end Spec

/-! ## What every statement keeps -/

section Invariants

variable {ledger next : Ledger} {nonce : Bytes32} {uid : UInt32} {expires : UInt64} {number : ℕ}

lemma Change.floor_le (h : Change ledger next) : ledger.floor ≤ next.floor := by
  cases h with
  | raise hfloor => exact hfloor
  | begins hbegins =>
    rw [hbegins.eq]
    exact hbegins.floor_le
  | rewrite hfloor => exact hfloor

lemma Change.stored (h : Change ledger next) {row : Invocation}
    (hrow : next.invocations[nonce]? = some row) :
    (row.number = ledger.begins ∧ ledger.begins < next.begins) ∨ ∃ old, ledger.invocations[nonce]? = some old ∧
      old.uid = row.uid ∧ old.expires = row.expires ∧ old.number = row.number ∧
      (old.consumed = true → row = old) := by
  cases h with
  | raise => exact .inr ⟨row, hrow, rfl, rfl, rfl, fun _ => rfl⟩
  | @begins _ begun _ _ hbegins =>
    rw [hbegins.eq] at hrow
    by_cases hnonce : begun = nonce
    · rw [hnonce, getElem?_insert_self] at hrow
      rw [hbegins.eq]
      exact .inl ⟨Option.some.inj hrow ▸ rfl, Nat.lt_succ_self _⟩
    · rw [getElem?_insert_ne hnonce] at hrow
      exact .inr ⟨row, getElem?_deleteExpired.1 hrow, rfl, rfl, rfl, fun _ => rfl⟩
  | @rewrite _ changed old row' _ hold hopen hsame =>
    by_cases hnonce : changed = nonce
    · subst hnonce
      rw [getElem?_insert_self] at hrow
      obtain rfl := Option.some.inj hrow
      refine .inr ⟨old, hold, hsame.1.symm, hsame.2.1.symm, hsame.2.2.symm, fun hconsumed => ?_⟩
      rw [hopen] at hconsumed
      cases hconsumed
    · rw [getElem?_insert_ne hnonce] at hrow
      exact .inr ⟨row, hrow, rfl, rfl, rfl, fun _ => rfl⟩

lemma Change.begins_le (h : Change ledger next) : ledger.begins ≤ next.begins := by
  cases h with
  | raise | rewrite => exact le_rfl
  | begins hbegins =>
    rw [hbegins.eq]
    exact Nat.le_succ _

def Placed (ledger : Ledger) (nonce : Bytes32) (number : ℕ) : Prop :=
  number < ledger.begins ∧ ∀ (other : Bytes32) (row : Invocation),
    ledger.invocations[other]? = some row → row.number = number → other = nonce

lemma Change.placed (h : Change ledger next) (hplaced : Placed ledger nonce number) :
    Placed next nonce number := by
  refine ⟨hplaced.1.trans_le h.begins_le, fun other row hrow hnumber => ?_⟩
  rcases h.stored hrow with ⟨hnew, -⟩ | ⟨old, hold, -, -, hsame, -⟩
  · have hlt := hplaced.1
    omega
  · exact hplaced.2 other old hold (hsame.trans hnumber)

lemma Begins.placed {issuedAt : UInt64} (h : Begins ledger uid nonce issuedAt next)
    (hnumbered : ∀ (nonce : Bytes32) (row : Invocation), ledger.invocations[nonce]? = some row →
      row.number < ledger.begins) : Placed next nonce ledger.begins := by
  rw [h.eq]
  refine ⟨Nat.lt_succ_self _, fun other row hrow hnumber => ?_⟩
  by_contra hne
  rw [getElem?_insert_ne (Ne.symm hne)] at hrow
  have hlt := hnumbered other row (getElem?_deleteExpired.1 hrow)
  omega

structure Valid (ledger : Ledger) : Prop where
  capacity : ledger.invocations.size ≤ maxInvocations
  numbered : ∀ (nonce : Bytes32) (row : Invocation), ledger.invocations[nonce]? = some row →
    row.number < ledger.begins
  unique : ∀ (nonce : Bytes32) (row : Invocation), ledger.invocations[nonce]? = some row →
    Placed ledger nonce row.number

lemma valid_new (anchor : Bytes32) (now : UInt64) : Valid (new anchor now) := by
  constructor
  · simp [new]
  · simp [new]
  · simp [new]

lemma Change.valid (h : Change ledger next) (hvalid : Valid ledger) : Valid next := by
  constructor
  · cases h with
    | raise => exact hvalid.capacity
    | begins hbegins =>
      rw [hbegins.eq]
      exact size_insert_le.trans hbegins.room
    | rewrite hfloor hrow =>
      have hmem := contains_iff_mem.mpr (mem_of_getElem? hrow)
      rw [size_insert, if_pos hmem]
      exact hvalid.capacity
  · intro nonce row hrow
    rcases h.stored hrow with ⟨hnew, hlt⟩ | ⟨old, hold, -, -, hnumber, -⟩
    · exact hnew ▸ hlt
    · exact hnumber ▸ (hvalid.numbered nonce old hold).trans_le h.begins_le
  · intro nonce row hrow
    rcases h.stored hrow with ⟨hnew, hlt⟩ | ⟨old, hold, -, -, hnumber, -⟩
    · cases h with
      | raise | rewrite => exact absurd hlt (Nat.lt_irrefl _)
      | begins hbegins =>
        have hplaced := hbegins.placed hvalid.numbered
        rw [hplaced.2 nonce row hrow hnew, hnew]
        exact hplaced
    · exact hnumber ▸ h.placed (hvalid.unique nonce old hold)

/-- The row of a begin is as it was stored, or it may have been removed. -/
def Keeps (ledger : Ledger) (uid : UInt32) (nonce : Bytes32) (expires : UInt64) (number : ℕ) : Prop :=
  (∃ row, ledger.invocations[nonce]? = some row ∧ row.uid = uid ∧ row.expires = expires ∧
    row.number = number) ∨ expires ≤ ledger.floor

lemma Change.keeps (h : Change ledger next) (hkeeps : Keeps ledger uid nonce expires number) :
    Keeps next uid nonce expires number := by
  rcases hkeeps with ⟨row, hrow, rfl, rfl, rfl⟩ | hexpired
  · cases h with
    | raise => exact .inl ⟨row, hrow, rfl, rfl, rfl⟩
    | @begins _ begun issuedAt _ hbegins =>
      rw [hbegins.eq]
      rcases UInt64.le_total row.expires issuedAt with hexpired | hlive
      · exact .inr hexpired
      · by_cases heq : row.expires = issuedAt
        · exact .inr (heq ▸ UInt64.le_refl _)
        · have hkept : ({ ledger with floor := issuedAt }.deleteExpired issuedAt).invocations[nonce]? =
              some row :=
            getElem?_deleteExpired.2 hrow (UInt64.lt_of_le_of_ne hlive (Ne.symm heq))
          have hne : begun ≠ nonce := fun h => hbegins.fresh (h ▸ mem_of_getElem? hkept)
          exact .inl ⟨row, (getElem?_insert_ne hne).trans hkept, rfl, rfl, rfl⟩
    | @rewrite _ changed old row' _ hold _ hsame =>
      left
      by_cases hne : changed = nonce
      · subst hne
        obtain rfl := Option.some.inj (hrow.symm.trans hold)
        exact ⟨row', getElem?_insert_self, hsame⟩
      · exact ⟨row, (getElem?_insert_ne hne).trans hrow, rfl, rfl, rfl⟩
  · exact .inr (UInt64.le_trans hexpired h.floor_le)

/-- A begin that cannot be consumed any more. -/
def Retired (ledger : Ledger) (number : ℕ) : Prop :=
  number < ledger.begins ∧ ∀ (nonce : Bytes32) (row : Invocation),
    ledger.invocations[nonce]? = some row → row.number = number → row.consumed = true

lemma Change.retired (h : Change ledger next) (hretired : Retired ledger number) :
    Retired next number := by
  refine ⟨hretired.1.trans_le h.begins_le, fun nonce row hrow hnumber => ?_⟩
  rcases h.stored hrow with ⟨hnew, -⟩ | ⟨old, hold, -, -, hsame, hconsumed⟩
  · have hlt := hretired.1
    omega
  · have hdone := hretired.2 nonce old hold (hsame.trans hnumber)
    rw [hconsumed hdone]
    exact hdone

section

variable {issuedAt : UInt64} (h : Begins ledger uid nonce issuedAt next)
include h

lemma Begins.keeps : Keeps next uid nonce (issuedAt + maxSudoTtlSecs) ledger.begins := by
  rw [h.eq]
  exact .inl ⟨_, getElem?_insert_self, rfl, rfl, rfl⟩

lemma Begins.retired (hplaced : Placed ledger nonce number) : Retired next number := by
  have hnumber := hplaced.1
  rw [h.eq]
  refine ⟨Nat.lt_succ_of_lt hnumber, fun other row hrow hsame => ?_⟩
  exfalso
  by_cases hne : nonce = other
  · rw [hne, getElem?_insert_self] at hrow
    rw [← Option.some.inj hrow] at hsame
    exact absurd hsame.symm hnumber.ne
  · rw [getElem?_insert_ne hne] at hrow
    exact hne (hplaced.2 other row (getElem?_deleteExpired.1 hrow) hsame).symm

lemma Begins.expired {uid' : UInt32}
    (hplaced : Placed ledger nonce number) (hkeeps : Keeps next uid' nonce expires number) :
    expires ≤ next.floor := by
  refine hkeeps.resolve_left ?_
  rintro ⟨row, hrow, -, -, rfl⟩
  rw [h.eq, getElem?_insert_self] at hrow
  exact absurd (congrArg Invocation.number (Option.some.inj hrow)).symm hplaced.1.ne

end

lemma Consumes.retired {challenge redemption : Bytes32} {verified : VerifiedSudoGrant}
    {fresh again : UInt64} {row : Invocation}
    (h : Consumes ledger uid nonce challenge redemption verified fresh again row next)
    (hvalid : Valid ledger) : Retired next row.number := by
  have hplaced := hvalid.unique nonce row h.stored
  rw [h.eq]
  refine ⟨hvalid.numbered nonce row h.stored, fun other row' hrow hnumber => ?_⟩
  by_cases hne : nonce = other
  · rw [hne, getElem?_insert_self] at hrow
    rw [← Option.some.inj hrow]
  · rw [getElem?_insert_ne hne] at hrow
    exact absurd (hplaced.2 other row' hrow hnumber).symm hne

end Invariants

/-! ## Runs -/

section Runs

variable {ledger : Ledger} {statement : Statement} {statements : List Statement} {number : ℕ}

def Answers : Statement → Reply → Prop
  | .observe _, .observed _ | .begin _ _ _ _, .begun _ _ _ | .setChallenge _ _ _ _, .updated
  | .setRedemption _ _ _ _, .updated | .consume _ _ _ _ _ _ _ _, .consumed _ => True
  | _, _ => False

lemma run_answers {reply : Reply} {next : Ledger} (h : ledger.run statement = .ok (reply, next)) :
    Answers statement reply := by
  cases statement with
  | begin anchor uid nonce reading =>
    obtain ⟨issuedAt, -, rfl, -⟩ := begin_eq_ok h
    trivial
  | observe reading | setChallenge anchor uid nonce digest | setRedemption anchor uid nonce digest =>
    simp only [run, bind_eq_ok, pure_eq_ok_iff, Prod.mk.injEq] at h
    obtain ⟨_, -, rfl, -⟩ := h
    trivial
  | consume anchor uid nonce challenge redemption verified first second =>
    obtain ⟨fresh, again, row, -, rfl, -⟩ := consume_eq_ok h
    trivial

lemma exists_consumes (h : (ledger.step statement).1 = .ok (.consumed number)) :
    ∃ anchor uid nonce challenge redemption verified first second fresh again row,
      statement = .consume anchor uid nonce challenge redemption verified first second ∧
      first = some fresh ∧ row.number = number ∧
      Consumes ledger uid nonce challenge redemption verified fresh again row
        (ledger.step statement).2 := by
  have hrun := step_eq_ok h
  cases statement with
  | observe | begin | setChallenge | setRedemption =>
    exact (run_answers hrun).elim
  | consume anchor uid nonce challenge redemption verified first second =>
    obtain ⟨fresh, again, row, hfirst, hreply, hconsumes⟩ := consume_eq_ok hrun
    exact ⟨anchor, uid, nonce, challenge, redemption, verified, first, second, fresh, again, row, rfl,
      hfirst, (Reply.consumed.inj hreply).symm, hconsumes⟩

lemma exists_begins {issuedAt expiresAt : UInt64}
    (h : (ledger.step statement).1 = .ok (.begun issuedAt expiresAt number)) :
    ∃ anchor uid nonce, statement = .begin anchor uid nonce (some issuedAt) ∧
      expiresAt = issuedAt + maxSudoTtlSecs ∧ number = ledger.begins ∧
      Begins ledger uid nonce issuedAt (ledger.step statement).2 := by
  have hrun := step_eq_ok h
  cases statement with
  | observe | setChallenge | setRedemption | consume =>
    exact (run_answers hrun).elim
  | begin anchor uid nonce reading =>
    obtain ⟨issued, rfl, hreply, hbegins⟩ := begin_eq_ok hrun
    obtain ⟨rfl, rfl, rfl⟩ := Reply.begun.inj hreply
    exact ⟨anchor, uid, nonce, rfl, rfl, rfl, hbegins⟩

def consumedNumbers (answers : List (Statement × Except LocalError Reply)) : List ℕ :=
  answers.filterMap fun e =>
    match e.2 with
    | .ok (.consumed number) => some number
    | _ => none

lemma mem_consumedNumbers {answers : List (Statement × Except LocalError Reply)} :
    number ∈ consumedNumbers answers ↔ ∃ e ∈ answers, e.2 = .ok (.consumed number) := by
  rw [consumedNumbers, List.mem_filterMap]
  refine exists_congr fun e => and_congr_right fun _ => ?_
  split
  · rename_i n heq
    rw [heq, Option.some.injEq, Except.ok.injEq, Reply.consumed.injEq]
  · rename_i hne
    constructor
    · intro h
      cases h
    · intro h
      exact absurd h (hne number)

lemma notMem_consumedNumbers (hretired : Retired ledger number) :
    number ∉ consumedNumbers (trace step ledger statements) := by
  intro hmem
  obtain ⟨e, he, hanswer⟩ := mem_consumedNumbers.mp hmem
  obtain ⟨before, statement, after, -, rfl⟩ := mem_trace.mp he
  obtain ⟨_, _, _, _, _, _, _, _, _, _, row, -, -, hnumber, hconsumes⟩ := exists_consumes hanswer
  have hlater : Retired (exec step ledger before) number :=
    exec_invariant (Retired · number) (fun _ _ _ => step_change.retired) hretired
  have hconsumed := hlater.2 _ row hconsumes.stored hnumber
  rw [hconsumes.unconsumed] at hconsumed
  cases hconsumed

/-- No begin is consumed twice. -/
theorem consumed_nodup (hvalid : Valid ledger) :
    (consumedNumbers (trace step ledger statements)).Nodup := by
  induction statements generalizing ledger with
  | nil => exact List.nodup_nil
  | cons statement statements ih =>
    have hrest := ih (step_change.valid hvalid : Valid (ledger.step statement).2)
    rw [trace, consumedNumbers, List.filterMap_cons]
    split
    · exact hrest
    · rename_i number heq
      split at heq
      · rename_i n hanswer
        obtain rfl := Option.some.inj heq
        obtain ⟨_, _, _, _, _, _, _, _, _, _, row, -, -, rfl, hconsumes⟩ := exists_consumes hanswer
        exact List.nodup_cons.mpr ⟨notMem_consumedNumbers (hconsumes.retired hvalid), hrest⟩
      · cases heq

end Runs

end Ledger

end Quorum

end HeteroNetwork
