import HeteroNetwork.Lib.Tasks
import HeteroNetwork.Quorum.SudoLedger

/-!
# Local sudo sessions

A verifier begins an invocation, binds it to the key of the requester, accepts the token of the quorum and
consumes it.  Every operation is suspended at each statement to the ledger; meanwhile other operations run,
also of another verifier on the same ledger, and the clock may have been turned back.
-/

namespace HeteroNetwork.Quorum

open Checked OrderedMap Runs List Ledger

structure LocalV2Config where
  hostNodeId : String
  policy : SudoPolicy

/-- `sign` signs with the key of the host. -/
structure V2Verifier where
  config : LocalV2Config
  sign : List UInt8 → List UInt8
  anchor : Bytes32

structure V2Session where
  uid : UInt32
  nonce : Bytes32
  issuedAt : UInt64
  expiresAt : UInt64
  challenge : Option SudoChallenge
  redemption : Option (SudoToken × SudoLocalInvocation)
  /-- Which begin the session is from. -/
  number : ℕ

structure Host where
  ledger : Ledger
  sessions : List V2Session

inductive Operation where
  | begin (verifier : V2Verifier) (uid : UInt32) (nonce : Bytes32)
  | bindRequester (verifier : V2Verifier) (session : ℕ) (publicKey : Bytes32)
  | submitToken (verifier : V2Verifier) (session : ℕ) (token : SudoToken)
  | consume (verifier : V2Verifier) (session : ℕ) (proof : List UInt8)

/-- An operation that waits for its turn, or for the answer to a statement. -/
inductive Task where
  | start (operation : Operation)
  | begun (uid : UInt32) (nonce : Bytes32) (issuedAt expiresAt : UInt64) (number : ℕ)
  | bindObserved (verifier : V2Verifier) (session : ℕ) (grant : SudoGrant) (fresh : UInt64)
  | bindStored (verifier : V2Verifier) (session : ℕ) (challenge : SudoChallenge)
  | bindConfirm (verifier : V2Verifier) (challenge : SudoChallenge) (fresh : UInt64)
  | submitObserved (verifier : V2Verifier) (session : ℕ) (token : SudoToken) (fresh : UInt64)
  | submitSigned (verifier : V2Verifier) (session : ℕ) (token : SudoToken) (nonce : Bytes32)
      (fresh : UInt64)
  | submitStored (verifier : V2Verifier) (session : ℕ) (token : SudoToken)
      (invocation : SudoLocalInvocation)
  | submitConfirm (verifier : V2Verifier) (session : ℕ) (token : SudoToken)
      (invocation : SudoLocalInvocation) (fresh : UInt64)
  | consumed (verified : VerifiedSudoGrant) (number : ℕ)
  | consumeConfirm (verified : VerifiedSudoGrant) (number : ℕ) (fresh : UInt64)
  | done

/-- What a section reads: the clock outside of a transaction, up to two readings inside, and random
bytes. -/
structure Input where
  now : Option UInt64
  first : Option UInt64
  second : Option UInt64
  random : Option Bytes32

inductive Outcome where
  | session (index : ℕ)
  | challenge (challenge : SudoChallenge)
  | invocation (invocation : SudoLocalInvocation)
  | granted (verified : VerifiedSudoGrant) (number : ℕ)

/-- How a section ends: with a statement, and where the operation goes on if it succeeds, or with the
result of the operation. -/
inductive Action where
  | ask (statement : Statement) (next : Reply → Task)
  | finish (outcome : Outcome)
  | stay

inductive Output where
  | idle
  | asked (statement : Statement) (answer : Except LocalError Reply)
  | returned (result : Except LocalError Outcome)

/-! ## Operations -/

section Operations

variable (env : Primitives)

def makeGrant (verifier : V2Verifier) (session : V2Session) (publicKey : Bytes32) :
    Except LocalError SudoGrant := do
  let policy := verifier.config.policy
  let host ← orError policy.hosts[verifier.config.hostNodeId]? .configuration
  let identity ← orError host.callers[session.uid]? .context
  let manifestDigest ← (policy.manifest.digest env).mapError fun _ => .configuration
  let policyDigest ← (policy.digest env).mapError fun _ => .configuration
  pure
    { schemaVersion := sudoSchemaVersion
      clusterId := policy.manifest.clusterId
      hostNodeId := verifier.config.hostNodeId
      callerUid := session.uid
      runasUid := 0
      identity
      attestationKeyEpoch := host.attestationKeyEpoch
      requesterPublicKey := publicKey
      manifestEpoch := policy.manifest.epoch
      manifestDigest
      policyDigest
      nonce := session.nonce
      issuedAt := session.issuedAt
      expiresAt := session.expiresAt }

def observedNow (fresh : UInt64) (reading : Option UInt64) : Except LocalError UInt64 := do
  let after ← orError reading .time
  rejectIf (after < fresh) .time
  pure after

def askTime (input : Input) (next : UInt64 → Task) : Action :=
  .ask (.observe input.first) fun reply =>
    match reply with
    | .observed fresh => next fresh
    | _ => .done

def startOperation (sessions : List V2Session) (input : Input) : Operation → Except LocalError Action
  | .begin verifier uid nonce => do
      let policy ← orError verifier.config.policy.hosts[verifier.config.hostNodeId]? .configuration
      rejectIf (nonce = zero32 ∨ uid ∉ policy.callers) .context
      pure <| .ask (.begin verifier.anchor uid nonce input.first) fun reply =>
        match reply with
        | .begun issuedAt expiresAt number => .begun uid nonce issuedAt expiresAt number
        | _ => .done
  | .bindRequester verifier index publicKey => do
      let session ← orError sessions[index]? .unavailable
      rejectIf session.challenge.isSome .unavailable
      let grant ← makeGrant env verifier session publicKey
      pure <| askTime input (.bindObserved verifier index grant)
  | .submitToken verifier index token => do
      let session ← orError sessions[index]? .unavailable
      rejectIf (session.redemption.isSome ∨ session.challenge ≠ some token.challenge) .context
      pure <| askTime input (.submitObserved verifier index token)
  | .consume verifier index proof => do
      let session ← orError sessions[index]? .unavailable
      let (token, invocation) ← orError session.redemption .unavailable
      let now ← orError input.now .time
      let verified ← (verifySudoRedemption env verifier.config.policy token invocation proof now).mapError
        fun _ => .signature
      let redemption ← (invocation.proofBytes env token).mapError fun _ => .context
      let challenge ← (token.challenge.signingBytes env).mapError fun _ => .context
      pure <| .ask (.consume verifier.anchor session.uid session.nonce (env.sha256 challenge)
          (env.sha256 redemption) verified input.first input.second) fun reply =>
        match reply with
        | .consumed number => .consumed verified number
        | _ => .done

/-- The section of a task up to its next statement or its end, and what it does to the sessions. -/
def runSection (sessions : List V2Session) (input : Input) :
    Task → Except LocalError (List V2Session × Action)
  | .start operation => do
      let action ← startOperation env sessions input operation
      pure (sessions, action)
  | .begun uid nonce issuedAt expiresAt number => do
      let now ← orError input.now .time
      rejectIf (now < issuedAt) .time
      let session : V2Session := ⟨uid, nonce, issuedAt, expiresAt, none, none, number⟩
      pure (sessions ++ [session], .finish (.session sessions.length))
  | .bindObserved verifier index grant fresh => do
      let session ← orError sessions[index]? .unavailable
      let now ← observedNow fresh input.now
      (grant.validate env verifier.config.policy now).mapError fun _ => .context
      let attestation ← (grant.attestationBytes env).mapError fun _ => .context
      let challenge : SudoChallenge := ⟨grant, verifier.sign attestation⟩
      let bytes ← (challenge.signingBytes env).mapError fun _ => .context
      pure (sessions, .ask
        (.setChallenge verifier.anchor session.uid session.nonce (env.sha256 bytes))
        fun _ => .bindStored verifier index challenge)
  | .bindStored verifier index challenge => do
      let session ← orError sessions[index]? .unavailable
      let bound := { session with challenge := some challenge }
      pure (sessions.set index bound, askTime input (.bindConfirm verifier challenge))
  | .bindConfirm verifier challenge fresh => do
      let now ← observedNow fresh input.now
      (challenge.validate env verifier.config.policy now).mapError fun _ => .time
      pure (sessions, .finish (.challenge challenge))
  | .submitObserved verifier index token fresh => do
      let session ← orError sessions[index]? .unavailable
      let now ← observedNow fresh input.now
      (token.challenge.validate env verifier.config.policy now).mapError fun _ => .context
      let keys ← (verifier.config.policy.manifest.publicKeys env).mapError fun _ => .configuration
      let message ← (token.challenge.signingBytes env).mapError fun _ => .context
      rejectIf (env.verifyGroup keys.verifyingKey message token.signature = false) .signature
      let nonce ← orError input.random .unavailable
      rejectIf (nonce = zero32 ∨ nonce = session.nonce) .unavailable
      pure (sessions, askTime input (.submitSigned verifier index token nonce))
  | .submitSigned verifier index token nonce fresh => do
      let session ← orError sessions[index]? .unavailable
      let issuedAt ← observedNow fresh input.now
      let invocation : SudoLocalInvocation :=
        ⟨verifier.config.hostNodeId, session.uid, 0, nonce, issuedAt, session.expiresAt⟩
      let bytes ← (invocation.proofBytes env token).mapError fun _ => .context
      pure (sessions, .ask
        (.setRedemption verifier.anchor session.uid session.nonce (env.sha256 bytes))
        fun _ => .submitStored verifier index token invocation)
  | .submitStored verifier index token invocation =>
    pure (sessions, askTime input (.submitConfirm verifier index token invocation))
  | .submitConfirm verifier index token invocation fresh => do
      let session ← orError sessions[index]? .unavailable
      let now ← observedNow fresh input.now
      (token.challenge.validate env verifier.config.policy now).mapError fun _ => .time
      let submitted := { session with redemption := some (token, invocation) }
      pure (sessions.set index submitted, .finish (.invocation invocation))
  | .consumed verified number => pure (sessions, askTime input (.consumeConfirm verified number))
  | .consumeConfirm verified number fresh => do
      let now ← observedNow fresh input.now
      (verified.validateAt now).mapError fun _ => .time
      pure (sessions, .finish (.granted verified number))
  | .done => pure (sessions, .stay)

/-- The operation waits for the answer to its statement; an error ends it. -/
def perform (ledger : Ledger) (sessions : List V2Session) : Action → Output × Host × Task
  | .ask statement next =>
    (.asked statement (ledger.step statement).1, ⟨(ledger.step statement).2, sessions⟩,
      match (ledger.step statement).1 with
      | .ok reply => next reply
      | .error _ => .done)
  | .finish outcome => (.returned (.ok outcome), ⟨ledger, sessions⟩, .done)
  | .stay => (.idle, ⟨ledger, sessions⟩, .done)

def advance (host : Host) (task : Task) (input : Input) : Output × Host × Task :=
  match runSection env host.sessions input task with
  | .ok (sessions, action) => perform host.ledger sessions action
  | .error error => (.returned (.error error), host, .done)

end Operations

inductive LocalEvent where
  | start (operation : Operation)
  | resume (turn : ℕ) (input : Input)

def LocalEvent.toTask : LocalEvent → Tasks.Event Task Input
  | .start operation => .start (.start operation)
  | .resume turn input => .resume turn input

abbrev LocalSystem := Tasks.System Host Task

def LocalSystem.step (env : Primitives) (s : LocalSystem) (event : LocalEvent) :
    Output × LocalSystem :=
  Tasks.step (advance env) .idle s event.toTask

def Output.call : Output → Option (Statement × Except LocalError Reply)
  | .asked statement answer => some (statement, answer)
  | _ => none

def LocalSystem.new (anchor : Bytes32) (now : UInt64) : LocalSystem := ⟨⟨.new anchor now, []⟩, []⟩

/-! ## What operations keep -/

structure GrantOf (session : V2Session) (grant : SudoGrant) : Prop where
  callerUid : grant.callerUid = session.uid
  nonce : grant.nonce = session.nonce
  issuedAt : grant.issuedAt = session.issuedAt
  expiresAt : grant.expiresAt = session.expiresAt

structure SameSession (session next : V2Session) : Prop where
  uid : next.uid = session.uid
  nonce : next.nonce = session.nonce
  issuedAt : next.issuedAt = session.issuedAt
  expiresAt : next.expiresAt = session.expiresAt
  number : next.number = session.number

structure SessionGood (ledger : Ledger) (session : V2Session) : Prop where
  keeps : ledger.Keeps session.uid session.nonce session.expiresAt session.number
  challenge : ∀ challenge, session.challenge = some challenge → GrantOf session challenge.grant
  redemption : ∀ token invocation, session.redemption = some (token, invocation) →
    GrantOf session token.challenge.grant

structure Good (host : Host) : Prop where
  valid : host.ledger.Valid
  sessions : ∀ session ∈ host.sessions, SessionGood host.ledger session

def HasGrant (host : Host) (index : ℕ) (grant : SudoGrant) : Prop :=
  ∃ session, host.sessions[index]? = some session ∧ GrantOf session grant

def TaskGood (host : Host) : Task → Prop
  | .begun uid nonce _ expiresAt number => host.ledger.Keeps uid nonce expiresAt number
  | .bindObserved _ index grant _ => HasGrant host index grant
  | .bindStored _ index challenge => HasGrant host index challenge.grant
  | .submitObserved _ index token _ => HasGrant host index token.challenge.grant
  | .submitSigned _ index token _ _ => HasGrant host index token.challenge.grant
  | .submitStored _ index token _ => HasGrant host index token.challenge.grant
  | .submitConfirm _ index token _ _ => HasGrant host index token.challenge.grant
  | _ => True

structure Grows (host next : Host) : Prop where
  ledger : Ledger.Change host.ledger next.ledger
  sessions : ∀ (index : ℕ) (session : V2Session), host.sessions[index]? = some session →
    ∃ session', next.sessions[index]? = some session' ∧ SameSession session session'

section Invariant

variable {env : Primitives} {host next : Host} {session : V2Session} {grant : SudoGrant} {index : ℕ}
  {task : Task} {input : Input}

lemma SameSession.refl (session : V2Session) : SameSession session session := ⟨rfl, rfl, rfl, rfl, rfl⟩

variable {session' : V2Session} {ledger : Ledger}

lemma SameSession.grantOf (h : SameSession session session')
    (hgrant : GrantOf session grant) : GrantOf session' grant where
  callerUid := hgrant.callerUid.trans h.uid.symm
  nonce := hgrant.nonce.trans h.nonce.symm
  issuedAt := hgrant.issuedAt.trans h.issuedAt.symm
  expiresAt := hgrant.expiresAt.trans h.expiresAt.symm

lemma change_refl (ledger : Ledger) : Change ledger ledger := .raise (UInt64.le_refl _)

lemma Ledger.Change.grows (h : Change host.ledger ledger) : Grows host { host with ledger } :=
  ⟨h, fun _ session hsession => ⟨session, hsession, .refl session⟩⟩

lemma Grows.hasGrant (h : Grows host next) (hgrant : HasGrant host index grant) :
    HasGrant next index grant := by
  obtain ⟨session, hsession, hgrant⟩ := hgrant
  obtain ⟨session', hsession', hsame⟩ := h.sessions index session hsession
  exact ⟨session', hsession', hsame.grantOf hgrant⟩

lemma Grows.taskGood (h : Grows host next) (htask : TaskGood host task) : TaskGood next task := by
  cases task with
  | begun uid nonce issuedAt expiresAt number => exact h.ledger.keeps htask
  | bindObserved | bindStored | submitObserved | submitSigned | submitStored | submitConfirm =>
    exact h.hasGrant htask
  | _ => trivial

structure Advances (host : Host) (result : Output × Host × Task) : Prop where
  grows : Grows host result.2.1
  good : Good result.2.1
  task : TaskGood result.2.1 result.2.2

lemma SessionGood.change {ledger ledger' : Ledger} (h : SessionGood ledger session)
    (hchange : Change ledger ledger') : SessionGood ledger' session where
  keeps := hchange.keeps h.keeps
  challenge := h.challenge
  redemption := h.redemption

lemma advances_ask (hgood : Good host) {statement : Statement} {next : Reply → Task}
    (hnext : ∀ reply, (host.ledger.step statement).1 = .ok reply →
      TaskGood { host with ledger := (host.ledger.step statement).2 } (next reply)) :
    Advances host (perform host.ledger host.sessions (.ask statement next)) where
  grows := step_change.grows
  good := ⟨step_change.valid hgood.valid,
    fun session h => (hgood.sessions session h).change step_change⟩
  task := by
    rw [perform]
    cases hanswer : (host.ledger.step statement).1 with
    | ok reply => exact hnext reply hanswer
    | error error => trivial

lemma advances_askTime (hgood : Good host) {next : UInt64 → Task}
    (hnext : ∀ fresh, TaskGood host (next fresh)) :
    Advances host (perform host.ledger host.sessions (askTime input next)) := by
  refine advances_ask hgood fun reply _ => ?_
  cases reply with
  | observed fresh => exact step_change.grows.taskGood (hnext fresh)
  | _ => trivial

lemma Grows.advances {result : Output × Host × Task} (h : Grows host next)
    (hchange : next.ledger = host.ledger) (hresult : Advances next result) : Advances host result where
  grows := by
    refine ⟨hchange ▸ hresult.grows.ledger, fun index session hsession => ?_⟩
    obtain ⟨session', hsession', hsame⟩ := h.sessions index session hsession
    obtain ⟨session'', hsession'', hsame'⟩ := hresult.grows.sessions index session' hsession'
    exact ⟨session'', hsession'', hsame'.uid.trans hsame.uid, hsame'.nonce.trans hsame.nonce,
      hsame'.issuedAt.trans hsame.issuedAt, hsame'.expiresAt.trans hsame.expiresAt,
      hsame'.number.trans hsame.number⟩
  good := hresult.good
  task := hresult.task

lemma grows_set (hgood : Good host)
    (hsession : host.sessions[index]? = some session) (hsame : SameSession session session')
    (hnew : SessionGood host.ledger session') :
    Grows host { host with sessions := host.sessions.set index session' } ∧
      Good { host with sessions := host.sessions.set index session' } := by
  refine ⟨⟨change_refl _, fun other old hold => ?_⟩, ⟨hgood.valid, fun old hold => ?_⟩⟩
  · by_cases hindex : index = other
    · subst hindex
      obtain rfl := Option.some.inj (hsession.symm.trans hold)
      have hlt : index < host.sessions.length := (List.getElem?_eq_some_iff.mp hold).1
      exact ⟨session', getElem?_set_self hlt, hsame⟩
    · exact ⟨old, (getElem?_set_ne hindex).trans hold, .refl old⟩
  · rcases mem_or_eq_of_mem_set hold with hold | rfl
    · exact hgood.sessions old hold
    · exact hnew

lemma SessionGood.bind {challenge : SudoChallenge} (h : SessionGood ledger session)
    (hgrant : GrantOf session challenge.grant) :
    SameSession session { session with challenge := some challenge } ∧
      SessionGood ledger { session with challenge := some challenge } := by
  have hsame : SameSession session { session with challenge := some challenge } :=
    ⟨rfl, rfl, rfl, rfl, rfl⟩
  refine ⟨hsame, h.keeps, fun other hother => ?_, fun token invocation hredemption => ?_⟩
  · rw [← Option.some.inj hother]
    exact hsame.grantOf hgrant
  · exact hsame.grantOf (h.redemption token invocation hredemption)

lemma SessionGood.submit {token : SudoToken} (h : SessionGood ledger session)
    (hgrant : GrantOf session token.challenge.grant) :
    (∀ {invocation}, SameSession session { session with redemption := some (token, invocation) }) ∧
      ∀ invocation, SessionGood ledger { session with redemption := some (token, invocation) } := by
  have hsame : ∀ {invocation},
      SameSession session { session with redemption := some (token, invocation) } :=
    ⟨rfl, rfl, rfl, rfl, rfl⟩
  refine ⟨hsame, fun invocation => ⟨h.keeps, fun challenge hchallenge => ?_, ?_⟩⟩
  · exact hsame.grantOf (h.challenge challenge hchallenge)
  · intro other invocation' hredemption
    obtain ⟨rfl, -⟩ := Prod.mk.inj (Option.some.inj hredemption)
    exact hsame.grantOf hgrant

lemma grows_append (hgood : Good host) (hnew : SessionGood host.ledger session) :
    Grows host { host with sessions := host.sessions ++ [session] } ∧
      Good { host with sessions := host.sessions ++ [session] } := by
  refine ⟨⟨change_refl _, fun index old hold => ⟨old, ?_, .refl old⟩⟩, ⟨hgood.valid, fun old hold => ?_⟩⟩
  · have hlt : index < host.sessions.length := (List.getElem?_eq_some_iff.mp hold).1
    exact (getElem?_append_left hlt).trans hold
  · rcases mem_append.mp hold with hold | hold
    · exact hgood.sessions old hold
    · rwa [mem_singleton.mp hold]

lemma makeGrant_eq_ok {verifier : V2Verifier} {publicKey : Bytes32}
    (h : makeGrant env verifier session publicKey = .ok grant) : GrantOf session grant := by
  simp only [makeGrant, bind_eq_ok, pure_eq_ok_iff] at h
  obtain ⟨_, -, _, -, _, -, _, -, rfl⟩ := h
  exact ⟨rfl, rfl, rfl, rfl⟩

lemma sessionGood_of_getElem? (hgood : Good host) (hsession : host.sessions[index]? = some session) :
    SessionGood host.ledger session :=
  hgood.sessions session (mem_of_getElem? hsession)

lemma startOperation_advances {operation : Operation} {action : Action}
    (hgood : Good host) (h : startOperation env host.sessions input operation = .ok action) :
    Advances host (perform host.ledger host.sessions action) := by
  cases operation with (simp only [startOperation, bind_eq_ok, orError_eq_ok, pure_eq_ok_iff,
    rejectIf_eq_ok, not_or, not_not] at h)
  | begin verifier uid nonce =>
    obtain ⟨_, -, _, -, rfl⟩ := h
    refine advances_ask hgood fun reply hanswer => ?_
    cases reply with
    | begun issuedAt expiresAt number =>
      obtain ⟨_, _, _, hstatement, rfl, rfl, hbegins⟩ := exists_begins hanswer
      obtain ⟨-, rfl, rfl, -⟩ := Statement.begin.inj hstatement
      exact hbegins.keeps
    | _ => trivial
  | bindRequester verifier index publicKey =>
    obtain ⟨session, hsession, _, -, grant, hgrant, rfl⟩ := h
    exact advances_askTime hgood fun fresh => ⟨session, hsession, makeGrant_eq_ok hgrant⟩
  | submitToken verifier index token =>
    obtain ⟨session, hsession, _, ⟨-, hchallenge⟩, rfl⟩ := h
    exact advances_askTime hgood fun fresh =>
      ⟨session, hsession, (sessionGood_of_getElem? hgood hsession).challenge _ hchallenge⟩
  | consume verifier index proof =>
    obtain ⟨_, -, _, -, _, -, _, -, _, -, _, -, rfl⟩ := h
    refine advances_ask hgood fun reply _ => ?_
    cases reply with
    | _ => trivial

lemma runSection_advances {sessions : List V2Session} {action : Action} (hgood : Good host)
    (htask : TaskGood host task)
    (h : runSection env host.sessions input task = .ok (sessions, action)) :
    Advances host (perform host.ledger sessions action) := by
  cases task with (simp only [runSection, bind_eq_ok, orError_eq_ok, pure_eq_ok_iff, Prod.mk.injEq] at h)
  | start operation =>
    obtain ⟨action, haction, rfl, rfl⟩ := h
    exact startOperation_advances hgood haction
  | begun uid nonce issuedAt expiresAt number =>
    obtain ⟨_, -, _, -, rfl, rfl⟩ := h
    have hnew : SessionGood host.ledger ⟨uid, nonce, issuedAt, expiresAt, none, none, number⟩ :=
      ⟨htask, by simp, by simp⟩
    obtain ⟨hgrows, hgood⟩ := grows_append hgood hnew
    exact ⟨hgrows, hgood, trivial⟩
  | bindObserved verifier index grant fresh =>
    obtain ⟨_, -, _, -, _, -, _, -, _, -, rfl, rfl⟩ := h
    exact advances_ask hgood fun reply _ => step_change.grows.hasGrant htask
  | bindStored verifier index challenge =>
    obtain ⟨session, hsession, rfl, rfl⟩ := h
    obtain ⟨_, hsession', hgrant⟩ := htask
    obtain rfl := Option.some.inj (hsession.symm.trans hsession')
    obtain ⟨hsame, hnew⟩ := (sessionGood_of_getElem? hgood hsession).bind hgrant
    obtain ⟨hgrows, hgood⟩ := grows_set hgood hsession hsame hnew
    exact hgrows.advances rfl (advances_askTime hgood fun _ => trivial)
  | bindConfirm | consumeConfirm =>
    obtain ⟨_, -, _, -, rfl, rfl⟩ := h
    exact ⟨(change_refl _).grows, hgood, trivial⟩
  | submitObserved verifier index token fresh =>
    obtain ⟨_, -, _, -, _, -, _, -, _, -, _, -, _, -, _, -, rfl, rfl⟩ := h
    exact advances_askTime hgood fun _ => htask
  | submitSigned verifier index token nonce fresh =>
    obtain ⟨_, -, _, -, _, -, rfl, rfl⟩ := h
    exact advances_ask hgood fun reply _ => step_change.grows.hasGrant htask
  | submitStored verifier index token invocation =>
    obtain ⟨rfl, rfl⟩ := h
    exact advances_askTime hgood fun _ => htask
  | submitConfirm verifier index token invocation fresh =>
    obtain ⟨session, hsession, _, -, _, -, rfl, rfl⟩ := h
    obtain ⟨_, hsession', hgrant⟩ := htask
    obtain rfl := Option.some.inj (hsession.symm.trans hsession')
    obtain ⟨hsame, hnew⟩ := (sessionGood_of_getElem? hgood hsession).submit hgrant
    obtain ⟨hgrows, hgood⟩ := grows_set hgood hsession hsame (hnew invocation)
    exact ⟨hgrows, hgood, trivial⟩
  | consumed verified number =>
    obtain ⟨rfl, rfl⟩ := h
    exact advances_askTime hgood fun _ => trivial
  | done =>
    obtain ⟨rfl, rfl⟩ := h
    exact ⟨(change_refl _).grows, hgood, trivial⟩

lemma advance_advances (hgood : Good host) (htask : TaskGood host task) :
    Advances host (advance env host task input) := by
  rw [advance]
  cases hsection : runSection env host.sessions input task with
  | ok result => exact runSection_advances hgood htask hsection
  | error error => exact ⟨(change_refl _).grows, hgood, trivial⟩

structure SystemGood (s : LocalSystem) : Prop where
  host : Good s.shared
  tasks : ∀ task ∈ s.tasks, TaskGood s.shared task

/-- Whatever runs next, every session and every suspended operation can go on as before. -/
theorem step_good {s : LocalSystem} {event : LocalEvent} (h : SystemGood s) :
    SystemGood (s.step env event).2 ∧ Grows s.shared (s.step env event).2.shared := by
  rw [LocalSystem.step]
  rcases Tasks.step_cases (advance env) .idle s event.toTask with
    ⟨turn, input, task, -, htask, heq⟩ | ⟨-, hshared, htasks⟩
  · rw [heq]
    have hadvances : Advances s.shared (advance env s.shared task input) :=
      advance_advances h.host (h.tasks task (mem_of_getElem? htask))
    refine ⟨⟨hadvances.good, fun other hother => ?_⟩, hadvances.grows⟩
    rcases mem_or_eq_of_mem_set hother with hother | rfl
    · exact hadvances.grows.taskGood (h.tasks other hother)
    · exact hadvances.task
  · refine ⟨⟨hshared ▸ h.host, fun task htask => ?_⟩, hshared ▸ (change_refl _).grows⟩
    rw [hshared]
    rcases htasks task htask with hold | hstart
    · exact h.tasks task hold
    · cases event with
      | start operation =>
        obtain rfl := Tasks.Event.start.inj hstart
        trivial
      | resume turn input => cases hstart

end Invariant

/-! ## Consumption -/

/-- The begin that an operation has consumed and not yet granted. -/
def Task.pending : Task → Option ℕ
  | .consumed _ number => some number
  | .consumeConfirm _ number _ => some number
  | _ => none

def Action.Quiet : Action → Prop
  | .ask (.consume _ _ _ _ _ _ _ _) _ => False
  | .ask _ next => ∀ reply, (next reply).pending = none
  | .finish (.granted _ _) => False
  | .finish _ | .stay => True

def askConsume (anchor : Bytes32) (session : V2Session) (challenge redemption : Bytes32)
    (verified : VerifiedSudoGrant) (input : Input) : Action :=
  .ask (.consume anchor session.uid session.nonce challenge redemption verified input.first
      input.second) fun reply =>
    match reply with
    | .consumed number => .consumed verified number
    | _ => .done

section Consumption

variable {env : Primitives} {sessions : List V2Session} {task : Task} {input : Input}

structure Redeems (env : Primitives) (session : V2Session) (token : SudoToken)
    (invocation : SudoLocalInvocation) (challenge redemption : Bytes32) (verified : VerifiedSudoGrant) :
    Prop where
  redemption_eq : session.redemption = some (token, invocation)
  verified_eq : verified = ⟨token.challenge.grant, invocation⟩
  challenge_digest : ∃ bytes, token.challenge.signingBytes env = .ok bytes ∧ challenge = env.sha256 bytes
  redemption_digest : ∃ bytes, invocation.proofBytes env token = .ok bytes ∧
    redemption = env.sha256 bytes

lemma quiet_askTime {next : UInt64 → Task} (h : ∀ fresh, (next fresh).pending = none) :
    (askTime input next).Quiet := by
  intro reply
  cases reply with
  | observed fresh => exact h fresh
  | _ => rfl

variable {action : Action}

lemma startOperation_cases {operation : Operation}
    (h : startOperation env sessions input operation = .ok action) :
    action.Quiet ∨ ∃ anchor, ∃ session ∈ sessions, ∃ token invocation challenge redemption verified,
      Redeems env session token invocation challenge redemption verified ∧
      action = askConsume anchor session challenge redemption verified input := by
  cases operation with (simp only [startOperation, bind_eq_ok, orError_eq_ok, mapError_eq_ok,
    pure_eq_ok_iff] at h)
  | begin verifier uid nonce =>
    obtain ⟨_, -, _, -, rfl⟩ := h
    refine .inl fun reply => ?_
    cases reply with
    | _ => rfl
  | bindRequester verifier index publicKey =>
    obtain ⟨_, -, _, -, _, -, rfl⟩ := h
    exact .inl (quiet_askTime fun _ => rfl)
  | submitToken verifier index token =>
    obtain ⟨_, -, _, -, rfl⟩ := h
    exact .inl (quiet_askTime fun _ => rfl)
  | consume verifier index proof =>
    obtain ⟨session, hsession, ⟨token, invocation⟩, hredemption, _, -, verified, hverified,
      redemption, hproof, challenge, hchallenge, rfl⟩ := h
    exact .inr ⟨_, session, mem_of_getElem? hsession, token, invocation, _, _, verified,
      ⟨hredemption, verifySudoRedemption_eq_ok hverified, ⟨challenge, hchallenge, rfl⟩,
        ⟨redemption, hproof, rfl⟩⟩, rfl⟩

lemma runSection_cases {next : List V2Session}
    (h : runSection env sessions input task = .ok (next, action)) :
    action.Quiet ∨
    (∃ anchor, ∃ session ∈ sessions, ∃ token invocation challenge redemption verified,
      Redeems env session token invocation challenge redemption verified ∧
      action = askConsume anchor session challenge redemption verified input) ∨
    (∃ verified number, task = .consumed verified number ∧
      action = askTime input (.consumeConfirm verified number)) ∨
    ∃ verified number fresh, task = .consumeConfirm verified number fresh ∧
      action = .finish (.granted verified number) := by
  cases task with (simp only [runSection, bind_eq_ok, orError_eq_ok, pure_eq_ok_iff, Prod.mk.injEq] at h)
  | start operation =>
    obtain ⟨_, haction, rfl, rfl⟩ := h
    rcases startOperation_cases haction with hquiet | hconsume
    · exact .inl hquiet
    · exact .inr (.inl hconsume)
  | begun | bindConfirm =>
    obtain ⟨_, -, _, -, rfl, rfl⟩ := h
    exact .inl trivial
  | bindObserved verifier index grant fresh =>
    obtain ⟨_, -, _, -, _, -, _, -, _, -, rfl, rfl⟩ := h
    exact .inl fun _ => rfl
  | bindStored verifier index challenge =>
    obtain ⟨_, -, rfl, rfl⟩ := h
    exact .inl (quiet_askTime fun _ => rfl)
  | submitObserved verifier index token fresh =>
    obtain ⟨_, -, _, -, _, -, _, -, _, -, _, -, _, -, _, -, rfl, rfl⟩ := h
    exact .inl (quiet_askTime fun _ => rfl)
  | submitSigned verifier index token nonce fresh =>
    obtain ⟨_, -, _, -, _, -, rfl, rfl⟩ := h
    exact .inl fun _ => rfl
  | submitStored verifier index token invocation =>
    obtain ⟨rfl, rfl⟩ := h
    exact .inl (quiet_askTime fun _ => rfl)
  | submitConfirm verifier index token invocation fresh =>
    obtain ⟨_, -, _, -, _, -, rfl, rfl⟩ := h
    exact .inl trivial
  | consumed verified number =>
    obtain ⟨rfl, rfl⟩ := h
    exact .inr (.inr (.inl ⟨verified, number, rfl, rfl⟩))
  | consumeConfirm verified number fresh =>
    obtain ⟨_, -, _, -, rfl, rfl⟩ := h
    exact .inr (.inr (.inr ⟨verified, number, fresh, rfl, rfl⟩))
  | done =>
    obtain ⟨rfl, rfl⟩ := h
    exact .inl trivial

def Output.grantedNumber : Output → Option ℕ
  | .returned (.ok (.granted _ number)) => some number
  | _ => none

def Output.consumedNumber : Output → Option ℕ
  | .asked _ (.ok (.consumed number)) => some number
  | _ => none

lemma perform_quiet {ledger : Ledger} (h : action.Quiet) :
    (perform ledger sessions action).1.grantedNumber = none ∧
      (perform ledger sessions action).2.2.pending = none := by
  cases action with
  | stay => exact ⟨rfl, rfl⟩
  | finish outcome =>
    cases outcome with
    | granted => exact h.elim
    | _ => exact ⟨rfl, rfl⟩
  | ask statement next =>
    refine ⟨rfl, ?_⟩
    have hnext : ∀ reply, (next reply).pending = none := by
      cases statement with
      | consume => exact h.elim
      | _ => exact h
    rw [perform]
    cases (ledger.step statement).1 with
    | ok reply => exact hnext reply
    | error error => rfl

def indicator (number : ℕ) (o : Option ℕ) : ℕ := if o = some number then 1 else 0

lemma indicator_none (number : ℕ) : indicator number none = 0 := rfl

lemma advance_flow (number : ℕ) (host : Host) (task : Task) (input : Input) :
    indicator number (advance env host task input).1.grantedNumber +
        indicator number (advance env host task input).2.2.pending ≤
      indicator number task.pending +
        indicator number (advance env host task input).1.consumedNumber := by
  rw [advance]
  cases hsection : runSection env host.sessions input task with
  | error error => exact Nat.zero_le _
  | ok result =>
    obtain ⟨sessions, action⟩ := result
    rcases runSection_cases hsection with hquiet | ⟨anchor, session, -, token, invocation, challenge,
      redemption, verified, -, rfl⟩ | ⟨verified, consumed, rfl, rfl⟩ |
      ⟨verified, consumed, fresh, rfl, rfl⟩
    · obtain ⟨hgranted, hpending⟩ := @perform_quiet sessions action host.ledger hquiet
      rw [hgranted, hpending, indicator_none]
      exact Nat.zero_le _
    · simp only [perform, askConsume, Output.grantedNumber, indicator_none, Nat.zero_add]
      generalize (host.ledger.step _).1 = answer
      rcases answer with error | reply
      · exact Nat.zero_le _
      · cases reply with
        | consumed consumed => exact Nat.le_add_left _ _
        | _ => exact Nat.zero_le _
    · simp only [perform, askTime, Output.grantedNumber, indicator_none, Nat.zero_add]
      generalize (host.ledger.step _).1 = answer
      rcases answer with error | reply
      · exact Nat.zero_le _
      · cases reply with
        | observed fresh => exact Nat.le_add_right _ _
        | _ => exact Nat.zero_le _
    · exact Nat.le_refl _

lemma lt_of_validateAt {verified : VerifiedSudoGrant} {now : UInt64}
    (h : verified.validateAt now = .ok ()) : now < verified.grant.expiresAt := by
  simp only [VerifiedSudoGrant.validateAt, lifetime, bind_eq_ok, rejectIf_eq_ok, not_or] at h
  obtain ⟨_, ⟨-, hexpires, -⟩, -⟩ := h
  exact UInt64.not_le.mp hexpires

/-- A token is consumed for the begin it was issued for, with the digests of the row that the begin has
stored, not behind the floor and before the expiry. -/
structure Consumption (env : Primitives) (host : Host) (number : ℕ) (session : V2Session)
    (token : SudoToken) (invocation : SudoLocalInvocation) (row : Invocation) (fresh : UInt64) : Prop where
  session_mem : session ∈ host.sessions
  redemption_eq : session.redemption = some (token, invocation)
  grant : GrantOf session token.challenge.grant
  session_number : session.number = number
  stored : host.ledger.invocations[session.nonce]? = some row
  row_number : row.number = number
  uid : row.uid = session.uid
  expires : row.expires = session.expiresAt
  unconsumed : row.consumed = false
  challenge_digest : ∃ bytes, token.challenge.signingBytes env = .ok bytes ∧
    row.challenge = some (env.sha256 bytes)
  redemption_digest : ∃ bytes, invocation.proofBytes env token = .ok bytes ∧
    row.redemption = some (env.sha256 bytes)
  floor_le : host.ledger.floor ≤ fresh
  live : fresh < row.expires

lemma advance_consumed {host : Host} {statement : Statement} {number : ℕ} (hgood : Good host)
    (h : (advance env host task input).1 = .asked statement (.ok (.consumed number))) :
    ∃ session token invocation row fresh, input.first = some fresh ∧
      Consumption env host number session token invocation row fresh := by
  rw [advance] at h
  cases hsection : runSection env host.sessions input task with
  | error error =>
    rw [hsection] at h
    cases h
  | ok result =>
    obtain ⟨sessions, action⟩ := result
    rw [hsection] at h
    cases action with
    | stay | finish => cases h
    | ask asked next =>
      obtain ⟨rfl, hanswer⟩ := Output.asked.inj h
      obtain ⟨anchor, uid, nonce, challenge, redemption, verified, first, second, fresh, again, row,
        rfl, hfirst, hnumber, hconsumes⟩ := exists_consumes hanswer
      rcases runSection_cases hsection with hquiet | ⟨_, session, hsession, token, invocation, _, _, _,
        hredeems, haction⟩ | ⟨_, _, _, haction⟩ | ⟨_, _, _, _, haction⟩
      · exact hquiet.elim
      · obtain ⟨hstatement, -⟩ := Action.ask.inj haction
        obtain ⟨-, rfl, rfl, rfl, rfl, rfl, rfl, rfl⟩ := Statement.consume.inj hstatement
        obtain rfl := hredeems.verified_eq
        have hsessionGood := hgood.sessions session hsession
        have hgrant := hsessionGood.redemption token invocation hredeems.redemption_eq
        have hlive : fresh < session.expiresAt := by
          rw [← hgrant.expiresAt]
          exact lt_of_validateAt hconsumes.valid
        -- The row is still there: the session has not expired at a time that is not behind the floor.
        have hkeeps : ¬session.expiresAt ≤ host.ledger.floor := fun hexpired =>
          UInt64.not_le.mpr hlive (UInt64.le_trans hexpired hconsumes.floor_le)
        obtain ⟨stored, hstored, huid, hexpires, hsame⟩ := hsessionGood.keeps.resolve_right hkeeps
        obtain rfl := Option.some.inj (hstored.symm.trans hconsumes.stored)
        obtain ⟨signed, hsigned, rfl⟩ := hredeems.challenge_digest
        obtain ⟨proved, hproved, rfl⟩ := hredeems.redemption_digest
        exact ⟨session, token, invocation, stored, fresh, hfirst,
          { session_mem := hsession
            redemption_eq := hredeems.redemption_eq
            grant := hgrant
            session_number := hsame.symm.trans hnumber
            stored := hstored
            row_number := hnumber
            uid := huid
            expires := hexpires
            unconsumed := hconsumes.unconsumed
            challenge_digest := ⟨signed, hsigned, hconsumes.challenge_eq⟩
            redemption_digest := ⟨proved, hproved, hconsumes.redemption_eq⟩
            floor_le := hconsumes.floor_le
            live := hconsumes.live }⟩
      · cases haction
      · cases haction

end Consumption

/-! ## Every run -/

section Run

variable (env : Primitives) (anchor : Bytes32) (now : UInt64) (events : List LocalEvent)

def LocalSystem.after : LocalSystem := exec (LocalSystem.step env) (.new anchor now) events

def LocalSystem.answers : List (Statement × Except LocalError Reply) :=
  calls (LocalSystem.step env) Output.call (.new anchor now) events

def LocalSystem.grants : List ℕ :=
  (trace (LocalSystem.step env) (.new anchor now) events).filterMap fun e => e.2.grantedNumber

def LocalEvent.reading : LocalEvent → Option UInt64
  | .start _ => none
  | .resume _ input => input.first

variable {env anchor now events}

open LocalSystem (after answers grants)

lemma systemGood_after : SystemGood (after env anchor now events) :=
  exec_invariant SystemGood (fun _ _ _ h => (step_good h).1)
    ⟨⟨valid_new anchor now, by simp [LocalSystem.new]⟩, by simp [LocalSystem.new]⟩

lemma after_append (more : List LocalEvent) :
    after env anchor now (events ++ more) =
      exec (LocalSystem.step env) (after env anchor now events) more :=
  exec_append

lemma drives_ledger : Drives (LocalSystem.step env) step (fun s => s.shared.ledger) Output.call := by
  have hadvance : ∀ (host : Host) (task : Task) (input : Input),
      (Output.call (advance env host task input).1 = none →
        (advance env host task input).2.1.ledger = host.ledger) ∧
      ∀ c r, Output.call (advance env host task input).1 = some (c, r) →
        host.ledger.step c = (r, (advance env host task input).2.1.ledger) := by
    intro host task input
    rw [advance]
    cases runSection env host.sessions input task with
    | error error => exact ⟨fun _ => rfl, fun c r h => nomatch h⟩
    | ok result =>
      obtain ⟨sessions, action⟩ := result
      cases action with
      | ask statement next =>
        refine ⟨fun h => (nomatch h), fun c r h => ?_⟩
        obtain ⟨rfl, rfl⟩ := Prod.mk.inj (Option.some.inj h)
        rfl
      | finish | stay => exact ⟨fun _ => rfl, fun c r h => nomatch h⟩
  have htasks : Drives (Tasks.step (advance env) .idle) step (fun s => s.shared.ledger)
      Output.call :=
    Tasks.drives_step rfl (fun host task input => (hadvance host task input).1)
      fun host task input => (hadvance host task input).2
  exact ⟨fun s event => htasks.quiet s event.toTask, fun s event => htasks.answered s event.toTask⟩

lemma answers_eq : answers env anchor now events =
    trace step (.new anchor now) ((answers env anchor now events).map Prod.fst) :=
  drives_ledger.calls_eq

lemma sum_indicator {α : Type} {f : α → Option ℕ} {l : List α} (number : ℕ) :
    (l.map fun a => indicator number (f a)).sum = (l.filterMap f).count number := by
  induction l with
  | nil => rfl
  | cons a l ih =>
    rw [map_cons, sum_cons, ih, filterMap_cons]
    cases hf : f a with
    | none => simp [indicator]
    | some n =>
      by_cases hn : n = number
      · simp [indicator, hn, Nat.add_comm]
      · simp [indicator, hn]

lemma step_flow (number : ℕ) (s : LocalSystem) (event : LocalEvent) :
    indicator number (s.step env event).1.grantedNumber +
        ((s.step env event).2.tasks.map fun task => indicator number task.pending).sum ≤
      (s.tasks.map fun task => indicator number task.pending).sum +
        indicator number (s.step env event).1.consumedNumber := by
  refine @Tasks.step_flow _ _ _ _ (advance env) .idle s (fun task => indicator number task.pending)
    (fun out => indicator number out.consumedNumber) (fun out => indicator number out.grantedNumber)
    event.toTask rfl (fun task hstart => ?_) (advance_flow number)
  cases event with
  | start operation =>
    obtain rfl := Tasks.Event.start.inj hstart
    rfl
  | resume turn input => cases hstart

lemma count_grants_le (number : ℕ) :
    (grants env anchor now events).count number ≤
      (consumedNumbers (answers env anchor now events)).count number := by
  have hconsumed : consumedNumbers (answers env anchor now events) =
      (trace (LocalSystem.step env) (.new anchor now) events).filterMap
        fun e => e.2.consumedNumber := by
    rw [answers, calls, consumedNumbers, filterMap_filterMap]
    congr 1
    funext e
    rcases e.2 with _ | ⟨statement, _ | reply⟩ | result
    · rfl
    · rfl
    · cases reply with
      | _ => rfl
    · rfl
  have hflow := @trace_flow _ _ _ (LocalSystem.step env) (.new anchor now) events
    (fun out => indicator number out.consumedNumber) (fun out => indicator number out.grantedNumber)
    (fun s => (s.tasks.map fun task => indicator number task.pending).sum) fun s event =>
      step_flow number s event
  have hheld : ((LocalSystem.new anchor now).tasks.map fun task => indicator number task.pending).sum =
      0 := rfl
  rw [grants, hconsumed, ← sum_indicator, ← sum_indicator]
  omega

lemma after_concat (event : LocalEvent) : after env anchor now (events ++ [event]) =
    ((after env anchor now events).step env event).2 :=
  after_append [event]

lemma after_invariant {P : Ledger → Prop}
    (hP : ∀ ledger next, Change ledger next → P ledger → P next)
    (h : P (after env anchor now events).shared.ledger) (more : List LocalEvent) :
    P (after env anchor now (events ++ more)).shared.ledger := by
  rw [after_append]
  refine (exec_invariant (fun s => SystemGood s ∧ P s.shared.ledger) (fun event _ s hs => ?_)
    ⟨systemGood_after, h⟩).2
  obtain ⟨hgood, hgrows⟩ := @step_good env s event hs.1
  exact ⟨hgood, hP _ _ hgrows.ledger hs.2⟩

variable {event : LocalEvent} {number : ℕ}

lemma after_consumed {statement : Statement}
    (h : ((after env anchor now events).step env event).1 =
      .asked statement (.ok (.consumed number))) :
    ∃ session token invocation row fresh, event.reading = some fresh ∧
      Consumption env (after env anchor now events).shared number session token invocation row
        fresh := by
  rw [LocalSystem.step] at h
  rcases Tasks.step_cases (advance env) .idle (after env anchor now events) event.toTask with
    ⟨turn, input, task, hevent, -, heq⟩ | ⟨hidle, -, -⟩
  · rw [heq] at h
    cases event with
    | start operation => cases hevent
    | resume turn' input' =>
      obtain ⟨-, rfl⟩ := Tasks.Event.resume.inj hevent
      exact advance_consumed systemGood_after.host h
  · rw [hidle] at h
    cases h

lemma after_begins {verifier nonce : Bytes32} {uid : UInt32}
    {reading : Option UInt64} {issuedAt expiresAt : UInt64}
    (h : ((after env anchor now events).step env event).1 =
      .asked (.begin verifier uid nonce reading) (.ok (.begun issuedAt expiresAt number))) :
    number = (after env anchor now events).shared.ledger.begins ∧
      expiresAt = issuedAt + maxSudoTtlSecs ∧
      Begins (after env anchor now events).shared.ledger uid nonce issuedAt
        (after env anchor now (events ++ [event])).shared.ledger := by
  have hstep := drives_ledger.answered _ event _ _ (congrArg Output.call h)
  obtain ⟨_, _, _, hstatement, hexpires, hnumber, hbegins⟩ := exists_begins (congrArg Prod.fst hstep)
  obtain ⟨-, rfl, rfl, -⟩ := Statement.begin.inj hstatement
  rw [hstep] at hbegins
  rw [after_concat]
  exact ⟨hnumber, hexpires, hbegins⟩

lemma retired_of_begun_again {before between rest : List LocalEvent} {begun again : LocalEvent}
    {verifier verifier' nonce : Bytes32} {uid uid' : UInt32} {reading reading' : Option UInt64}
    {issuedAt expiresAt issuedAt' expiresAt' : UInt64} {number number' : ℕ}
    (hbegun : ((after env anchor now before).step env begun).1 =
      .asked (.begin verifier uid nonce reading) (.ok (.begun issuedAt expiresAt number)))
    (hagain : ((after env anchor now (before ++ begun :: between)).step env again).1 =
      .asked (.begin verifier' uid' nonce reading') (.ok (.begun issuedAt' expiresAt' number')))
    (hevents : events = before ++ begun :: between ++ again :: rest) :
    Retired (after env anchor now events).shared.ledger number ∧
      expiresAt ≤ (after env anchor now events).shared.ledger.floor := by
  obtain ⟨rfl, rfl, hbegins⟩ := after_begins hbegun
  obtain ⟨-, -, hbegins'⟩ := after_begins hagain
  have hplaced := after_invariant (fun _ _ h => h.placed)
    (hbegins.placed systemGood_after.host.valid.numbered) between
  have hkeeps := after_invariant (fun _ _ h => h.keeps) hbegins.keeps (between ++ [again])
  rw [← append_cons] at hplaced
  rw [← append_assoc, ← append_cons] at hkeeps
  rw [hevents, append_cons _ again]
  exact ⟨after_invariant (fun _ _ h => h.retired) (hbegins'.retired hplaced) rest,
    after_invariant (fun _ _ h hle => UInt64.le_trans hle h.floor_le) (hbegins'.expired hplaced hkeeps)
      rest⟩

/-- **The ledger gives single use, whatever the clock does.** -/
theorem local_sudo_single_use (env : Primitives) (anchor : Bytes32) (now : UInt64)
    (events : List LocalEvent) :
    -- A begin is consumed once and granted once.
    (Ledger.consumedNumbers (LocalSystem.answers env anchor now events)).Nodup ∧
    (LocalSystem.grants env anchor now events).Nodup ∧
    -- It is consumed with the digests of its own row, at a time between the floor and the expiry.
    (∀ event statement number, ((LocalSystem.after env anchor now events).step env event).1 =
        .asked statement (.ok (.consumed number)) →
      ∃ session token invocation row fresh, event.reading = some fresh ∧
        Consumption env (LocalSystem.after env anchor now events).shared number session token invocation
          row fresh) ∧
    -- The floor does not go back.
    (∀ more, (LocalSystem.after env anchor now events).shared.ledger.floor ≤
      (LocalSystem.after env anchor now (events ++ more)).shared.ledger.floor) ∧
    -- Only rows that have expired are deleted.
    (∀ (event : LocalEvent) (nonce : Bytes32) (row : Invocation),
      (LocalSystem.after env anchor now events).shared.ledger.invocations[nonce]? = some row →
      (LocalSystem.after env anchor now (events ++ [event])).shared.ledger.floor < row.expires →
      ∃ row', (LocalSystem.after env anchor now (events ++ [event])).shared.ledger.invocations[nonce]? =
        some row' ∧ row'.number = row.number) ∧
    (LocalSystem.after env anchor now events).shared.ledger.invocations.size ≤ 1024 ∧
    -- When the nonce of a begin has been used again, neither the begin nor a token for it is consumed.
    (∀ before begun between again after verifier uid nonce reading issuedAt expiresAt number verifier'
        uid' reading' issuedAt' expiresAt' number',
      events = before ++ begun :: between ++ again :: after →
      ((LocalSystem.after env anchor now before).step env begun).1 =
        .asked (.begin verifier uid nonce reading) (.ok (.begun issuedAt expiresAt number)) →
      ((LocalSystem.after env anchor now (before ++ begun :: between)).step env again).1 =
        .asked (.begin verifier' uid' nonce reading') (.ok (.begun issuedAt' expiresAt' number')) →
      ∀ consumed session token invocation row fresh,
        Consumption env (LocalSystem.after env anchor now events).shared consumed session token invocation
          row fresh →
        consumed ≠ number ∧ expiresAt < token.challenge.grant.expiresAt) := by
  have hconsumed : (Ledger.consumedNumbers (LocalSystem.answers env anchor now events)).Nodup := by
    rw [answers_eq]
    exact Ledger.consumed_nodup (Ledger.valid_new anchor now)
  refine ⟨hconsumed, ?_, fun event statement number h => after_consumed h, fun more => ?_, ?_,
    systemGood_after.host.valid.capacity, ?_⟩
  · rw [List.nodup_iff_count_le_one] at hconsumed ⊢
    exact fun number => (count_grants_le number).trans (hconsumed number)
  · exact after_invariant (fun _ _ h hle => UInt64.le_trans hle h.floor_le) (UInt64.le_refl _) more
  · intro event nonce row hrow hlive
    have hkeeps := after_invariant (fun _ _ h => h.keeps)
      (Or.inl ⟨row, hrow, rfl, rfl, rfl⟩ : Ledger.Keeps _ row.uid nonce row.expires row.number) [event]
    obtain ⟨row', hrow', -, -, hnumber⟩ := hkeeps.resolve_right (UInt64.not_le.mpr hlive)
    exact ⟨row', hrow', hnumber⟩
  · intro before begun between again after verifier uid nonce reading issuedAt expiresAt number verifier'
      uid' reading' issuedAt' expiresAt' number' hevents hbegun hagain consumed session token invocation row
      fresh hconsumption
    obtain ⟨hretired, hexpired⟩ := retired_of_begun_again hbegun hagain hevents
    constructor
    · rintro rfl
      have hdone := hretired.2 _ row hconsumption.stored hconsumption.row_number
      rw [hconsumption.unconsumed] at hdone
      cases hdone
    · rw [hconsumption.grant.expiresAt, ← hconsumption.expires]
      exact UInt64.lt_of_le_of_lt (UInt64.le_trans hexpired hconsumption.floor_le) hconsumption.live

end Run

end HeteroNetwork.Quorum
