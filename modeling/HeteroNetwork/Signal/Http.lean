import HeteroNetwork.Lib.Tasks
import HeteroNetwork.ControlPlane.RequestAuth
import HeteroNetwork.Signal.Acl

/-!
# Requests to the signal service

A request reads the clock once, at its start, and is then suspended at every lock, at every call of the
registry and while the control plane is asked for the node.  It prunes the ledger of accepted nonces by its
own reading, and others have pruned it by theirs.
-/

namespace HeteroNetwork

open Checked OrderedMap ExpiringMap ControlPlane

namespace Signal

/-! ## Requests -/

inductive SignalNodeAuthenticationError where
  | rejected (detail : String)
  | unavailable (detail : String)
  | invalidResponse (detail : String)
deriving DecidableEq

inductive ApiError where
  | signal (error : SignalError)
  | badRequest (message : String)
  | authentication (error : SignalNodeAuthenticationError)
  | unauthorized (message : String)
  | replay (message : String)
  | authenticationCapacity
deriving DecidableEq

/-- The three kinds of requests that carry a signature; `body` is the rest of the request. -/
inductive SignalRequest where
  | upsertNode (pathNodeId nodeId : NodeId) (body : String)
      (requestSignature : Option NodeApiRequestSignature)
  | negotiate (source target : NodeId) (body : String)
      (requestSignature : Option NodeApiRequestSignature)
  | holePunchPlan (source target : NodeId) (requestSignature : Option NodeApiRequestSignature)
deriving DecidableEq

namespace SignalRequest

def requestSignature : SignalRequest → Option NodeApiRequestSignature
  | upsertNode _ _ _ signature => signature
  | negotiate _ _ _ signature => signature
  | holePunchPlan _ _ signature => signature

def source : SignalRequest → NodeId
  | upsertNode _ nodeId _ _ => nodeId
  | negotiate source _ _ _ => source
  | holePunchPlan source _ _ => source

def target : SignalRequest → NodeId
  | upsertNode _ nodeId _ _ => nodeId
  | negotiate _ target _ _ => target
  | holePunchPlan _ target _ => target

def rejectedText : SignalRequest → String
  | upsertNode .. => ""
  | negotiate .. => "signal path request signature was rejected"
  | holePunchPlan .. => "signal hole-punch signature was rejected"

def requiredText : SignalRequest → String
  | upsertNode .. => "signal node request signature is required"
  | negotiate .. => "signal path request signature is required"
  | holePunchPlan .. => "signal hole-punch signature is required"

end SignalRequest

/-! ## The ledger of nonces -/

def skew : ℤ := 300 * 1000000000

def maxAcceptedSignalRequestNonces : ℕ := 131072

abbrev AcceptedNonceLedger := Std.TreeMap (NodeId × String) Timestamp

structure NonceCall where
  nodeId : NodeId
  signature : NodeApiRequestSignature
  now : Timestamp
deriving DecidableEq

def nonceIsValid (nonce : String) : Bool :=
  (utf8 nonce).length = 32 && (utf8 nonce).all fun byte =>
    (48 ≤ byte && byte ≤ 57) || (65 ≤ byte && byte ≤ 90) || (97 ≤ byte && byte ≤ 122) ||
      byte = 45 || byte = 95

def NonceCall.validate (call : NonceCall) : Except ApiError Unit := do
  rejectIf (¬nonceIsValid call.signature.nonce) (.unauthorized "signal node request nonce is invalid")
  rejectIf (call.signature.signedAt < call.now - skew ∨ call.signature.signedAt > call.now + skew)
    (.unauthorized "signal node request signature is outside the allowed time window")

def recordAuthenticatedRequestNonce (accepted : AcceptedNonceLedger) (call : NonceCall) :
    Except ApiError Unit × AcceptedNonceLedger :=
  match call.validate with
  | .error error => (.error error, accepted)
  | .ok _ =>
    let outcome := remember (fun signedAt => call.now - skew ≤ signedAt)
      maxAcceptedSignalRequestNonces (call.nodeId, call.signature.nonce) call.signature.signedAt
      accepted
    match outcome.1 with
    | .present => (.error (.replay "signal node request nonce was already accepted"), outcome.2)
    | .full => (.error .authenticationCapacity, outcome.2)
    | .fresh => (.ok (), outcome.2)

/-! ## The handlers, section by section -/

structure SignalHttpState where
  acceptedNonces : AcceptedNonceLedger
  authenticatedNodes : Std.TreeMap NodeId Timestamp
  nodeAuthTtl : ℤ

def SignalHttpState.new (nodeAuthTtl : ℤ) : SignalHttpState := ⟨∅, ∅, nodeAuthTtl⟩

/-- What a purge of stale memberships goes before: the rest of `upsert_node`, or one of the two
`authenticated_node` calls. -/
inductive Purge where
  | upsert
  | source
  | target (source : ControlPlane.NodeRecord)
deriving DecidableEq

inductive Phase where
  | purging (purge : Purge)
  | removing (purge : Purge) (stale : List NodeId)
  | authenticating
  | checking (purge : Purge)
  | fetching (purge : Purge)
  | recording (nodeId : NodeId) (signature : NodeApiRequestSignature)
  | serving
  | joining (nodeId : NodeId)
  | finished (result : Except ApiError Unit)
deriving DecidableEq

structure SignalTask where
  request : SignalRequest
  now : Timestamp
  phase : Phase
deriving DecidableEq

def SignalTask.start (request : SignalRequest) (now : Timestamp) : SignalTask where
  request := request
  now := now
  phase := .purging (match request with
    | .upsertNode .. => .upsert
    | .negotiate .. | .holePunchPlan .. => .source)

/-- What a suspended request has waited for: a lock, the authenticator, a lookup, or the registry's answer
(for an upsert, the id of the stored node). -/
inductive Answer where
  | ready
  | authentication (result : Except SignalNodeAuthenticationError ControlPlane.NodeRecord)
  | node (found : Option ControlPlane.NodeRecord)
  | served (result : Except SignalError NodeId)

def staleText : String := "signal node membership authentication is stale or missing"

section Handlers

-- `verify_signal_path_signature` and `verify_signal_hole_punch_plan_signature`
variable (verifies : SignalRequest → String → Bool)

def staleNodes (state : SignalHttpState) (now : Timestamp) : List NodeId :=
  (state.authenticatedNodes.filter fun _ authenticatedAt =>
    authenticatedAt < now - state.nodeAuthTtl).keys

/-- The first section of `purge_stale_authenticated_nodes`. -/
def dropStale (state : SignalHttpState) (now : Timestamp) : SignalHttpState :=
  { state with authenticatedNodes :=
      (staleNodes state now).foldl (fun nodes nodeId => nodes.erase nodeId) state.authenticatedNodes }

def afterPurge (request : SignalRequest) : Purge → Phase
  | .upsert =>
    match request with
    | .upsertNode pathNodeId nodeId _ _ =>
      if pathNodeId ≠ nodeId then .finished (.error (.badRequest "node_id path/body mismatch"))
      else .authenticating
    | _ => .authenticating
  | purge => .checking purge

/-- The node that `authenticated_node` is called for. -/
def memberId (request : SignalRequest) : Purge → NodeId
  | .target _ => request.target
  | _ => request.source

/-- `request_signature.as_ref().ok_or(…)?`, and on to the ledger. -/
def toLedger (request : SignalRequest) (nodeId : NodeId) : Phase :=
  match request.requestSignature with
  | none => .finished (.error (.unauthorized request.requiredText))
  | some signature => .recording nodeId signature

def afterFetch (request : SignalRequest) (purge : Purge) (node : ControlPlane.NodeRecord) : Phase :=
  match purge with
  | .upsert => .authenticating
  | .source => .purging (.target node)
  | .target source =>
    if ¬verifies request source.identityPublicKey then
      .finished (.error (.unauthorized request.rejectedText))
    else toLedger request source.nodeId

def afterServing (request : SignalRequest) : Except SignalError NodeId → Phase
  | .error error => .finished (.error (.signal error))
  | .ok nodeId =>
    match request with
    | .upsertNode .. => .joining nodeId
    | _ => .finished (.ok ())

/-- One section of a request, with the call of the ledger that it made. -/
def advance (state : SignalHttpState) (task : SignalTask) (answer : Answer) :
    Option (NonceCall × Except ApiError Unit) × SignalHttpState × SignalTask :=
  match task.phase, answer with
  | .purging purge, .ready =>
    (none, dropStale state task.now,
      { task with phase := .removing purge (staleNodes state task.now) })
  | .removing purge (_ :: stale), .ready => (none, state, { task with phase := .removing purge stale })
  | .removing purge [], .ready => (none, state, { task with phase := afterPurge task.request purge })
  | .authenticating, .authentication (.error error) =>
    (none, state, { task with phase := .finished (.error (.authentication error)) })
  | .authenticating, .authentication (.ok _) =>
    (none, state, { task with phase := toLedger task.request task.request.source })
  | .checking purge, .ready =>
    if memberId task.request purge ∈ state.authenticatedNodes then
      (none, state, { task with phase := .fetching purge })
    else (none, state, { task with phase := .finished (.error (.unauthorized staleText)) })
  | .fetching _, .node none =>
    (none, state, { task with phase := .finished (.error (.unauthorized staleText)) })
  | .fetching purge, .node (some node) =>
    (none, state, { task with phase := afterFetch verifies task.request purge node })
  | .recording nodeId signature, .ready =>
    let call : NonceCall := ⟨nodeId, signature, task.now⟩
    let outcome := recordAuthenticatedRequestNonce state.acceptedNonces call
    (some (call, outcome.1), { state with acceptedNonces := outcome.2 },
      { task with phase := match outcome.1 with
        | .error error => .finished (.error error)
        | .ok _ => .serving })
  | .serving, .served result =>
    (none, state, { task with phase := afterServing task.request result })
  | .joining nodeId, .ready =>
    (none, { state with authenticatedNodes := state.authenticatedNodes.insert nodeId task.now },
      { task with phase := .finished (.ok ()) })
  | _, _ => (none, state, task)

abbrev SignalSystem := Tasks.System SignalHttpState SignalTask

def SignalSystem.step : SignalSystem → Tasks.Event SignalTask Answer →
    Option (NonceCall × Except ApiError Unit) × SignalSystem :=
  Tasks.step (advance verifies) none

def ledgerCalls (s : SignalSystem) (events : List (Tasks.Event SignalTask Answer)) :
    List (NonceCall × Except ApiError Unit) :=
  Runs.calls (SignalSystem.step verifies) id s events

end Handlers

/-! ## The ledger along a run -/

namespace NonceCall

def key (call : NonceCall) : NodeId × String := (call.nodeId, call.signature.nonce)

/-- If the earlier call got to prune the ledger, the later one was not too old for its reading. -/
def Timely (earlier later : NonceCall) : Prop :=
  earlier.validate = .ok () → earlier.now - skew ≤ later.signature.signedAt

instance : DecidableRel Timely := fun earlier later => by
  unfold Timely
  infer_instance

variable {call : NonceCall}

lemma signedAt_ge (h : call.validate = .ok ()) : call.now - skew ≤ call.signature.signedAt := by
  obtain ⟨_, -, hwindow⟩ := bind_eq_ok.mp h
  rw [rejectIf_eq_ok, not_or] at hwindow
  exact not_lt.mp hwindow.1

end NonceCall

section Ledger

variable {accepted : AcceptedNonceLedger} {call : NonceCall} {k : NodeId × String} {v : Timestamp}

lemma record_cases (accepted : AcceptedNonceLedger) (call : NonceCall) :
    (call.validate ≠ .ok () ∧ (recordAuthenticatedRequestNonce accepted call).1 ≠ .ok () ∧
      (recordAuthenticatedRequestNonce accepted call).2 = accepted) ∨
    (call.validate = .ok () ∧
      ∃ outcome, remember (fun signedAt => call.now - skew ≤ signedAt) maxAcceptedSignalRequestNonces
          call.key call.signature.signedAt accepted = outcome ∧
        ((recordAuthenticatedRequestNonce accepted call).1 = .ok () ↔ outcome.1 = .fresh) ∧
        (recordAuthenticatedRequestNonce accepted call).2 = outcome.2) := by
  rw [recordAuthenticatedRequestNonce]
  cases hvalid : call.validate with
  | error error => exact Or.inl ⟨by simp, by simp, rfl⟩
  | ok _ =>
    refine Or.inr ⟨rfl, _, rfl, ?_⟩
    rw [NonceCall.key]
    generalize remember _ _ _ _ accepted = outcome
    obtain ⟨answer, kept⟩ := outcome
    cases answer <;> simp

lemma record_kept (h : accepted[k]? = some v) (hlive : call.validate = .ok () → call.now - skew ≤ v) :
    (recordAuthenticatedRequestNonce accepted call).2[k]? = some v := by
  rcases record_cases accepted call with ⟨-, -, heq⟩ | ⟨hvalid, outcome, rfl, -, heq⟩
  · rwa [heq]
  · rw [heq]
    exact remember_kept h (by simpa using hlive hvalid)

lemma record_accepted (h : (recordAuthenticatedRequestNonce accepted call).1 = .ok ()) :
    call.validate = .ok () ∧
      (recordAuthenticatedRequestNonce accepted call).2[call.key]? = some call.signature.signedAt := by
  rcases record_cases accepted call with ⟨-, hfails, -⟩ | ⟨hvalid, outcome, rfl, hok, heq⟩
  · exact absurd h hfails
  · rw [heq]
    exact ⟨hvalid, remember_fresh (hok.mp h)⟩

lemma record_refused (h : accepted[call.key]? = some v) (hlive : call.now - skew ≤ v) :
    (recordAuthenticatedRequestNonce accepted call).1 ≠ .ok () := by
  rcases record_cases accepted call with ⟨-, hfails, -⟩ | ⟨-, outcome, rfl, hok, -⟩
  · exact hfails
  · rw [Ne, hok, remember_present h (by simpa using hlive)]
    decide

lemma ledger_oneTime : OneTime recordAuthenticatedRequestNonce (· = .ok ())
    (fun (accepted : AcceptedNonceLedger) k => accepted[k]?) NonceCall.key (·.signature.signedAt)
    (fun call v => call.validate = .ok () → call.now - skew ≤ v) where
  kept _ _ _ _ h hlive := record_kept h hlive
  remembers _ _ h := (record_accepted h).2
  refuses _ _ _ h hlive hok := record_refused h (hlive (record_accepted hok).1) hok

/-- Two accepted calls are not for the same node, nonce and time of signing. -/
abbrev NoncesDiffer : NonceCall × Except ApiError Unit → NonceCall × Except ApiError Unit → Prop :=
  UsedOnce (· = .ok ()) NonceCall.key (·.signature.signedAt)

/-- The ledger accepts nothing twice from calls that are timely for each other. -/
theorem ledger_used_once (accepted : AcceptedNonceLedger) {calls : List NonceCall}
    (htimely : calls.Pairwise NonceCall.Timely) :
    (Runs.trace recordAuthenticatedRequestNonce accepted calls).Pairwise NoncesDiffer := by
  refine ledger_oneTime.used_once ?_
  rintro before call middle call' after rfl - hsigned c hc
  rw [hsigned]
  rcases List.mem_append.mp hc with hc | hc
  · obtain ⟨-, hlater, -⟩ := List.pairwise_append.mp htimely
    obtain ⟨-, -, hmiddle⟩ := List.pairwise_append.mp (List.pairwise_cons.mp hlater).2
    exact hmiddle c hc call' List.mem_cons_self
  · rw [List.mem_singleton.mp hc]
    exact NonceCall.signedAt_ge

end Ledger

lemma advance_ledger (verifies : SignalRequest → String → Bool) (state : SignalHttpState)
    (task : SignalTask) (answer : Answer) :
    ((advance verifies state task answer).1 = none ∧
      (advance verifies state task answer).2.1.acceptedNonces = state.acceptedNonces) ∨
    ∃ call, (advance verifies state task answer).1 =
        some (call, (recordAuthenticatedRequestNonce state.acceptedNonces call).1) ∧
      (advance verifies state task answer).2.1.acceptedNonces =
        (recordAuthenticatedRequestNonce state.acceptedNonces call).2 := by
  unfold advance
  split
  case h_9 _ _ nodeId signature _ => exact Or.inr ⟨⟨nodeId, signature, task.now⟩, rfl, rfl⟩
  case h_6 => split_ifs <;> exact Or.inl ⟨rfl, rfl⟩
  all_goals exact Or.inl ⟨rfl, rfl⟩

lemma drives (verifies : SignalRequest → String → Bool) :
    Runs.Drives (SignalSystem.step verifies) recordAuthenticatedRequestNonce
      (fun s => s.shared.acceptedNonces) id := by
  refine Tasks.drives_step rfl (fun state task answer h => ?_) fun state task answer c r h => ?_
  · rcases advance_ledger verifies state task answer with ⟨-, heq⟩ | ⟨call, hcall, -⟩
    · exact heq
    · rw [hcall] at h
      cases h
  · rcases advance_ledger verifies state task answer with ⟨hnone, -⟩ | ⟨call, hcall, heq⟩
    · rw [hnone] at h
      cases h
    · rw [hcall] at h
      obtain ⟨rfl, rfl⟩ := Prod.mk.inj (Option.some.inj h)
      rw [heq]

/-- However the requests take turns, no nonce is accepted twice, as long as every request gets to the ledger
before it is pruned by a reading for which the request is too old. -/
theorem signal_nonces_used_once (verifies : SignalRequest → String → Bool) (s : SignalSystem)
    (events : List (Tasks.Event SignalTask Answer))
    (htimely : ((ledgerCalls verifies s events).map Prod.fst).Pairwise NonceCall.Timely) :
    (ledgerCalls verifies s events).Pairwise NoncesDiffer := by
  have hrun : ledgerCalls verifies s events = _ := (drives verifies).calls_eq
  rw [hrun]
  exact ledger_used_once _ htimely

namespace SampleSignal

def nonce (letter : Char) : String := String.ofList (List.replicate 32 letter)

def upsert (name : String) (letter : Char) (signedAt : Timestamp) : SignalRequest :=
  .upsertNode ⟨name⟩ ⟨name⟩ "" (some ⟨signedAt, nonce letter, "signature"⟩)

def call (name : String) (letter : Char) (signedAt now : Timestamp) : NonceCall :=
  ⟨⟨name⟩, ⟨signedAt, nonce letter, "signature"⟩, now⟩

def arrive (turn : ℕ) : List (Tasks.Event SignalTask Answer) :=
  [.resume turn .ready, .resume turn .ready]

def record (turn : ℕ) : List (Tasks.Event SignalTask Answer) :=
  [.resume turn (.authentication (.ok sampleNode)), .resume turn .ready]

def idle : SignalSystem := ⟨.new (300 * 1000000000), []⟩

/-- The same request of `n` arrives twice within the last nanosecond of its five minutes.  The first copy
waits while the second is accepted and a request of `m` prunes the ledger; then it is accepted as well. -/
def overtaken : List (Tasks.Event SignalTask Answer) :=
  [.start (.start (upsert "n" 'a' 0) (seconds 300)),
    .start (.start (upsert "n" 'a' 0) (seconds 300))] ++ arrive 0 ++ arrive 1 ++ record 1 ++
  [.start (.start (upsert "m" 'b' (seconds 300)) (seconds 300 + 1))] ++ arrive 2 ++ record 2 ++ record 0

theorem suspended_request_replayed :
    ledgerCalls (fun _ _ => true) idle overtaken =
      [(call "n" 'a' 0 (seconds 300), .ok ()),
        (call "m" 'b' (seconds 300) (seconds 300 + 1), .ok ()),
        (call "n" 'a' 0 (seconds 300), .ok ())] ∧
    ¬(ledgerCalls (fun _ _ => true) idle overtaken).Pairwise NoncesDiffer := by
  refine (and_iff_left_of_imp fun hcalls honce => ?_).mpr (by decide +kernel)
  rw [hcalls] at honce
  exact (List.pairwise_cons.mp honce).1 _ (by simp) rfl rfl ⟨rfl, rfl⟩

def inTime : List (Tasks.Event SignalTask Answer) :=
  [.start (.start (upsert "n" 'a' 0) (seconds 300)),
    .start (.start (upsert "n" 'a' 0) (seconds 300))] ++ arrive 0 ++ arrive 1 ++ record 1 ++ record 0

theorem signal_nonces_used_once_in_time :
    ledgerCalls (fun _ _ => true) idle inTime =
      [(call "n" 'a' 0 (seconds 300), .ok ()),
        (call "n" 'a' 0 (seconds 300),
          .error (.replay "signal node request nonce was already accepted"))] ∧
    (ledgerCalls (fun _ _ => true) idle inTime).Pairwise NoncesDiffer := by
  refine (and_iff_left_of_imp fun hcalls => signal_nonces_used_once _ idle inTime ?_).mpr (by decide +kernel)
  rw [hcalls]
  decide +kernel

end SampleSignal

end Signal

end HeteroNetwork
