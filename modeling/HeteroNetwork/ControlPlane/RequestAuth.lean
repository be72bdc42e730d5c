import HeteroNetwork.Lib.ExpiringMap
import HeteroNetwork.Agent.OverlayTypes
import HeteroNetwork.ControlPlane.Records

/-!
# Replay protection of signed requests

The control plane accepts a signed request while its clock is within `heartbeat_signature_max_age` of the
time of signing, in either direction, and remembers the nonce.  There are two memories: the one of the
control plane counts from the time of acceptance, the one of the HTTP mesh from the time of signing.
-/

namespace HeteroNetwork

open Std (TreeMap)

open Checked OrderedMap ExpiringMap

namespace ControlPlane

/-! ## Requests -/

inductive ControlPlaneNodeQueryKind where
  | peerMap
  | neighborMap
  | paths
  | httpTransport
  | httpMesh
deriving DecidableEq

def ControlPlaneNodeQueryKind.asStr : ControlPlaneNodeQueryKind → String
  | peerMap => "peer_map"
  | neighborMap => "neighbor_map"
  | paths => "paths"
  | httpTransport => "http_transport"
  | httpMesh => "http_mesh"

inductive ClientRequestKind where
  | peerMap
  | remove
deriving DecidableEq

def ClientRequestKind.asStr : ClientRequestKind → String
  | peerMap => "peer_map"
  | remove => "remove"

structure NodeApiRequestSignature where
  signedAt : Timestamp
  nonce : String
  signature : String
deriving DecidableEq

abbrev ClientRequestSignature := NodeApiRequestSignature

structure ControlPlaneNodeQueryRequest where
  nodeId : NodeId
  requestSignature : Option NodeApiRequestSignature
deriving DecidableEq

structure OverlayPathQuery where
  source : NodeId
  destination : IpAddr
  sourceIdentityProof : NodeApiRequestSignature
deriving DecidableEq

structure ClientControlRequest where
  clientId : NodeId
  activeGatewayNodeId : Option NodeId
  requestSignature : Option ClientRequestSignature
deriving DecidableEq

/-! ## Signatures -/

inductive CryptoError where
  | invalidEd25519Key (reason : String)
  | invalidSignature
  | invalidSignatureEnvelope (reason : String)
  | invalidRequestNonce
deriving DecidableEq

def CryptoError.toText : CryptoError → String
  | invalidEd25519Key reason => "ed25519 key material is invalid: " ++ reason
  | invalidSignature => "ed25519 signature is invalid"
  | invalidSignatureEnvelope reason => "ed25519 signature envelope is invalid: " ++ reason
  | invalidRequestNonce => "node API request nonce is invalid"

/-- What the checks take from other crates: base64, Ed25519, and how a value is written out in JSON
and in messages. -/
structure RequestPrimitives where
  decodeUrlSafe : String → Option (List UInt8)
  encodeUrlSafe : List UInt8 → String
  decodeStandard : String → Option (List UInt8)
  encodeStandard : List UInt8 → String
  /-- `verifying_key_from_b64`. -/
  verifyingKeyFromB64 : String → Except CryptoError (List UInt8)
  /-- `VerifyingKey::verify`, on a key, a payload and the bytes of a signature. -/
  verify : List UInt8 → List UInt8 → List UInt8 → Bool
  jsonString : String → String
  jsonTime : Timestamp → String
  jsonAddr : IpAddr → String
  displayTime : Timestamp → String
  displayOverlayError : OverlayValidationError → String

def ed25519SignatureBytes : ℕ := 64
def ed25519SignatureBase64Bytes : ℕ := 88
def nodeApiRequestNonceBytes : ℕ := 24

/-- The nonce of an HTTP query also commits to the body. -/
def httpQueryNonceBytes : ℕ := 48

section Verification

variable (env : RequestPrimitives)

def decodeEd25519Signature (value : String) : Except String (List UInt8) := do
  rejectIf ((utf8 value).length ≠ ed25519SignatureBase64Bytes)
    "signature must be exactly 88 bytes of standard base64"
  match env.decodeStandard value with
  | none => .error "signature is not valid standard base64"
  | some decoded =>
    rejectIf (decoded.length ≠ ed25519SignatureBytes)
      ("signature decodes to " ++ toString decoded.length ++ " bytes instead of 64")
    rejectIf (env.encodeStandard decoded ≠ value) "signature is not canonical standard base64"
    pure decoded

def NodeApiRequestSignature.signatureBytes (s : NodeApiRequestSignature) :
    Except CryptoError (List UInt8) :=
  (decodeEd25519Signature env s.signature).mapError .invalidSignatureEnvelope

/-- The nonce is the canonical encoding of `length` bytes. -/
def validateRequestNonce (length : ℕ) (value : String) : Except CryptoError Unit :=
  match env.decodeUrlSafe value with
  | none => .error .invalidRequestNonce
  | some bytes =>
    rejectIf (bytes.length ≠ length ∨ env.encodeUrlSafe bytes ≠ value) .invalidRequestNonce

def validateNodeApiRequestNonce (value : String) : Except CryptoError Unit :=
  validateRequestNonce env nodeApiRequestNonceBytes value

def verifyEd25519Payload (payload signature : List UInt8) (publicKey : String) :
    Except CryptoError Unit := do
  let verifyingKey ← env.verifyingKeyFromB64 publicKey
  rejectIf (¬env.verify verifyingKey payload signature) .invalidSignature

def verifyNodeApiPayload (payload : List UInt8) (s : NodeApiRequestSignature)
    (publicKey : String) : Except CryptoError Unit := do
  let signature ← s.signatureBytes env
  validateNodeApiRequestNonce env s.nonce
  verifyEd25519Payload env payload signature publicKey

def ControlPlaneNodeQueryRequest.signaturePayload (request : ControlPlaneNodeQueryRequest)
    (kind : ControlPlaneNodeQueryKind) (s : NodeApiRequestSignature) : List UInt8 :=
  utf8 ("\x7b\"kind\":\"" ++ kind.asStr ++ "\",\"node_id\":" ++
    env.jsonString request.nodeId.asStr ++ ",\"signed_at\":" ++ env.jsonTime s.signedAt ++
    ",\"nonce\":" ++ env.jsonString s.nonce ++ "\x7d")

def verifyControlPlaneNodeQuerySignature (request : ControlPlaneNodeQueryRequest)
    (kind : ControlPlaneNodeQueryKind) (publicKey : String) : Except CryptoError Unit :=
  match request.requestSignature with
  | none => .error .invalidSignature
  | some s =>
    let payload := request.signaturePayload env kind s
    if kind = .httpTransport ∨ kind = .httpMesh then do
      validateRequestNonce env httpQueryNonceBytes s.nonce
      let signature ← s.signatureBytes env
      verifyEd25519Payload env payload signature publicKey
    else verifyNodeApiPayload env payload s publicKey

def OverlayPathQuery.signaturePayload (request : OverlayPathQuery) : List UInt8 :=
  utf8 ("\x7b\"source\":" ++ env.jsonString request.source.asStr ++ ",\"destination\":" ++
    env.jsonAddr request.destination ++ ",\"signed_at\":" ++
    env.jsonTime request.sourceIdentityProof.signedAt ++ ",\"nonce\":" ++
    env.jsonString request.sourceIdentityProof.nonce ++ "\x7d")

def OverlayPathQuery.validate (request : OverlayPathQuery) :
    Except OverlayValidationError Unit := do
  validateOverlayIdentifier request.source.asBytes "source node ID" "source"
  validateOverlayDestination request.destination
  validateOverlayIdentifier (utf8 request.sourceIdentityProof.nonce) "source identity proof nonce"
    "source_identity_proof"
  match decodeEd25519Signature env request.sourceIdentityProof.signature with
  | .ok _ => pure ()
  | .error reason => .error ⟨"source_identity_proof",
      .other ("source identity proof signature is invalid: " ++ reason)⟩

def verifyOverlayPathQuerySignature (request : OverlayPathQuery) (publicKey : String) :
    Except CryptoError Unit := do
  (request.validate env).mapError fun _ => CryptoError.invalidSignature
  verifyNodeApiPayload env (request.signaturePayload env) request.sourceIdentityProof publicKey

def unixTimestamp (t : Timestamp) : ℤ := t / 1000000000

def ClientControlRequest.signaturePayload (request : ClientControlRequest)
    (kind : ClientRequestKind) (s : ClientRequestSignature) : List UInt8 :=
  match request.activeGatewayNodeId with
  | some gateway =>
    utf8 ("heteronetwork-client-request-v2\n" ++ kind.asStr ++ "\n" ++ request.clientId.asStr ++
      "\n" ++ gateway.asStr ++ "\n" ++ toString (unixTimestamp s.signedAt) ++ "\n" ++
      s.nonce ++ "\n")
  | none =>
    utf8 ("heteronetwork-client-request-v1\n" ++ kind.asStr ++ "\n" ++ request.clientId.asStr ++
      "\n" ++ toString (unixTimestamp s.signedAt) ++ "\n" ++ s.nonce ++ "\n")

def verifyClientControlRequestSignature (request : ClientControlRequest)
    (kind : ClientRequestKind) (publicKey : String) : Except CryptoError Unit :=
  match request.requestSignature with
  | none => .error .invalidSignature
  | some s => do
      validateNodeApiRequestNonce env s.nonce
      let signature ← s.signatureBytes env
      verifyEd25519Payload env (request.signaturePayload kind s) signature publicKey

end Verification

/-! ## The memories of the control plane -/

/-- `chrono::Duration::from_std`: at most `i64::MAX` milliseconds. -/
def durationFromStd (nanoseconds : ℕ) : Option ℤ :=
  if nanoseconds ≤ 9223372036854775807 * 1000000 then some nanoseconds else none

def timestampWithinSkew (timestamp now : Timestamp) (maxSkew : ℕ) : Bool :=
  match durationFromStd maxSkew with
  | none => false
  | some skew => timestamp ≥ now - skew && timestamp ≤ now + skew

def maxAcceptedNodeQueryNonces : ℕ := 131072
def maxNodeNonces : ℕ := 32768

/-- The nonces of the control plane with the time of acceptance, and those of the HTTP mesh, node by node,
with the time they may be forgotten. -/
structure RequestNonces where
  acceptedNodeQueryNonces : TreeMap (NodeId × String) Timestamp
  meshNonces : TreeMap NodeId (TreeMap String Timestamp)

def RequestNonces.empty : RequestNonces := ⟨∅, ∅⟩

/-- `store.get_node`, at the time of a call.  A node is found under its own identifier. -/
structure NodeLookup where
  find : NodeId → Except ControlPlaneError (Option NodeRecord)
  nodeId_of_find : ∀ {nodeId node}, find nodeId = .ok (some node) → node.nodeId = nodeId

abbrev Auth := Mutating RequestNonces ControlPlaneError

section Authentication

variable (env : RequestPrimitives) (maxAge : ℕ)

/-- `now.signed_duration_since(accepted_at).to_std()` fails when the clock went back; the nonce is
then kept. -/
def stillRemembered (now acceptedAt : Timestamp) : Bool :=
  now - acceptedAt < 0 || (now - acceptedAt).toNat ≤ maxAge

def outsideWindow (nodeId : NodeId) (signedAt : Timestamp) : ControlPlaneError :=
  .nodeSignatureRejected nodeId ("signed_at " ++ env.displayTime signedAt ++
    " is outside the allowed " ++ toString (maxAge / 1000000000) ++ "s window")

def rememberNonce (nodeId : NodeId) (nonce : String) (now : Timestamp) : Auth Unit := do
  let state ← get
  let outcome := remember (stillRemembered maxAge now) maxAcceptedNodeQueryNonces
    (nodeId, nonce) now state.acceptedNodeQueryNonces
  modify fun state => { state with acceptedNodeQueryNonces := outcome.2 }
  check (rejectIf (outcome.1 = .present) (.nodeRequestReplay nodeId))
  check (rejectIf (outcome.1 = .full) .nodeRequestAuthenticationCapacity)

def acceptNodeQueryNonce (nodeId : NodeId) (signedAt : Timestamp) (nonce : String)
    (now : Timestamp) : Auth Unit := do
  check (rejectIf (¬timestampWithinSkew signedAt now maxAge) (outsideWindow env maxAge nodeId signedAt))
  rememberNonce maxAge nodeId nonce now

def consumeNonce (nodeId : NodeId) (nonce : String) (expiresAt now : Timestamp) : Auth Bool := do
  let state ← get
  let outcome := remember (fun expiry : Timestamp => expiry > now) maxNodeNonces nonce expiresAt
    (state.meshNonces.getD nodeId ∅)
  modify fun state => { state with meshNonces := state.meshNonces.insert nodeId outcome.2 }
  check (rejectIf (outcome.1 = .full) .httpMeshCapacity)
  pure (outcome.1 = .fresh)

def signatureRejected (nodeId : NodeId) (error : CryptoError) : ControlPlaneError :=
  .nodeSignatureRejected nodeId error.toText

def getNode (nodes : NodeLookup) (nodeId : NodeId) : Except ControlPlaneError NodeRecord := do
  match ← nodes.find nodeId with
  | some node => pure node
  | none => .error (.nodeNotFound nodeId)

def authenticateNodeQuery (nodes : NodeLookup) (request : ControlPlaneNodeQueryRequest)
    (kind : ControlPlaneNodeQueryKind) (now : Timestamp) : Auth NodeRecord := do
  match request.requestSignature with
  | none => check (.error (.nodeSignatureRequired request.nodeId))
  | some signature =>
    let node ← check (getNode nodes request.nodeId)
    check (rejectIf (node.role.isClient ∧ kind ≠ .httpMesh)
      (.nodeSignatureRejected request.nodeId "client identities must use the client control API"))
    check ((verifyControlPlaneNodeQuerySignature env request kind node.identityPublicKey).mapError
      (signatureRejected request.nodeId))
    check (rejectIf (¬timestampWithinSkew signature.signedAt now maxAge)
      (outsideWindow env maxAge request.nodeId signature.signedAt))
    if kind = .httpMesh then
      check (rejectIf node.isAdministrativelyStopped .relayDenied)
      let age ← check (match durationFromStd maxAge with
        | some age => .ok age
        | none => .error (.store "invalid signature age"))
      let fresh ← consumeNonce node.nodeId signature.nonce (signature.signedAt + age + seconds 1) now
      check (rejectIf (¬fresh) (.nodeRequestReplay node.nodeId))
    else
      acceptNodeQueryNonce env maxAge request.nodeId signature.signedAt signature.nonce now
    pure node

def authenticateOverlayPathQuery (nodes : NodeLookup) (request : OverlayPathQuery)
    (now : Timestamp) : Auth NodeRecord := do
  check ((request.validate env).mapError fun error =>
    .nodeSignatureRejected request.source (env.displayOverlayError error))
  let node ← check (getNode nodes request.source)
  check (rejectIf node.role.isClient
    (.nodeSignatureRejected request.source "client identities must use the client control API"))
  check ((verifyOverlayPathQuerySignature env request node.identityPublicKey).mapError
    (signatureRejected request.source))
  acceptNodeQueryNonce env maxAge request.source request.sourceIdentityProof.signedAt
    request.sourceIdentityProof.nonce now
  pure node

def authenticateClientRequest (nodes : NodeLookup) (request : ClientControlRequest)
    (kind : ClientRequestKind) (now : Timestamp) : Auth NodeRecord := do
  check (rejectIf (kind = .remove ∧ request.activeGatewayNodeId.isSome)
    (.nodeUpdateRejected request.clientId "client removal must not select an active gateway"))
  match request.requestSignature with
  | none => check (.error (.nodeSignatureRequired request.clientId))
  | some signature =>
    let client ← check (getNode nodes request.clientId)
    check (rejectIf (¬client.role.isClient)
      (.nodeSignatureRejected request.clientId "node identities cannot use the client control API"))
    check ((verifyClientControlRequestSignature env request kind client.identityPublicKey).mapError
      (signatureRejected request.clientId))
    check (rejectIf (¬timestampWithinSkew signature.signedAt now maxAge)
      (outsideWindow env maxAge request.clientId signature.signedAt))
    rememberNonce maxAge request.clientId signature.nonce now
    pure client

end Authentication

/-! ## Calls -/

structure SignedRequest where
  nodeId : NodeId
  nonce : String
  signedAt : Timestamp
  signature : String
deriving DecidableEq

inductive AuthRequest where
  | nodeQuery (request : ControlPlaneNodeQueryRequest) (kind : ControlPlaneNodeQueryKind)
  | overlayPathQuery (request : OverlayPathQuery)
  | clientRequest (request : ClientControlRequest) (kind : ClientRequestKind)
  /-- The step of `register_sponsored_client` that goes through the same memory. -/
  | sponsoredRegistration (sponsor : NodeId) (signedAt : Timestamp) (nonce : String)
deriving DecidableEq

/-- A request, the clock and the nodes it meets.  Between two calls the nodes may have changed in any
way. -/
structure AuthCall where
  now : Timestamp
  nodes : NodeLookup
  request : AuthRequest

namespace AuthRequest

def signed : AuthRequest → Option SignedRequest
  | nodeQuery request _ => request.requestSignature.map fun s =>
    ⟨request.nodeId, s.nonce, s.signedAt, s.signature⟩
  | overlayPathQuery request => some ⟨request.source, request.sourceIdentityProof.nonce,
      request.sourceIdentityProof.signedAt, request.sourceIdentityProof.signature⟩
  | clientRequest request _ => request.requestSignature.map fun s =>
    ⟨request.clientId, s.nonce, s.signedAt, s.signature⟩
  | sponsoredRegistration _ _ _ => none

def usesMesh : AuthRequest → Bool
  | nodeQuery _ kind => kind = .httpMesh
  | _ => false

variable (env : RequestPrimitives)

def signaturePayload : AuthRequest → Option (List UInt8)
  | nodeQuery request kind => request.requestSignature.map (request.signaturePayload env kind)
  | overlayPathQuery request => some (request.signaturePayload env)
  | clientRequest request kind => request.requestSignature.map (request.signaturePayload kind)
  | sponsoredRegistration _ _ _ => none

def Verifies (publicKey : String) : AuthRequest → Prop
  | nodeQuery request kind => verifyControlPlaneNodeQuerySignature env request kind publicKey = .ok ()
  | overlayPathQuery request => verifyOverlayPathQuerySignature env request publicKey = .ok ()
  | clientRequest request kind => verifyClientControlRequestSignature env request kind publicKey = .ok ()
  | sponsoredRegistration _ _ _ => False

end AuthRequest

section Calls

variable (env : RequestPrimitives) (maxAge : ℕ)

def RequestNonces.apply (state : RequestNonces) (call : AuthCall) :
    Except ControlPlaneError (Option NodeRecord) × RequestNonces :=
  match call.request with
  | .nodeQuery request kind =>
    (exec (authenticateNodeQuery env maxAge call.nodes request kind call.now) state).map
      (·.map some) id
  | .overlayPathQuery request =>
    (exec (authenticateOverlayPathQuery env maxAge call.nodes request call.now) state).map
      (·.map some) id
  | .clientRequest request kind =>
    (exec (authenticateClientRequest env maxAge call.nodes request kind call.now) state).map
      (·.map some) id
  | .sponsoredRegistration sponsor signedAt nonce =>
    (exec (acceptNodeQueryNonce env maxAge sponsor signedAt nonce call.now) state).map
      (·.map fun _ => none) id

/-- The signature of the request verifies under the key of the node that the call finds. -/
def AuthCall.Verified (call : AuthCall) : Prop :=
  ∃ signed node, call.request.signed = some signed ∧
    call.nodes.find signed.nodeId = .ok (some node) ∧
    call.request.Verifies env node.identityPublicKey

/-- No signature of the run is valid for two payloads. -/
def SignaturesBind (calls : List AuthCall) : Prop :=
  ∀ call ∈ calls, ∀ call' ∈ calls, call.request.signed = call'.request.signed →
    call.Verified env → call'.Verified env →
    call.request.signaturePayload env = call'.request.signaturePayload env

/-! ## What a call does -/

/-- What has been checked of a request before its nonce is looked up. -/
structure Admissible (call : AuthCall) (signed : SignedRequest) (nodeId : NodeId)
    (nonce : String) : Prop where
  nodeId_eq : nodeId = signed.nodeId
  nonce_eq : nonce = signed.nonce
  fresh : timestampWithinSkew signed.signedAt call.now maxAge
  verified : call.Verified env

def rememberedAt (state : RequestNonces) (now : Timestamp) (nodeId : NodeId) (nonce : String) :
    Answer × TreeMap (NodeId × String) Timestamp :=
  remember (stillRemembered maxAge now) maxAcceptedNodeQueryNonces (nodeId, nonce) now
    state.acceptedNodeQueryNonces

def consumedAt (state : RequestNonces) (now : Timestamp) (nodeId : NodeId) (nonce : String)
    (expiresAt : Timestamp) : Answer × TreeMap String Timestamp :=
  remember (fun expiry : Timestamp => expiry > now) maxNodeNonces nonce expiresAt
    (state.meshNonces.getD nodeId ∅)

/-- Everything a call can do: it fails before it reaches a memory, or it goes through the one that is
meant for it. -/
inductive AuthStep {α : Type} (state : RequestNonces) (call : AuthCall) :
    Except ControlPlaneError α × RequestNonces → Prop
  | refused (error : ControlPlaneError) : AuthStep state call (.error error, state)
  | remembered {nodeId nonce r} (hmesh : call.request.usesMesh = false)
      (hsigned : ∀ signed, call.request.signed = some signed →
        Admissible env maxAge call signed nodeId nonce)
      (hfresh : ∀ a, r = .ok a → (rememberedAt maxAge state call.now nodeId nonce).1 = .fresh) :
      AuthStep state call (r, { state with
        acceptedNodeQueryNonces := (rememberedAt maxAge state call.now nodeId nonce).2 })
  | consumed {nodeId nonce signed age r} (hmesh : call.request.usesMesh = true)
      (hsigned : call.request.signed = some signed)
      (hadmissible : Admissible env maxAge call signed nodeId nonce)
      (hage : durationFromStd maxAge = some age)
      (hfresh : ∀ a, r = .ok a →
        (consumedAt state call.now nodeId nonce (signed.signedAt + age + seconds 1)).1 = .fresh) :
      AuthStep state call (r, { state with
        meshNonces := state.meshNonces.insert nodeId
          (consumedAt state call.now nodeId nonce (signed.signedAt + age + seconds 1)).2 })

end Calls

section Steps

variable {env : RequestPrimitives} {maxAge : ℕ} {state : RequestNonces} {call : AuthCall}

lemma AuthStep.map {α β : Type} {result : Except ControlPlaneError α × RequestNonces}
    (f : α → β) (h : AuthStep env maxAge state call result) :
    AuthStep env maxAge state call (result.map (·.map f) id) := by
  have hok : ∀ {r : Except ControlPlaneError α} {b : β}, r.map f = .ok b → ∃ a, r = .ok a := by
    intro r b hb
    cases r with
    | error e => cases hb
    | ok a => exact ⟨a, rfl⟩
  cases h with
  | refused error => exact .refused error
  | remembered hmesh hsigned hfresh =>
    exact .remembered hmesh hsigned fun b hb => (hok hb).elim hfresh
  | consumed hmesh hsigned hadmissible hage hfresh =>
    exact .consumed hmesh hsigned hadmissible hage fun b hb => (hok hb).elim hfresh

lemma authStep_check {α β : Type} {x : Except ControlPlaneError α} {f : α → Auth β}
    (h : ∀ a, x = .ok a → AuthStep env maxAge state call (exec (f a) state)) :
    AuthStep env maxAge state call (exec (check x >>= f) state) := by
  cases x with
  | error error => exact .refused error
  | ok a => exact h a rfl

lemma exec_rememberNonce (nodeId : NodeId) (nonce : String) (now : Timestamp) :
    exec (rememberNonce maxAge nodeId nonce now) state =
      (match (rememberedAt maxAge state now nodeId nonce).1 with
        | .fresh => .ok ()
        | .present => .error (.nodeRequestReplay nodeId)
        | .full => .error .nodeRequestAuthenticationCapacity,
      { state with acceptedNodeQueryNonces := (rememberedAt maxAge state now nodeId nonce).2 }) := by
  rw [rememberNonce, exec_get_bind]
  simp only [rememberedAt]
  generalize remember (stillRemembered maxAge now) maxAcceptedNodeQueryNonces (nodeId, nonce) now
    state.acceptedNodeQueryNonces = outcome
  obtain ⟨answer, memory⟩ := outcome
  cases answer <;> rfl

lemma exec_consumeNonce (nodeId : NodeId) (nonce : String) (expiresAt now : Timestamp) :
    exec (consumeNonce nodeId nonce expiresAt now) state =
      (match (consumedAt state now nodeId nonce expiresAt).1 with
        | .fresh => .ok true
        | .present => .ok false
        | .full => .error .httpMeshCapacity,
      { state with
        meshNonces := state.meshNonces.insert nodeId
          (consumedAt state now nodeId nonce expiresAt).2 }) := by
  rw [consumeNonce, exec_get_bind]
  simp only [consumedAt]
  generalize remember (fun expiry : Timestamp => expiry > now) maxNodeNonces nonce expiresAt
    (state.meshNonces.getD nodeId ∅) = outcome
  obtain ⟨answer, memory⟩ := outcome
  cases answer <;> rfl

variable {nodeId : NodeId} {nonce : String}

lemma authStep_remember {α : Type} (a : α) (hmesh : call.request.usesMesh = false)
    (hsigned : ∀ signed, call.request.signed = some signed →
      Admissible env maxAge call signed nodeId nonce) :
    AuthStep env maxAge state call
      (exec (rememberNonce maxAge nodeId nonce call.now >>= fun _ => pure a) state) := by
  rw [exec_bind, exec_rememberNonce]
  cases hanswer : (rememberedAt maxAge state call.now nodeId nonce).1 with
  | fresh => exact .remembered hmesh hsigned fun _ _ => hanswer
  | present | full => exact .remembered hmesh hsigned fun _ hr => by cases hr

lemma authStep_consume {α : Type} {age : ℤ} (signed : SignedRequest) (a : α)
    (error : ControlPlaneError) (hmesh : call.request.usesMesh = true)
    (hsigned : call.request.signed = some signed)
    (hadmissible : Admissible env maxAge call signed signed.nodeId signed.nonce)
    (hage : durationFromStd maxAge = some age) :
    AuthStep env maxAge state call
      (exec (consumeNonce signed.nodeId signed.nonce (signed.signedAt + age + seconds 1) call.now >>=
        fun fresh => check (rejectIf (¬fresh) error) >>= fun _ => pure a) state) := by
  rw [exec_bind, exec_consumeNonce]
  cases hanswer : (consumedAt state call.now signed.nodeId signed.nonce
      (signed.signedAt + age + seconds 1)).1 with
  | fresh => exact .consumed hmesh hsigned hadmissible hage fun _ _ => hanswer
  | present | full => exact .consumed hmesh hsigned hadmissible hage fun _ hr => by cases hr

lemma authStep_accept {α : Type} {signedAt : Timestamp} (a : α) (hmesh : call.request.usesMesh = false)
    (hsigned : ∀ signed, call.request.signed = some signed →
      timestampWithinSkew signedAt call.now maxAge → Admissible env maxAge call signed nodeId nonce) :
    AuthStep env maxAge state call
      (exec (acceptNodeQueryNonce env maxAge nodeId signedAt nonce call.now >>= fun _ => pure a)
        state) := by
  rw [acceptNodeQueryNonce, bind_assoc]
  refine authStep_check fun _ hskew => ?_
  exact authStep_remember a hmesh fun signed h => hsigned signed h (by simpa using hskew)

lemma getNode_eq_ok {nodes : NodeLookup} {node : NodeRecord} (h : getNode nodes nodeId = .ok node) :
    nodes.find nodeId = .ok (some node) := by
  simp only [getNode, bind_eq_ok] at h
  obtain ⟨found, hfound, hnode⟩ := h
  cases found with
  | none => cases hnode
  | some node' =>
    obtain rfl : node' = node := by simpa using hnode
    exact hfound

lemma authStep_nodeQuery {request : ControlPlaneNodeQueryRequest} {kind : ControlPlaneNodeQueryKind}
    (hrequest : call.request = .nodeQuery request kind) :
    AuthStep env maxAge state call
      (exec (authenticateNodeQuery env maxAge call.nodes request kind call.now) state) := by
  rw [authenticateNodeQuery]
  cases hsignature : request.requestSignature with
  | none => exact .refused _
  | some signature =>
    refine authStep_check fun node hnode => ?_
    refine authStep_check fun _ hrole => ?_
    refine authStep_check fun _ hverify => ?_
    refine authStep_check fun _ hskew => ?_
    have hsigned : call.request.signed =
        some ⟨request.nodeId, signature.nonce, signature.signedAt, signature.signature⟩ := by
      simp [hrequest, AuthRequest.signed, hsignature]
    have hverified : call.Verified env := by
      refine ⟨_, node, hsigned, getNode_eq_ok hnode, ?_⟩
      rw [hrequest]
      exact mapError_eq_ok.mp hverify
    have hadmissible : Admissible env maxAge call
        ⟨request.nodeId, signature.nonce, signature.signedAt, signature.signature⟩
        request.nodeId signature.nonce :=
      ⟨rfl, rfl, by simpa using hskew, hverified⟩
    by_cases hkind : kind = .httpMesh
    · rw [if_pos hkind]
      refine authStep_check fun _ _ => ?_
      refine authStep_check fun age hage => ?_
      have hage : durationFromStd maxAge = some age := by
        cases hd : durationFromStd maxAge with
        | none => rw [hd] at hage; cases hage
        | some age' => rw [hd] at hage; exact congrArg some (Except.ok.inj hage)
      rw [call.nodes.nodeId_of_find (getNode_eq_ok hnode)]
      exact authStep_consume
        ⟨request.nodeId, signature.nonce, signature.signedAt, signature.signature⟩ node _
        (by simp [hrequest, AuthRequest.usesMesh, hkind]) hsigned hadmissible hage
    · rw [if_neg hkind]
      have hmesh : call.request.usesMesh = false := by simp [hrequest, AuthRequest.usesMesh, hkind]
      refine authStep_accept node hmesh fun signed h _ => ?_
      obtain rfl := Option.some.inj (hsigned.symm.trans h)
      exact hadmissible

lemma authStep_overlayPathQuery {request : OverlayPathQuery}
    (hrequest : call.request = .overlayPathQuery request) :
    AuthStep env maxAge state call
      (exec (authenticateOverlayPathQuery env maxAge call.nodes request call.now) state) := by
  rw [authenticateOverlayPathQuery]
  refine authStep_check fun _ hvalid => ?_
  refine authStep_check fun node hnode => ?_
  refine authStep_check fun _ hrole => ?_
  refine authStep_check fun _ hverify => ?_
  refine authStep_accept node (by rw [hrequest]; rfl) fun signed hsigned hskew => ?_
  have hverified : call.Verified env := by
    refine ⟨signed, node, hsigned, ?_, ?_⟩
    · rw [hrequest] at hsigned
      obtain rfl := Option.some.inj hsigned
      exact getNode_eq_ok hnode
    · rw [hrequest]
      exact mapError_eq_ok.mp hverify
  rw [hrequest] at hsigned
  obtain rfl := Option.some.inj hsigned
  exact ⟨rfl, rfl, hskew, hverified⟩

lemma authStep_clientRequest {request : ClientControlRequest} {kind : ClientRequestKind}
    (hrequest : call.request = .clientRequest request kind) :
    AuthStep env maxAge state call
      (exec (authenticateClientRequest env maxAge call.nodes request kind call.now) state) := by
  rw [authenticateClientRequest]
  refine authStep_check fun _ _ => ?_
  cases hsignature : request.requestSignature with
  | none => exact .refused _
  | some signature =>
    refine authStep_check fun client hclient => ?_
    refine authStep_check fun _ hrole => ?_
    refine authStep_check fun _ hverify => ?_
    refine authStep_check fun _ hskew => ?_
    have hsigned : call.request.signed =
        some ⟨request.clientId, signature.nonce, signature.signedAt, signature.signature⟩ := by
      simp [hrequest, AuthRequest.signed, hsignature]
    have hverified : call.Verified env := by
      refine ⟨_, client, hsigned, getNode_eq_ok hclient, ?_⟩
      rw [hrequest]
      exact mapError_eq_ok.mp hverify
    refine authStep_remember client (by rw [hrequest]; rfl) fun signed h => ?_
    obtain rfl := Option.some.inj (hsigned.symm.trans h)
    exact ⟨rfl, rfl, by simpa using hskew, hverified⟩

/-- The relation covers every call. -/
theorem authStep_apply (env : RequestPrimitives) (maxAge : ℕ) (state : RequestNonces)
    (call : AuthCall) : AuthStep env maxAge state call (state.apply env maxAge call) := by
  cases hrequest : call.request with
  | nodeQuery request kind =>
    simp only [RequestNonces.apply, hrequest]
    exact (authStep_nodeQuery hrequest).map some
  | overlayPathQuery request =>
    simp only [RequestNonces.apply, hrequest]
    exact (authStep_overlayPathQuery hrequest).map some
  | clientRequest request kind =>
    simp only [RequestNonces.apply, hrequest]
    exact (authStep_clientRequest hrequest).map some
  | sponsoredRegistration sponsor signedAt nonce =>
    simp only [RequestNonces.apply, hrequest]
    refine AuthStep.map (fun _ : Unit => none) ?_
    rw [← bind_pure (acceptNodeQueryNonce env maxAge sponsor signedAt nonce call.now)]
    exact authStep_accept () (by rw [hrequest]; rfl) fun signed h => by
      rw [hrequest] at h
      cases h

/-! ## What is remembered -/

/-- What a memory holds for a key: the one of the HTTP mesh, or the one of the control plane. -/
def RequestNonces.entry (state : RequestNonces) : Bool → NodeId × String → Option Timestamp
  | true, key => (state.meshNonces.getD key.1 ∅)[key.2]?
  | false, key => state.acceptedNodeQueryNonces[key]?

def outlives (maxAge : ℕ) (now : Timestamp) : Bool → Timestamp → Bool
  | true, expiry => expiry > now
  | false, acceptedAt => stillRemembered maxAge now acceptedAt

variable {now : Timestamp}

lemma stillRemembered_iff {acceptedAt : Timestamp} :
    stillRemembered maxAge now acceptedAt ↔ now ≤ acceptedAt + maxAge := by
  simp only [stillRemembered, Bool.or_eq_true, decide_eq_true_eq, Int.toNat_le]
  constructor
  · rintro (h | h) <;> linarith [Int.natCast_nonneg maxAge]
  · exact fun h => .inr (by linarith)

variable {v : Timestamp} {mesh : Bool}

lemma outlives_mono {now' : Timestamp} (hle : now ≤ now') (h : outlives maxAge now' mesh v) :
    outlives maxAge now mesh v := by
  cases mesh with
  | true =>
    simp only [outlives, gt_iff_lt, decide_eq_true_eq] at h ⊢
    linarith
  | false =>
    simp only [outlives, stillRemembered_iff] at h ⊢
    linarith

lemma le_of_withinSkew {timestamp : Timestamp} (h : timestampWithinSkew timestamp now maxAge) :
    now ≤ timestamp + maxAge := by
  simp only [timestampWithinSkew, durationFromStd] at h
  split_ifs at h with hsmall
  · simp only [ge_iff_le, tsub_le_iff_right, Bool.and_eq_true, decide_eq_true_eq] at h
    exact h.1

lemma entry_meshInsert {nodeId : NodeId} {memory : TreeMap String Timestamp}
    {key : NodeId × String} :
    ({ state with meshNonces := state.meshNonces.insert nodeId memory } : RequestNonces).entry
      true key = if key.1 = nodeId then memory[key.2]? else state.entry true key := by
  simp only [RequestNonces.entry, TreeMap.getD_insert]
  by_cases h : key.1 = nodeId
  · rw [if_pos h, if_pos (by rw [h]; exact Std.ReflCmp.compare_self)]
  · rw [if_neg h, if_neg fun heq => h (Std.LawfulEqOrd.eq_of_compare heq).symm]

lemma entry_kept {key : NodeId × String} (h : state.entry mesh key = some v)
    (hlive : outlives maxAge call.now mesh v) :
    (state.apply env maxAge call).2.entry mesh key = some v := by
  have hstep := authStep_apply env maxAge state call
  generalize state.apply env maxAge call = result at hstep ⊢
  cases hstep with
  | refused error => exact h
  | remembered hmesh hsigned hfresh =>
    cases mesh with
    | true => exact h
    | false => exact remember_kept h hlive
  | @consumed nodeId nonce signed age r hmesh hsigned hadmissible hage hfresh =>
    cases mesh with
    | false => exact h
    | true =>
      rw [entry_meshInsert]
      split_ifs with hkey
      · refine remember_kept ?_ hlive
        rw [← hkey]
        exact h
      · exact h

variable {signed : SignedRequest} {answer : Option NodeRecord}

section

variable (hsigned : call.request.signed = some signed)
    (hok : (state.apply env maxAge call).1 = .ok answer)
include hsigned hok

lemma admissible_of_accepted :
    timestampWithinSkew signed.signedAt call.now maxAge ∧ call.Verified env := by
  have hstep := authStep_apply env maxAge state call
  generalize state.apply env maxAge call = result at hstep hok
  cases hstep with
  | refused error => cases hok
  | remembered hmesh hadmissible hfresh =>
    exact ⟨(hadmissible signed hsigned).fresh, (hadmissible signed hsigned).verified⟩
  | consumed hmesh hsigned' hadmissible hage hfresh =>
    obtain rfl := Option.some.inj (hsigned'.symm.trans hsigned)
    exact ⟨hadmissible.fresh, hadmissible.verified⟩

lemma entry_of_accepted (hpast : call.request.usesMesh = true ∨ signed.signedAt ≤ call.now) :
    ∃ v, (state.apply env maxAge call).2.entry call.request.usesMesh (signed.nodeId, signed.nonce) =
        some v ∧
      ∀ now, ¬outlives maxAge now call.request.usesMesh v →
        ¬timestampWithinSkew signed.signedAt now maxAge := by
  have hstep := authStep_apply env maxAge state call
  generalize state.apply env maxAge call = result at hstep hok ⊢
  cases hstep with
  | refused error => cases hok
  | remembered hmesh hadmissible hfresh =>
    obtain ⟨rfl, rfl, -, -⟩ := hadmissible signed hsigned
    rw [hmesh] at hpast ⊢
    refine ⟨call.now, remember_fresh (hfresh answer hok), fun now hforgotten hskew => ?_⟩
    have hsignedAt : signed.signedAt ≤ call.now := hpast.resolve_left (by simp)
    refine hforgotten (stillRemembered_iff.mpr ?_)
    linarith [le_of_withinSkew hskew]
  | @consumed nodeId nonce signed' age r hmesh hsigned' hadmissible hage hfresh =>
    obtain rfl := Option.some.inj (hsigned'.symm.trans hsigned)
    obtain ⟨rfl, rfl, -, -⟩ := hadmissible
    rw [hmesh, entry_meshInsert, if_pos rfl]
    refine ⟨_, remember_fresh (hfresh answer hok), fun now hforgotten hskew => hforgotten ?_⟩
    have hage : age = maxAge := by
      simp only [durationFromStd] at hage
      split_ifs at hage with hsmall
      exact (Option.some.inj hage).symm
    have hsecond : seconds 1 = 1000000000 := rfl
    simp only [outlives, gt_iff_lt, decide_eq_true_eq]
    linarith [le_of_withinSkew hskew]

end

lemma refused_of_entry (hsigned : call.request.signed = some signed)
    (h : state.entry call.request.usesMesh (signed.nodeId, signed.nonce) = some v)
    (hlive : outlives maxAge call.now call.request.usesMesh v) :
    (state.apply env maxAge call).1 ≠ .ok answer := by
  intro hok
  have hstep := authStep_apply env maxAge state call
  generalize state.apply env maxAge call = result at hstep hok
  cases hstep with
  | refused error => cases hok
  | remembered hmesh hadmissible hfresh =>
    obtain ⟨rfl, rfl, -, -⟩ := hadmissible signed hsigned
    rw [hmesh] at h hlive
    have hpresent : (rememberedAt maxAge state call.now signed.nodeId signed.nonce).1 = .present :=
      remember_present h hlive
    rw [hfresh answer hok] at hpresent
    cases hpresent
  | @consumed nodeId nonce signed' age r hmesh hsigned' hadmissible hage hfresh =>
    obtain rfl := Option.some.inj (hsigned'.symm.trans hsigned)
    obtain ⟨rfl, rfl, -, -⟩ := hadmissible
    rw [hmesh] at h hlive
    have hpresent : (consumedAt state call.now signed'.nodeId signed'.nonce
        (signed'.signedAt + age + seconds 1)).1 = .present := remember_present h hlive
    rw [hfresh answer hok] at hpresent
    cases hpresent

/-! ## The two memories are used by different requests -/

lemma length_of_validateRequestNonce {length : ℕ} (h : validateRequestNonce env length nonce = .ok ()) :
    ∃ bytes, env.decodeUrlSafe nonce = some bytes ∧ bytes.length = length := by
  cases hdecode : env.decodeUrlSafe nonce with
  | none => simp [validateRequestNonce, hdecode] at h
  | some bytes =>
    simp only [validateRequestNonce, hdecode, rejectIf_eq_ok, not_or, not_not] at h
    exact ⟨bytes, rfl, h.1⟩

variable {publicKey : String}

lemma nonce_of_verifyNodeApiPayload {payload : List UInt8} {s : NodeApiRequestSignature}
    (h : verifyNodeApiPayload env payload s publicKey = .ok ()) :
    validateRequestNonce env nodeApiRequestNonceBytes s.nonce = .ok () := by
  simp only [verifyNodeApiPayload, bind_eq_ok] at h
  obtain ⟨_, _, _, hnonce, _⟩ := h
  exact hnonce

lemma nonce_of_mesh (hsigned : call.request.signed = some signed)
    (hmesh : call.request.usesMesh = true) (h : call.request.Verifies env publicKey) :
    validateRequestNonce env httpQueryNonceBytes signed.nonce = .ok () ∧
      ∃ request s, call.request = .nodeQuery request .httpMesh ∧ request.requestSignature = some s := by
  cases hrequest : call.request with
  | nodeQuery request kind =>
    rw [hrequest] at hsigned hmesh h
    obtain rfl : kind = .httpMesh := by simpa [AuthRequest.usesMesh] using hmesh
    obtain ⟨s, hs, rfl⟩ := Option.map_eq_some_iff.mp hsigned
    simp only [AuthRequest.Verifies, verifyControlPlaneNodeQuerySignature, hs, or_true, if_true,
      bind_eq_ok] at h
    obtain ⟨_, hnonce, _⟩ := h
    exact ⟨hnonce, request, s, rfl, hs⟩
  | overlayPathQuery request | clientRequest request kind | sponsoredRegistration sponsor signedAt nonce =>
    simp [hrequest, AuthRequest.usesMesh] at hmesh

lemma nonce_of_not_mesh (hsigned : call.request.signed = some signed)
    (hmesh : call.request.usesMesh = false) (h : call.request.Verifies env publicKey) :
    validateRequestNonce env nodeApiRequestNonceBytes signed.nonce = .ok () ∨
      ∃ request s, call.request = .nodeQuery request .httpTransport ∧
        request.requestSignature = some s := by
  cases hrequest : call.request with
  | nodeQuery request kind =>
    rw [hrequest] at hsigned hmesh h
    have hkind : kind ≠ .httpMesh := by simpa [AuthRequest.usesMesh] using hmesh
    obtain ⟨s, hs, rfl⟩ := Option.map_eq_some_iff.mp hsigned
    by_cases htransport : kind = .httpTransport
    · subst htransport
      exact .inr ⟨request, s, rfl, hs⟩
    · simp only [AuthRequest.Verifies, verifyControlPlaneNodeQuerySignature, hs, htransport, hkind,
        or_self, if_false] at h
      exact .inl (nonce_of_verifyNodeApiPayload h)
  | overlayPathQuery request =>
    rw [hrequest] at hsigned h
    obtain rfl := Option.some.inj hsigned
    simp only [AuthRequest.Verifies, verifyOverlayPathQuerySignature, bind_eq_ok] at h
    obtain ⟨_, _, hpayload⟩ := h
    exact .inl (nonce_of_verifyNodeApiPayload hpayload)
  | clientRequest request kind =>
    rw [hrequest] at hsigned h
    obtain ⟨s, hs, rfl⟩ := Option.map_eq_some_iff.mp hsigned
    simp only [AuthRequest.Verifies, verifyClientControlRequestSignature, hs, bind_eq_ok] at h
    obtain ⟨_, hnonce, _⟩ := h
    exact .inl hnonce
  | sponsoredRegistration sponsor signedAt nonce => rw [hrequest] at h; exact h.elim

lemma signaturePayload_kind_ne (request request' : ControlPlaneNodeQueryRequest)
    (s s' : NodeApiRequestSignature) :
    request.signaturePayload env .httpMesh s ≠ request'.signaturePayload env .httpTransport s' := by
  intro h
  have hmesh : utf8 "http_mesh" = [104, 116, 116, 112, 95, 109, 101, 115, 104] := by decide
  have htransport : utf8 "http_transport" =
      [104, 116, 116, 112, 95, 116, 114, 97, 110, 115, 112, 111, 114, 116] := by decide
  simp only [ControlPlaneNodeQueryRequest.signaturePayload, ControlPlaneNodeQueryKind.asStr,
    utf8_append, List.append_assoc, List.append_cancel_left_eq, hmesh, htransport] at h
  simp at h

lemma usesMesh_eq {call call' : AuthCall} (hsigned : call.request.signed = some signed)
    (hsigned' : call'.request.signed = some signed) (hverified : call.Verified env)
    (hverified' : call'.Verified env)
    (hpayload : call.request.signaturePayload env = call'.request.signaturePayload env) :
    call.request.usesMesh = true → call'.request.usesMesh = true := by
  intro hmesh
  by_contra hother
  rw [Bool.not_eq_true] at hother
  obtain ⟨-, node, -, -, hverifies⟩ := hverified
  obtain ⟨-, node', -, -, hverifies'⟩ := hverified'
  obtain ⟨hnonce, request, s, hrequest, hs⟩ := nonce_of_mesh hsigned hmesh hverifies
  rcases nonce_of_not_mesh hsigned' hother hverifies' with hnonce' | ⟨request', s', hrequest', hs'⟩
  · obtain ⟨bytes, hbytes, hlength⟩ := length_of_validateRequestNonce hnonce
    obtain ⟨bytes', hbytes', hlength'⟩ := length_of_validateRequestNonce hnonce'
    obtain rfl := Option.some.inj (hbytes.symm.trans hbytes')
    exact absurd (hlength.symm.trans hlength') (by decide)
  · rw [hrequest, hrequest', AuthRequest.signaturePayload, AuthRequest.signaturePayload, hs, hs'] at hpayload
    exact signaturePayload_kind_ne request request' s s' (Option.some.inj hpayload)

lemma entry_kept_run (env : RequestPrimitives) {calls : List AuthCall} {key : NodeId × String}
    {finish : Timestamp} (hfinish : ∀ call ∈ calls, call.now ≤ finish)
    (hentry : state.entry mesh key = some v) (hlive : outlives maxAge finish mesh v) :
    (Runs.exec (RequestNonces.apply env maxAge) state calls).entry mesh key = some v :=
  Runs.exec_invariant (fun s : RequestNonces => s.entry mesh key = some v)
    (fun call hcall _ hs => entry_kept hs (outlives_mono (hfinish call hcall) hlive)) hentry

end Steps

/-- No signed request is accepted twice, provided that it was not signed in the future when it was accepted,
or that the HTTP mesh remembers it. -/
theorem replay_refused (env : RequestPrimitives) (maxAge : ℕ) (start : RequestNonces)
    (calls : List AuthCall) (hclock : (calls.map AuthCall.now).Pairwise (· ≤ ·))
    (hbind : SignaturesBind env calls) :
    let state := Runs.exec (RequestNonces.apply env maxAge) start
    ∀ before call middle call' after signed answer,
      calls = before ++ call :: (middle ++ call' :: after) →
      call.request.signed = some signed → call'.request.signed = some signed →
      ((state before).apply env maxAge call).1 = .ok answer →
      call.request.usesMesh = true ∨ signed.signedAt ≤ call.now →
      ∃ error, ((state (before ++ call :: middle)).apply env maxAge call').1 = .error error := by
  intro state before call middle call' after signed answer hcalls hsigned hsigned' hok hpast
  cases hresult : ((state (before ++ call :: middle)).apply env maxAge call').1 with
  | error error => exact ⟨error, rfl⟩
  | ok answer' =>
    exfalso
    obtain ⟨-, hverified⟩ := admissible_of_accepted hsigned hok
    obtain ⟨hskew, hverified'⟩ := admissible_of_accepted hsigned' hresult
    have hmem : call ∈ calls := by simp [hcalls]
    have hmem' : call' ∈ calls := by simp [hcalls]
    have hpayload := hbind call hmem call' hmem' (hsigned.trans hsigned'.symm) hverified hverified'
    have hmesh : call.request.usesMesh = call'.request.usesMesh := Bool.eq_iff_iff.mpr
      ⟨usesMesh_eq hsigned hsigned' hverified hverified' hpayload,
        usesMesh_eq hsigned' hsigned hverified' hverified hpayload.symm⟩
    obtain ⟨v, hentry, hwindow⟩ := entry_of_accepted hsigned hok hpast
    have hlive : outlives maxAge call'.now call.request.usesMesh v :=
      by_contra fun hforgotten => hwindow call'.now hforgotten hskew
    rw [hcalls] at hclock
    have hlast := Runs.ordered_between hclock
    have hkept := entry_kept_run env (fun c hc => (hlast c (List.mem_append_left _ hc)).2) hentry hlive
    rw [← Runs.exec_cons, ← Runs.exec_append] at hkept
    rw [hmesh] at hkept hlive
    exact refused_of_entry hsigned' hkept hlive hresult

namespace SampleRequests

def signatureText : String := String.ofList (List.replicate 88 'A')

def env (nonceLength : ℕ) (payload : List UInt8) : RequestPrimitives where
  decodeUrlSafe _ := some (List.replicate nonceLength 0)
  encodeUrlSafe _ := "nonce"
  decodeStandard _ := some (List.replicate 64 0)
  encodeStandard _ := signatureText
  verifyingKeyFromB64 _ := .ok []
  verify _ signed _ := signed = payload
  jsonString text := text
  jsonTime _ := ""
  jsonAddr _ := ""
  displayTime _ := ""
  displayOverlayError _ := ""

def nodes : NodeLookup where
  find nodeId := .ok (if nodeId = sampleNode.nodeId then some sampleNode else none)
  nodeId_of_find := by
    intro nodeId found h
    split_ifs at h with hid
    · rw [← Option.some.inj (Except.ok.inj h), hid]
    · cases h

def signature (signedAt : Timestamp) : NodeApiRequestSignature := ⟨signedAt, "nonce", signatureText⟩

def request (signedAt : Timestamp) : ControlPlaneNodeQueryRequest :=
  ⟨⟨"n"⟩, some (signature signedAt)⟩

def maxAge : ℕ := 300 * 1000000000

def query (kind : ControlPlaneNodeQueryKind) (signedAt now : Timestamp) : AuthCall :=
  ⟨now, nodes, .nodeQuery (request signedAt) kind⟩

def payload : List UInt8 :=
  utf8 "\x7b\"kind\":\"neighbor_map\",\"node_id\":n,\"signed_at\":,\"nonce\":nonce\x7d"

/-- A query signed five minutes in the future is accepted at 0 s, and once more at 301 s, when its nonce is
forgotten while its window is still open. -/
theorem future_request_replayed :
    let first := query .neighborMap (seconds 300) 0
    let second := query .neighborMap (seconds 300) (seconds 301)
    let state := (RequestNonces.empty.apply (env 24 payload) maxAge first).2
    SignaturesBind (env 24 payload) [first, second] ∧
      first.request.signed = second.request.signed ∧
      (RequestNonces.empty.apply (env 24 payload) maxAge first).1 = .ok (some sampleNode) ∧
      (state.apply (env 24 payload) maxAge second).1 = .ok (some sampleNode) := by
  refine ⟨?_, rfl, ?_, ?_⟩
  · intro call hcall call' hcall' _ _ _
    simp only [List.mem_cons, List.not_mem_nil, or_false] at hcall hcall'
    rcases hcall with rfl | rfl <;> rcases hcall' with rfl | rfl <;> rfl
  · decide +kernel
  · decide +kernel

theorem replay_refused_past :
    let first := query .neighborMap (seconds 10) (seconds 20)
    let second := query .neighborMap (seconds 10) (seconds 310)
    let state := Runs.exec (RequestNonces.apply (env 24 payload) maxAge) .empty
    ((state []).apply (env 24 payload) maxAge first).1 = .ok (some sampleNode) ∧
      ∃ error, ((state [first]).apply (env 24 payload) maxAge second).1 = .error error := by
  intro first second state
  have hok : ((state []).apply (env 24 payload) maxAge first).1 = .ok (some sampleNode) := by decide +kernel
  have hbind : SignaturesBind (env 24 payload) [first, second] := by
    intro call hcall call' hcall' _ _ _
    simp only [List.mem_cons, List.not_mem_nil, or_false] at hcall hcall'
    rcases hcall with rfl | rfl <;> rcases hcall' with rfl | rfl <;> rfl
  exact ⟨hok, replay_refused (env 24 payload) maxAge .empty [first, second] (by decide) hbind
    [] first [] second [] _ _ rfl rfl rfl hok (.inr (by decide))⟩

end SampleRequests

end ControlPlane

end HeteroNetwork
