import HeteroNetwork.ControlPlane.Records

/-!
# Datagrams at the relay

The part of `ipars-relay/src/lib.rs` that reads a datagram.  A frame names a session and carries its token; the
later versions also name the two nodes.  What is not a frame may be a bare WireGuard packet on its way back.
-/

namespace HeteroNetwork.Relay

open Checked BigEndian

inductive RelayError where
  | invalidAdmissionRequest
  | admissionDenied
  | nodeSessionLimitExceeded
  | unknownSession
  | sessionExpired
  | invalidSessionCredential
  | rateLimited
  | malformedFrame
  | frameTooLarge
  | socket
deriving DecidableEq

/-! ## Sessions by name -/

structure RelaySessionId where
  asStr : String
deriving DecidableEq

namespace RelaySessionId

instance : LinearOrder RelaySessionId :=
  LinearOrder.lift' RelaySessionId.asStr (by
    rintro ⟨a⟩ ⟨b⟩ h
    exact congrArg RelaySessionId.mk h)

instance : Std.LawfulEqOrd RelaySessionId := ⟨compare_eq_iff_eq.mp⟩

def new (left right : NodeId) : RelaySessionId :=
  if left ≤ right then ⟨left.asStr ++ ":" ++ right.asStr⟩
  else ⟨right.asStr ++ ":" ++ left.asStr⟩

end RelaySessionId

structure RelayFrame where
  sessionId : RelaySessionId
  sessionToken : String
  source : NodeId
  destination : NodeId
  ciphertextPayload : List UInt8
deriving DecidableEq

structure RelayDatagram where
  sessionId : RelaySessionId
  sessionToken : String
  source : Option NodeId
  destination : Option NodeId
  ciphertextPayload : List UInt8
  endpointAnnouncement : Bool
deriving DecidableEq

/-! ## Limits of the format -/

/-- `b"IPARS-RLY1"` and its successors, by the last byte. -/
def relayFrameMagicOf (version : UInt8) : List UInt8 :=
  [0x49, 0x50, 0x41, 0x52, 0x53, 0x2d, 0x52, 0x4c, 0x59, version]

def relayFrameMagic : List UInt8 := relayFrameMagicOf 0x31
def relayFrameMagicV2 : List UInt8 := relayFrameMagicOf 0x32
def relayFrameMagicV3 : List UInt8 := relayFrameMagicOf 0x33
def relayFrameMagicV4 : List UInt8 := relayFrameMagicOf 0x34

def maxRelaySessionIdBytes : ℕ := 4096
def maxRelaySessionTokenBytes : ℕ := 256
def maxRelayNodeIdBytes : ℕ := 128
def maxRelayCiphertextPayloadBytes : ℕ := 128 * 1024
def maxWireguardSenderIndicesPerSide : ℕ := 8

def validateRelayFrameSizesWithOptions (sessionIdLen sessionTokenLen ciphertextPayloadLen : ℕ)
    (allowEmptyPayload : Bool) : Except RelayError Unit := do
  rejectIf (sessionIdLen = 0 ∨ sessionTokenLen = 0 ∨
    (allowEmptyPayload = false ∧ ciphertextPayloadLen = 0)) .malformedFrame
  rejectIf (sessionIdLen > maxRelaySessionIdBytes ∨ sessionTokenLen > maxRelaySessionTokenBytes ∨
    ciphertextPayloadLen > maxRelayCiphertextPayloadBytes) .frameTooLarge
  rejectIf (sessionIdLen > 65535 ∨ sessionTokenLen > 65535) .frameTooLarge

def validateRelayFrameSizes (sessionIdLen sessionTokenLen ciphertextPayloadLen : ℕ) :
    Except RelayError Unit :=
  validateRelayFrameSizesWithOptions sessionIdLen sessionTokenLen ciphertextPayloadLen false

def validateRelayFrameSizesAllowEmpty (sessionIdLen sessionTokenLen ciphertextPayloadLen : ℕ) :
    Except RelayError Unit :=
  validateRelayFrameSizesWithOptions sessionIdLen sessionTokenLen ciphertextPayloadLen true

def validateRelayNodeIdSize (nodeIdLen : ℕ) : Except RelayError Unit :=
  rejectIf (nodeIdLen = 0 ∨ nodeIdLen > maxRelayNodeIdBytes ∨ nodeIdLen > 65535) .frameTooLarge

def relayNodeIdIsValid (nodeId : NodeId) : Bool :=
  !nodeId.asBytes.isEmpty && nodeId.asBytes.length ≤ maxRelayNodeIdBytes &&
    !(nodeId.asStr = "." || nodeId.asStr = "..") && nodeId.asBytes.head? != some 0x2d &&
    nodeId.asBytes.all isNodeIdByte

def validateRelayAdmissionNodeId (nodeId : NodeId) : Except RelayError Unit :=
  rejectIf (relayNodeIdIsValid nodeId = false) .invalidAdmissionRequest

def validateRelayFrameNodeId (nodeId : NodeId) : Except RelayError Unit :=
  rejectIf (relayNodeIdIsValid nodeId = false) .malformedFrame

/-! ## Frames -/

def slice (datagram : List UInt8) (start stop : ℕ) : List UInt8 :=
  (datagram.drop start).take (stop - start)

def readLength (datagram : List UInt8) (offset : ℕ) : ℕ := ofBytes (slice datagram offset (offset + 2))

def readText (datagram : List UInt8) (start stop : ℕ) : Except RelayError String :=
  orError (String.fromUTF8? (slice datagram start stop).toByteArray) .malformedFrame

def decodeRelayDatagramV1 (datagram : List UInt8) : Except RelayError RelayDatagram := do
  let fixedHeaderLen := relayFrameMagic.length + 4
  rejectIf (datagram.length ≤ fixedHeaderLen ∨ datagram.take 10 ≠ relayFrameMagic) .malformedFrame
  let sessionLenOffset := relayFrameMagic.length
  let tokenLenOffset := sessionLenOffset + 2
  let sessionLen := readLength datagram sessionLenOffset
  let tokenLen := readLength datagram tokenLenOffset
  let sessionStart := fixedHeaderLen
  let tokenStart := sessionStart + sessionLen
  let payloadStart := tokenStart + tokenLen
  rejectIf (sessionLen = 0 ∨ tokenLen = 0) .malformedFrame
  validateRelayFrameSizes sessionLen tokenLen (datagram.length - payloadStart)
  rejectIf (tokenStart > datagram.length ∨ payloadStart ≥ datagram.length) .malformedFrame
  let sessionId ← readText datagram sessionStart tokenStart
  let sessionToken ← readText datagram tokenStart payloadStart
  pure {
    sessionId := ⟨sessionId⟩
    sessionToken
    source := none
    destination := none
    ciphertextPayload := datagram.drop payloadStart
    endpointAnnouncement := false }

def decodeRelayDatagramV2WithOptions (datagram magic : List UInt8) (endpointAnnouncement : Bool) :
    Except RelayError RelayDatagram := do
  let fixedHeaderLen := magic.length + 8
  rejectIf (datagram.length < fixedHeaderLen ∨ datagram.take magic.length ≠ magic) .malformedFrame
  let sessionLenOffset := magic.length
  let tokenLenOffset := sessionLenOffset + 2
  let sourceLenOffset := tokenLenOffset + 2
  let destinationLenOffset := sourceLenOffset + 2
  let sessionLen := readLength datagram sessionLenOffset
  let tokenLen := readLength datagram tokenLenOffset
  let sourceLen := readLength datagram sourceLenOffset
  let destinationLen := readLength datagram destinationLenOffset
  let sessionStart := fixedHeaderLen
  let tokenStart := sessionStart + sessionLen
  let sourceStart := tokenStart + tokenLen
  let destinationStart := sourceStart + sourceLen
  let payloadStart := destinationStart + destinationLen
  rejectIf (sessionLen = 0 ∨ tokenLen = 0 ∨ sourceLen = 0 ∨ destinationLen = 0) .malformedFrame
  if endpointAnnouncement then
    validateRelayFrameSizesAllowEmpty sessionLen tokenLen (datagram.length - payloadStart)
  else
    validateRelayFrameSizes sessionLen tokenLen (datagram.length - payloadStart)
  validateRelayNodeIdSize sourceLen
  validateRelayNodeIdSize destinationLen
  rejectIf (tokenStart > datagram.length ∨ sourceStart > datagram.length ∨
    destinationStart > datagram.length ∨ payloadStart > datagram.length ∨
    (endpointAnnouncement = false ∧ payloadStart = datagram.length)) .malformedFrame
  let sessionId ← readText datagram sessionStart tokenStart
  let sessionToken ← readText datagram tokenStart sourceStart
  let source ← readText datagram sourceStart destinationStart
  let destination ← readText datagram destinationStart payloadStart
  validateRelayFrameNodeId ⟨source⟩
  validateRelayFrameNodeId ⟨destination⟩
  pure {
    sessionId := ⟨sessionId⟩
    sessionToken
    source := some ⟨source⟩
    destination := some ⟨destination⟩
    ciphertextPayload := datagram.drop payloadStart
    endpointAnnouncement }

def decodeRelayDatagramV2 (datagram : List UInt8) : Except RelayError RelayDatagram :=
  decodeRelayDatagramV2WithOptions datagram relayFrameMagicV2 false

def decodeRelayDatagramV3 (datagram : List UInt8) : Except RelayError RelayDatagram :=
  decodeRelayDatagramV2WithOptions datagram relayFrameMagicV3 true

def decodeRelayDatagram (datagram : List UInt8) : Except RelayError RelayDatagram :=
  if datagram.take 10 = relayFrameMagicV4 then
    -- a probe is decoded again with the third magic in front
    decodeRelayDatagramV3 (relayFrameMagicV3 ++ datagram.drop 10)
  else if datagram.take 10 = relayFrameMagicV3 then decodeRelayDatagramV3 datagram
  else if datagram.take 10 = relayFrameMagicV2 then decodeRelayDatagramV2 datagram
  else decodeRelayDatagramV1 datagram

def encodeRelayDatagram (sessionId sessionToken : String) (ciphertextPayload : List UInt8) :
    Except RelayError (List UInt8) := do
  rejectIf (utf8 sessionId = [] ∨ utf8 sessionToken = [] ∨ ciphertextPayload = []) .malformedFrame
  validateRelayFrameSizes (utf8 sessionId).length (utf8 sessionToken).length ciphertextPayload.length
  pure (relayFrameMagic ++ toBytes 2 (utf8 sessionId).length ++ toBytes 2 (utf8 sessionToken).length ++
    utf8 sessionId ++ utf8 sessionToken ++ ciphertextPayload)

def encodeRelayDatagramWithRoute (sessionId sessionToken : String) (source destination : NodeId)
    (ciphertextPayload : List UInt8) : Except RelayError (List UInt8) := do
  rejectIf (utf8 sessionId = [] ∨ utf8 sessionToken = [] ∨ source.asBytes = [] ∨
    destination.asBytes = [] ∨ ciphertextPayload = []) .malformedFrame
  validateRelayFrameSizes (utf8 sessionId).length (utf8 sessionToken).length ciphertextPayload.length
  validateRelayFrameNodeId source
  validateRelayFrameNodeId destination
  pure (relayFrameMagicV2 ++ toBytes 2 (utf8 sessionId).length ++
    toBytes 2 (utf8 sessionToken).length ++ toBytes 2 source.asBytes.length ++
    toBytes 2 destination.asBytes.length ++ utf8 sessionId ++ utf8 sessionToken ++ source.asBytes ++
    destination.asBytes ++ ciphertextPayload)

def wireguardDatagramPayload (payload : List UInt8) : Bool :=
  if payload.length < 4 ∨ slice payload 1 4 ≠ [0, 0, 0] then false
  else
    match payload.head? with
    | some 1 => payload.length = 148
    | some 2 => payload.length = 92
    | some 3 => payload.length = 64
    | some 4 => 32 ≤ payload.length ∧ payload.length % 16 = 0
    | _ => false

def readWireguardIndex (payload : List UInt8) (offset : ℕ) : Option UInt32 :=
  if payload.length < offset + 4 then none
  else some (UInt32.ofNat (ofBytes (slice payload offset (offset + 4)).reverse))

def wireguardSenderIndex (payload : List UInt8) : Option UInt32 :=
  match payload.head?.filter fun _ => wireguardDatagramPayload payload with
  | some 1 => readWireguardIndex payload 4
  | some 2 => readWireguardIndex payload 4
  | _ => none

def wireguardReceiverIndex (payload : List UInt8) : Option UInt32 :=
  match payload.head?.filter fun _ => wireguardDatagramPayload payload with
  | some 2 => readWireguardIndex payload 8
  | some 3 => readWireguardIndex payload 4
  | some 4 => readWireguardIndex payload 4
  | _ => none

/-- The comparison goes over all positions, whatever the tokens are. -/
def relaySessionTokenMatches (expected provided : String) : Bool :=
  if (utf8 expected).length > maxRelaySessionTokenBytes ∨
      (utf8 provided).length > maxRelaySessionTokenBytes then false
  else
    (List.range maxRelaySessionTokenBytes).foldl
      (fun diff index => diff ||| ((utf8 expected).getD index 0 ^^^ (utf8 provided).getD index 0).toNat)
      ((utf8 expected).length ^^^ (utf8 provided).length) = 0

lemma foldl_or_eq_zero {ι : Type*} {f : ι → ℕ} {l : List ι} {start : ℕ} :
    l.foldl (fun diff i => diff ||| f i) start = 0 ↔ start = 0 ∧ ∀ i ∈ l, f i = 0 := by
  induction l generalizing start with
  | nil => simp
  | cons i l ih => rw [List.foldl_cons, ih, Nat.or_eq_zero_iff]; simp [and_assoc]

/-- A token matches only itself. -/
theorem relaySessionTokenMatches_iff {expected provided : String} :
    relaySessionTokenMatches expected provided = true ↔
      expected = provided ∧ (utf8 expected).length ≤ maxRelaySessionTokenBytes := by
  rw [relaySessionTokenMatches]
  split_ifs with hlong
  · simp only [false_iff, not_and, not_le]
    rintro rfl
    exact hlong.elim id id
  · push Not at hlong
    rw [decide_eq_true_eq, foldl_or_eq_zero, Nat.xor_eq_zero_iff]
    constructor
    · rintro ⟨hlength, hbytes⟩
      refine ⟨utf8_injective (List.ext_getElem hlength fun i hi hi' => ?_), hlong.1⟩
      have hbyte := hbytes i (List.mem_range.mpr (hi.trans_le hlong.1))
      rw [← UInt8.toNat_zero, UInt8.toNat_inj, UInt8.xor_eq_zero_iff] at hbyte
      simpa [hi, hi'] using hbyte
    · rintro ⟨rfl, -⟩
      simp

end HeteroNetwork.Relay
