import HeteroNetwork.Types
import HeteroNetwork.Lib.BigEndian
import HeteroNetwork.Lib.Checked

/-!
# The V2 multi-hop envelope

`ipars-relay/src/multihop.rs`: the frame in which relays forward an end-to-end encrypted datagram.
`usize` arithmetic is on `ℕ`: every sum is of lengths bounded by the frame, so the `checked_add`s of the source
cannot fail.
-/

namespace HeteroNetwork

open Checked BigEndian

/-! ## Limits of the format -/

def multihopFrameVersion : UInt8 := 2
def multihopPathIdBytes : ℕ := 16
def maxMultihopNodeIdBytes : ℕ := 128
def maxMultihopPathNodes : ℕ := 512
def maxMultihopPayloadBytes : ℕ := 65000
def maxMultihopFrameBytes : ℕ := 65507

def multihopFrameMagic : List UInt8 := [0x49, 0x50, 0x41, 0x52, 0x53, 0x2d, 0x4d, 0x48]

def versionOffset : ℕ := multihopFrameMagic.length
def flagsOffset : ℕ := versionOffset + 1
def topologyEpochOffset : ℕ := flagsOffset + 1
def pathIdOffset : ℕ := topologyEpochOffset + 8
def sequenceOffset : ℕ := pathIdOffset + multihopPathIdBytes
def hopIndexOffset : ℕ := sequenceOffset + 8
def hopLimitOffset : ℕ := hopIndexOffset + 2
def pathCountOffset : ℕ := hopLimitOffset + 2
def reservedOffset : ℕ := pathCountOffset + 2
def sourceLengthOffset : ℕ := reservedOffset + 1
def destinationLengthOffset : ℕ := sourceLengthOffset + 2
def payloadLengthOffset : ℕ := destinationLengthOffset + 2
def fixedHeaderBytes : ℕ := payloadLengthOffset + 4

inductive MultiHopCodecError where
  | malformedFrame
  | unsupportedVersion (version : UInt8)
  | nonCanonicalFrame
  | trailingBytes
  | frameTooLarge
  | invalidNodeId
  | invalidPath
  | pathTooLong
  | invalidPathId
  | expiredFrame
  | staleTopologyEpoch
  | loopDetected
  | unexpectedHop
  | routeComplete
  | payloadUnavailable
deriving DecidableEq

abbrev PathId := { bytes : List UInt8 // bytes.length = multihopPathIdBytes }

lemma length_ones : (List.replicate 16 (1 : UInt8)).length = multihopPathIdBytes := rfl

/-- A V2 multi-hop envelope.  `path` holds the relay nodes only, in forwarding order, and
`hopIndex` counts the entries already consumed. -/
structure MultiHopEnvelope where
  topologyEpoch : UInt64
  pathId : PathId
  sequence : UInt64
  hopIndex : UInt16
  hopLimit : UInt16
  source : NodeId
  destination : NodeId
  path : List NodeId
  opaquePayload : List UInt8
deriving DecidableEq

/-! ## Validation -/

def validateDeclaredNodeLength (nodeLen : ℕ) : Except MultiHopCodecError Unit := do
  rejectIf (nodeLen = 0) .invalidNodeId
  rejectIf (nodeLen > maxMultihopNodeIdBytes) .frameTooLarge

def isNodeIdByte (byte : UInt8) : Bool :=
  (48 ≤ byte && byte ≤ 57) || (65 ≤ byte && byte ≤ 90) || (97 ≤ byte && byte ≤ 122) ||
    byte = 0x2e || byte = 0x5f || byte = 0x2d

def validateNodeId (nodeId : NodeId) : Except MultiHopCodecError Unit := do
  validateDeclaredNodeLength nodeId.asBytes.length
  rejectIf (nodeId.asStr = "." ∨ nodeId.asStr = ".." ∨ nodeId.asBytes.head? = some 0x2d ∨
      ¬nodeId.asBytes.all isNodeIdByte) .invalidNodeId

/-- The loop over `path.iter().enumerate()`; `seen` is `path[..index]`. -/
def validatePathNodes (source destination : NodeId) :
    List NodeId → List NodeId → Except MultiHopCodecError Unit
  | _, [] => pure ()
  | seen, node :: rest => do
      validateNodeId node
      rejectIf (node = source ∨ node = destination ∨ node ∈ seen) .loopDetected
      validatePathNodes source destination (seen ++ [node]) rest

namespace MultiHopEnvelope

def encodedLen (e : MultiHopEnvelope) : ℕ :=
  e.path.foldl (fun len node => len + 2 + node.asBytes.length)
    (fixedHeaderBytes + e.source.asBytes.length + e.destination.asBytes.length)
  + e.opaquePayload.length

def validate (e : MultiHopEnvelope) (minimumTopologyEpoch : UInt64) :
    Except MultiHopCodecError ℕ := do
  rejectIf (e.topologyEpoch = 0 ∨ e.topologyEpoch < minimumTopologyEpoch) .staleTopologyEpoch
  rejectIf (∀ byte ∈ e.pathId.val, byte = 0) .invalidPathId
  validateNodeId e.source
  validateNodeId e.destination
  rejectIf (e.source = e.destination) .loopDetected
  rejectIf (e.path = []) .invalidPath
  rejectIf (e.path.length > maxMultihopPathNodes) .pathTooLong
  rejectIf (e.hopLimit = 0 ∨ e.hopLimit.toNat > maxMultihopPathNodes) .invalidPath
  rejectIf (e.path.length > e.hopLimit.toNat ∨ e.hopIndex > e.hopLimit) .expiredFrame
  rejectIf (e.hopIndex.toNat > e.path.length) .malformedFrame
  validatePathNodes e.source e.destination [] e.path
  rejectIf (e.opaquePayload = []) .malformedFrame
  rejectIf (e.opaquePayload.length > maxMultihopPayloadBytes) .frameTooLarge
  rejectIf (e.encodedLen > maxMultihopFrameBytes) .frameTooLarge
  return e.encodedLen

def new (topologyEpoch : UInt64) (pathId : PathId) (sequence : UInt64) (hopLimit : UInt16)
    (source destination : NodeId) (path : List NodeId) (opaquePayload : List UInt8) :
    Except MultiHopCodecError MultiHopEnvelope := do
  let envelope : MultiHopEnvelope :=
    { topologyEpoch, pathId, sequence, hopIndex := 0, hopLimit, source, destination, path,
      opaquePayload }
  let _ ← envelope.validate 1
  return envelope

def encodePath : List NodeId → List UInt8
  | [] => []
  | node :: rest => toBytes 2 node.asBytes.length ++ node.asBytes ++ encodePath rest

def frameBytes (e : MultiHopEnvelope) : List UInt8 :=
  multihopFrameMagic ++ [multihopFrameVersion] ++ [0] ++
    toBytes 8 e.topologyEpoch.toNat ++ e.pathId.val ++ toBytes 8 e.sequence.toNat ++
    toBytes 2 e.hopIndex.toNat ++ toBytes 2 e.hopLimit.toNat ++ toBytes 2 e.path.length ++ [0] ++
    toBytes 2 e.source.asBytes.length ++ toBytes 2 e.destination.asBytes.length ++
    toBytes 4 e.opaquePayload.length ++
    e.source.asBytes ++ e.destination.asBytes ++ encodePath e.path ++ e.opaquePayload

def encode (e : MultiHopEnvelope) : Except MultiHopCodecError (List UInt8) := do
  let _ ← e.validate 1
  return e.frameBytes

def nextHop (e : MultiHopEnvelope) : Option NodeId := e.path[e.hopIndex.toNat]?

def isRouteComplete (e : MultiHopEnvelope) : Prop := e.hopIndex.toNat = e.path.length

instance (e : MultiHopEnvelope) : Decidable e.isRouteComplete :=
  inferInstanceAs (Decidable (_ = _))

def advanceHop (e : MultiHopEnvelope) (forwardingNode : NodeId) (minimumTopologyEpoch : UInt64) :
    Except MultiHopCodecError MultiHopEnvelope := do
  let _ ← e.validate minimumTopologyEpoch
  let currentIndex := e.hopIndex.toNat
  rejectIf (currentIndex ≥ e.path.length) .routeComplete
  rejectIf (e.hopIndex ≥ e.hopLimit) .expiredFrame
  if e.path[currentIndex]? ≠ some forwardingNode then
    rejectIf (forwardingNode = e.source ∨ forwardingNode = e.destination ∨
        forwardingNode ∈ e.path.take currentIndex) .loopDetected
    throw .unexpectedHop
  else
    -- `hop_index.checked_add(1)`
    rejectIf (e.hopIndex.toNat + 1 ≥ 2 ^ 16) .expiredFrame
    let nextIndex := e.hopIndex + 1
    rejectIf (nextIndex > e.hopLimit) .expiredFrame
    return { e with hopIndex := nextIndex }

/-- The inner datagram, only at the declared destination and only once the path is complete. -/
def payloadForDestination (e : MultiHopEnvelope) (localNode : NodeId) :
    Except MultiHopCodecError (List UInt8) := do
  rejectIf (localNode ≠ e.destination ∨ ¬e.isRouteComplete) .payloadUnavailable
  return e.opaquePayload

end MultiHopEnvelope

/-! ## Decoding -/

/-- A cursor over a received frame; it never points past the end. -/
@[ext] structure FrameReader where
  frame : List UInt8
  offset : ℕ
  inBounds : offset ≤ frame.length

namespace FrameReader

def new (frame : List UInt8) : FrameReader := ⟨frame, 0, Nat.zero_le _⟩

/-- The next `len` bytes.  The subtype carries the length, so indexing the result is safe. -/
def take (r : FrameReader) (len : ℕ) :
    Except MultiHopCodecError ({ bytes : List UInt8 // bytes.length = len } × FrameReader) :=
  if h : r.offset + len ≤ r.frame.length then
    .ok (⟨(r.frame.drop r.offset).take len, by simp; omega⟩, ⟨r.frame, r.offset + len, h⟩)
  else .error .malformedFrame

def readU8 (r : FrameReader) : Except MultiHopCodecError (UInt8 × FrameReader) := do
  let (bytes, r) ← r.take 1
  return (UInt8.ofNat (ofBytes bytes.val), r)

def readU16 (r : FrameReader) : Except MultiHopCodecError (UInt16 × FrameReader) := do
  let (bytes, r) ← r.take 2
  return (UInt16.ofNat (ofBytes bytes.val), r)

def readU32 (r : FrameReader) : Except MultiHopCodecError (UInt32 × FrameReader) := do
  let (bytes, r) ← r.take 4
  return (UInt32.ofNat (ofBytes bytes.val), r)

def readU64 (r : FrameReader) : Except MultiHopCodecError (UInt64 × FrameReader) := do
  let (bytes, r) ← r.take 8
  return (UInt64.ofNat (ofBytes bytes.val), r)

def isComplete (r : FrameReader) : Prop := r.offset = r.frame.length

instance (r : FrameReader) : Decidable r.isComplete := inferInstanceAs (Decidable (_ = _))

end FrameReader

def decodeNodeId (bytes : List UInt8) : Except MultiHopCodecError NodeId :=
  match NodeId.fromUtf8 bytes with
  | none => .error .malformedFrame
  | some nodeId => do
      validateNodeId nodeId
      return nodeId

structure FrameHeader where
  topologyEpoch : UInt64
  pathId : PathId
  sequence : UInt64
  hopIndex : UInt16
  hopLimit : UInt16
  pathCount : UInt16
  sourceLen : UInt16
  destinationLen : UInt16
  payloadLen : UInt32

def decodeHeader (r : FrameReader) : Except MultiHopCodecError (FrameHeader × FrameReader) := do
  let (magic, r) ← r.take multihopFrameMagic.length
  rejectIf (magic.val ≠ multihopFrameMagic) .malformedFrame
  let (version, r) ← r.readU8
  rejectIf (version ≠ multihopFrameVersion) (.unsupportedVersion version)
  let (flags, r) ← r.readU8
  rejectIf (flags ≠ 0) .nonCanonicalFrame
  let (topologyEpoch, r) ← r.readU64
  let (pathId, r) ← r.take multihopPathIdBytes
  let (sequence, r) ← r.readU64
  let (hopIndex, r) ← r.readU16
  let (hopLimit, r) ← r.readU16
  let (pathCount, r) ← r.readU16
  let (reserved, r) ← r.readU8
  rejectIf (reserved ≠ 0) .nonCanonicalFrame
  let (sourceLen, r) ← r.readU16
  let (destinationLen, r) ← r.readU16
  let (payloadLen, r) ← r.readU32
  return ({ topologyEpoch, pathId, sequence, hopIndex, hopLimit, pathCount, sourceLen,
            destinationLen, payloadLen }, r)

/-- The limits `decode` checks on the declared lengths before it reads the variable part. -/
def validateHeader (h : FrameHeader) : Except MultiHopCodecError Unit := do
  validateDeclaredNodeLength h.sourceLen.toNat
  validateDeclaredNodeLength h.destinationLen.toNat
  rejectIf (h.pathCount.toNat = 0) .invalidPath
  rejectIf (h.pathCount.toNat > maxMultihopPathNodes) .pathTooLong
  rejectIf (h.payloadLen.toNat = 0) .malformedFrame
  rejectIf (h.payloadLen.toNat > maxMultihopPayloadBytes) .frameTooLarge

def decodePath : ℕ → FrameReader → Except MultiHopCodecError (List NodeId × FrameReader)
  | 0, r => pure ([], r)
  | count + 1, r => do
      let (nodeLen, r) ← r.readU16
      validateDeclaredNodeLength nodeLen.toNat
      let (bytes, r) ← r.take nodeLen.toNat
      let node ← decodeNodeId bytes.val
      let (path, r) ← decodePath count r
      return (node :: path, r)

/-- Decode one canonical frame and reject topology epochs older than
`minimumTopologyEpoch`. -/
def MultiHopEnvelope.decode (frame : List UInt8) (minimumTopologyEpoch : UInt64) :
    Except MultiHopCodecError MultiHopEnvelope := do
  rejectIf (frame.length > maxMultihopFrameBytes) .frameTooLarge
  rejectIf (frame.length < fixedHeaderBytes) .malformedFrame
  let (h, r) ← decodeHeader (.new frame)
  validateHeader h
  let (sourceBytes, r) ← r.take h.sourceLen.toNat
  let source ← decodeNodeId sourceBytes.val
  let (destinationBytes, r) ← r.take h.destinationLen.toNat
  let destination ← decodeNodeId destinationBytes.val
  let (path, r) ← decodePath h.pathCount.toNat r
  let (opaquePayload, r) ← r.take h.payloadLen.toNat
  rejectIf (¬r.isComplete) .trailingBytes
  let envelope : MultiHopEnvelope :=
    { topologyEpoch := h.topologyEpoch, pathId := h.pathId, sequence := h.sequence,
      hopIndex := h.hopIndex, hopLimit := h.hopLimit, source, destination, path,
      opaquePayload := opaquePayload.val }
  let _ ← envelope.validate minimumTopologyEpoch
  return envelope

end HeteroNetwork
