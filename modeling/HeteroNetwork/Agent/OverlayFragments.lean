import HeteroNetwork.Lib.Chunks
import HeteroNetwork.Lib.OrderedMap
import HeteroNetwork.Agent.OverlayForwarder

/-!
# Fragments of overlay frames

A frame that does not fit one datagram is cut.  A fragment carries its place, the length of the frame and a
truncated digest of it, and is collected by address and digest.
-/

namespace HeteroNetwork

open Checked OrderedMap Chunks

/-! ## Limits -/

def maxOverlayTransitDatagramBytes : ℕ := 1024
def overlayFragmentMagic : List UInt8 := utf8 "IPARS-FG"
def overlayFragmentVersion : UInt8 := 1
def overlayFragmentDigestBytes : ℕ := 16
def overlayFragmentHeaderBytes : ℕ := 8 + 1 + 1 + 2 + 2 + 4 + 16
def overlayFragmentPayloadBytes : ℕ := maxOverlayTransitDatagramBytes - overlayFragmentHeaderBytes
def maxPendingFragmentedFrames : ℕ := 256
def maxPendingFragmentedFrameBytes : ℕ := maxPendingFragmentedFrames * maxMultihopFrameBytes

def overlayFragmentReassemblyTimeout : ℕ := 5 * 1000000000

abbrev FragmentDigest := Vector UInt8 16

inductive OverlayNeighborSendError where
  | unknownNeighbor (nextHop : NodeId)
  | io (nextHop : NodeId) (endpoint : SocketAddr) (reason : String)
deriving DecidableEq

def encodeOverlayFragment (index count : UInt16) (frameLen : UInt32) (digest : FragmentDigest)
    (payload : List UInt8) : List UInt8 :=
  overlayFragmentMagic ++ [overlayFragmentVersion, 0] ++ BigEndian.toBytes 2 index.toNat ++
    BigEndian.toBytes 2 count.toNat ++ BigEndian.toBytes 4 frameLen.toNat ++ digest.toList ++ payload

def u16TryFrom (n : ℕ) : Option UInt16 := if n < UInt16.size then some (UInt16.ofNat n) else none

def u32TryFrom (n : ℕ) : Option UInt32 := if n < UInt32.size then some (UInt32.ofNat n) else none

section Sender

variable (overlayFragmentDigest : List UInt8 → FragmentDigest)

/-- `send_frame`: the datagrams that go to the endpoint of the next hop, one after the other. -/
def sendFrame (endpointFor : NodeId → Option SocketAddr) (nextHop : NodeId) (frame : List UInt8) :
    Except OverlayNeighborSendError (SocketAddr × List (List UInt8)) :=
  match endpointFor nextHop with
  | none => .error (.unknownNeighbor nextHop)
  | some endpoint =>
    if frame.length ≤ maxOverlayTransitDatagramBytes then .ok (endpoint, [frame])
    else do
      let tooMany : OverlayNeighborSendError := .io nextHop endpoint
        "bounded overlay frame requires too many transport fragments"
      let fragmentCount ← match u16TryFrom (divCeil frame.length overlayFragmentPayloadBytes) with
        | some count => .ok count
        | none => .error tooMany
      let frameLen ← match u32TryFrom frame.length with
        | some length => .ok length
        | none => .error (.io nextHop endpoint
            "bounded overlay frame length exceeds the transport header")
      let digest := overlayFragmentDigest frame
      let datagrams ← (chunks overlayFragmentPayloadBytes frame).zipIdx.mapM fun (chunk, index) =>
        match u16TryFrom index with
        | some index => .ok (encodeOverlayFragment index fragmentCount frameLen digest chunk)
        | none => .error tooMany
      pure (endpoint, datagrams)

end Sender

/-! ## The receiver -/

abbrev OverlayFragmentKey := SocketAddr × FragmentDigest

structure PendingOverlayFrame where
  expiresAt : Instant
  frameLen : ℕ
  fragmentCount : ℕ
  receivedCount : ℕ
  fragments : List (Option (List UInt8))
deriving DecidableEq

structure OverlayFragmentReassembler where
  pending : Std.TreeMap OverlayFragmentKey PendingOverlayFrame
  reservedBytes : ℕ

namespace OverlayFragmentReassembler

def empty : OverlayFragmentReassembler := ⟨∅, 0⟩

def remove (r : OverlayFragmentReassembler) (key : OverlayFragmentKey) : OverlayFragmentReassembler :=
  match r.pending[key]? with
  | some frame => ⟨r.pending.erase key, r.reservedBytes - frame.frameLen⟩
  | none => r

def pruneExpired (r : OverlayFragmentReassembler) (now : Instant) : OverlayFragmentReassembler :=
  let expired := (r.pending.toList.filter fun entry => entry.2.expiresAt ≤ now).map Prod.fst
  expired.foldl remove r

end OverlayFragmentReassembler

structure FragmentHeader where
  index : ℕ
  fragmentCount : ℕ
  frameLen : ℕ
  digest : FragmentDigest
  payload : List UInt8
deriving DecidableEq

/-- The checks that read nothing but the datagram. -/
def decodeOverlayFragment (datagram : List UInt8) : Except Unit FragmentHeader := do
  rejectIf (datagram.length ≤ overlayFragmentHeaderBytes ∨
    datagram.length > maxOverlayTransitDatagramBytes ∨
    datagram.take 8 ≠ overlayFragmentMagic ∨ datagram.getD 8 0 ≠ overlayFragmentVersion ∨
    datagram.getD 9 0 ≠ 0) ()
  let index := BigEndian.ofBytes ((datagram.drop 10).take 2)
  let fragmentCount := BigEndian.ofBytes ((datagram.drop 12).take 2)
  let frameLen := BigEndian.ofBytes ((datagram.drop 14).take 4)
  let digest : FragmentDigest := Vector.ofFn fun i => (datagram.drop 18).getD i.val 0
  let payload := datagram.drop overlayFragmentHeaderBytes
  rejectIf (frameLen ≤ maxOverlayTransitDatagramBytes ∨ frameLen > maxMultihopFrameBytes ∨
    fragmentCount < 2 ∨ index ≥ fragmentCount) ()
  let expectedCount := divCeil frameLen overlayFragmentPayloadBytes
  -- for a wrong count the difference may wrap around; such a datagram is refused below either way
  let expectedPayloadLen :=
    if index + 1 = fragmentCount then frameLen - overlayFragmentPayloadBytes * (fragmentCount - 1)
    else overlayFragmentPayloadBytes
  rejectIf (fragmentCount ≠ expectedCount ∨ payload.length ≠ expectedPayloadLen) ()
  pure { index, fragmentCount, frameLen, digest, payload }

section Receiver

variable (overlayFragmentDigest : List UInt8 → FragmentDigest)

abbrev Reassembling := Mutating OverlayFragmentReassembler Unit

def joinFragments : List (Option (List UInt8)) → Except Unit (List UInt8)
  | [] => .ok []
  | none :: _ => .error ()
  | some fragment :: rest => do
      let tail ← joinFragments rest
      pure (fragment ++ tail)

def openEntry (key : OverlayFragmentKey) (header : FragmentHeader) (now : Instant) :
    Reassembling Unit := do
  let r ← get
  check (rejectIf (r.pending.size ≥ maxPendingFragmentedFrames ∨
    r.reservedBytes + header.frameLen > maxPendingFragmentedFrameBytes) ())
  modify fun r =>
    { pending := r.pending.insert key {
        expiresAt := now + overlayFragmentReassemblyTimeout
        frameLen := header.frameLen
        fragmentCount := header.fragmentCount
        receivedCount := 0
        fragments := List.replicate header.fragmentCount none }
      reservedBytes := r.reservedBytes + header.frameLen }

def finishFrame (key : OverlayFragmentKey) (frame : PendingOverlayFrame) :
    Reassembling (List UInt8) := do
  modify fun r => r.remove key
  let reassembled ← check (joinFragments frame.fragments)
  check (rejectIf (reassembled.length ≠ frame.frameLen ∨
    overlayFragmentDigest reassembled ≠ key.2) ())
  pure reassembled

/-- The second half of `push`: the fragment goes into the entry of its frame. -/
def storeFragment (key : OverlayFragmentKey) (header : FragmentHeader) :
    Reassembling (Option (List UInt8)) := do
  let r ← get
  match r.pending[key]? with
  | none => check (.error ())
  | some frame =>
    if frame.frameLen ≠ header.frameLen ∨ frame.fragmentCount ≠ header.fragmentCount then
      modify fun r => r.remove key
      check (.error ())
    else
      match frame.fragments.getD header.index none with
      | some existing =>
        if existing = header.payload then pure none
        else
          modify fun r => r.remove key
          check (.error ())
      | none =>
        let frame := { frame with
          fragments := frame.fragments.set header.index (some header.payload)
          receivedCount := frame.receivedCount + 1 }
        modify fun r => { r with pending := r.pending.insert key frame }
        if frame.receivedCount ≠ header.fragmentCount then pure none
        else some <$> finishFrame overlayFragmentDigest key frame

def pushFragment (source : SocketAddr) (datagram : List UInt8) (now : Instant) :
    Reassembling (Option (List UInt8)) := do
  modify fun r => r.pruneExpired now
  let header ← check (decodeOverlayFragment datagram)
  let key : OverlayFragmentKey := (source, header.digest)
  let r ← get
  if key ∉ r.pending then openEntry key header now
  storeFragment overlayFragmentDigest key header

end Receiver

end HeteroNetwork
