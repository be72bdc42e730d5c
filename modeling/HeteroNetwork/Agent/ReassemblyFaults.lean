import HeteroNetwork.Lib.Guarded
import HeteroNetwork.Agent.ReassemblyAccounting

/-!
# Arithmetic of the reassembler

`push` once more, with every sum, product, difference and index guarded.  The header of a datagram is
checked before it is used, except that the length of the last fragment is computed before the number of
fragments is checked.  A header that announces too many makes that difference negative (`Overclaims`).
-/

namespace HeteroNetwork

open Checked OrderedMap Chunks Guarded

/-! ## Guarded steps -/

def readHeader (datagram : List UInt8) : Except Fault FragmentHeader := do
  let index ← getMany datagram 10 2
  let fragmentCount ← getMany datagram 12 2
  let frameLen ← getMany datagram 14 4
  let digest ← slice datagram 18 overlayFragmentHeaderBytes
  let payload ← slice datagram overlayFragmentHeaderBytes datagram.length
  pure { index := BigEndian.ofBytes index
         fragmentCount := BigEndian.ofBytes fragmentCount
         frameLen := BigEndian.ofBytes frameLen
         digest := Vector.ofFn fun i => digest.getD i.val 0
         payload }

def expectedPayloadLen (header : FragmentHeader) : Except Fault ℕ := do
  let next ← add header.index 1
  if next = header.fragmentCount then
    let full ← sub header.fragmentCount 1
    let bytes ← mul overlayFragmentPayloadBytes full
    sub header.frameLen bytes
  else pure overlayFragmentPayloadBytes

/-- The version and the byte after it; the second is read only if the first is right. -/
def versionSupported (datagram : List UInt8) : Except Fault Bool := do
  let version ← get datagram 8
  if version ≠ overlayFragmentVersion then pure false
  else
    let flags ← get datagram 9
    pure (flags = 0)

def FragmentHeader.WithinLimits (header : FragmentHeader) : Prop :=
  ¬(header.frameLen ≤ maxOverlayTransitDatagramBytes ∨ header.frameLen > maxMultihopFrameBytes ∨
    header.fragmentCount < 2 ∨ header.index ≥ header.fragmentCount)

instance : DecidablePred FragmentHeader.WithinLimits := fun _ => inferInstanceAs (Decidable (¬_))

def decodeGuarded (datagram : List UInt8) : Except Fault (Except Unit FragmentHeader) :=
  if datagram.length ≤ overlayFragmentHeaderBytes ∨ datagram.length > maxOverlayTransitDatagramBytes ∨
      datagram.take 8 ≠ overlayFragmentMagic then pure (.error ())
  else do
    let supported ← versionSupported datagram
    if supported = false then pure (.error ())
    else
      let header ← readHeader datagram
      if ¬header.WithinLimits then pure (.error ())
      else
        let expected ← expectedPayloadLen header
        pure (if header.fragmentCount ≠ divCeil header.frameLen overlayFragmentPayloadBytes ∨
          header.payload.length ≠ expected then .error () else .ok header)

section Push

variable (digest : List UInt8 → FragmentDigest)

def openGuarded (key : OverlayFragmentKey) (header : FragmentHeader) (now : Instant)
    (r : OverlayFragmentReassembler) : Except Fault (Except Unit Unit × OverlayFragmentReassembler) :=
  if r.pending.size ≥ maxPendingFragmentedFrames ∨
      r.reservedBytes + header.frameLen > maxPendingFragmentedFrameBytes then pure (.error (), r)
  else do
    let reservedBytes ← add r.reservedBytes header.frameLen
    let frame : PendingOverlayFrame :=
      { expiresAt := now + overlayFragmentReassemblyTimeout
        frameLen := header.frameLen
        fragmentCount := header.fragmentCount
        receivedCount := 0
        fragments := List.replicate header.fragmentCount none }
    pure (.ok (), ⟨r.pending.insert key frame, reservedBytes⟩)

def storeGuarded (key : OverlayFragmentKey) (header : FragmentHeader) (r : OverlayFragmentReassembler) :
    Except Fault (Except Unit (Option (List UInt8)) × OverlayFragmentReassembler) :=
  match r.pending[key]? with
  | none => pure (.error (), r)
  | some frame =>
    if frame.frameLen ≠ header.frameLen ∨ frame.fragmentCount ≠ header.fragmentCount then
      pure (.error (), r.remove key)
    else do
      let slot ← get frame.fragments header.index
      match slot with
      | some existing =>
        if existing = header.payload then pure (.ok none, r) else pure (.error (), r.remove key)
      | none =>
        let receivedCount ← add frame.receivedCount 1
        let frame := { frame with
          fragments := frame.fragments.set header.index (some header.payload)
          receivedCount }
        let r := { r with pending := r.pending.insert key frame }
        if receivedCount ≠ header.fragmentCount then pure (.ok none, r)
        else pure (exec (some <$> finishFrame digest key frame) r)

def pushGuarded (source : SocketAddr) (datagram : List UInt8) (now : Instant)
    (r : OverlayFragmentReassembler) :
    Except Fault (Except Unit (Option (List UInt8)) × OverlayFragmentReassembler) := do
  let r := r.pruneExpired now
  match ← decodeGuarded datagram with
  | .error error => pure (.error error, r)
  | .ok header =>
    let key : OverlayFragmentKey := (source, header.digest)
    let opened ← if key ∉ r.pending then openGuarded key header now r else pure (.ok (), r)
    match opened with
    | (.error error, r) => pure (.error error, r)
    | (.ok _, r) => storeGuarded digest key header r

end Push

/-! ## The one fault -/

def headerOf (datagram : List UInt8) : FragmentHeader where
  index := BigEndian.ofBytes ((datagram.drop 10).take 2)
  fragmentCount := BigEndian.ofBytes ((datagram.drop 12).take 2)
  frameLen := BigEndian.ofBytes ((datagram.drop 14).take 4)
  digest := Vector.ofFn fun i => (datagram.drop 18).getD i.val 0
  payload := datagram.drop overlayFragmentHeaderBytes

def Framed (datagram : List UInt8) : Prop :=
  ¬(datagram.length ≤ overlayFragmentHeaderBytes ∨ datagram.length > maxOverlayTransitDatagramBytes ∨
    datagram.take 8 ≠ overlayFragmentMagic ∨ datagram.getD 8 0 ≠ overlayFragmentVersion ∨
    datagram.getD 9 0 ≠ 0)

instance : DecidablePred Framed := fun _ => inferInstanceAs (Decidable (¬_))

/-- The datagram says that it is the last fragment, and that more full ones came before it than the
frame has room for. -/
def Overclaims (datagram : List UInt8) : Prop :=
  Framed datagram ∧ (headerOf datagram).WithinLimits ∧
    (headerOf datagram).index + 1 = (headerOf datagram).fragmentCount ∧
    (headerOf datagram).frameLen < overlayFragmentPayloadBytes * ((headerOf datagram).fragmentCount - 1)

instance : DecidablePred Overclaims := fun _ => inferInstanceAs (Decidable (_ ∧ _))

section Faults

variable {digest : List UInt8 → FragmentDigest} {datagram : List UInt8} {header : FragmentHeader}
  {r : OverlayFragmentReassembler} {key : OverlayFragmentKey}

lemma decodeOverlayFragment_eq : decodeOverlayFragment datagram =
    if ¬Framed datagram then .error ()
    else if ¬(headerOf datagram).WithinLimits then .error ()
    else if (headerOf datagram).fragmentCount ≠
        divCeil (headerOf datagram).frameLen overlayFragmentPayloadBytes ∨
      (headerOf datagram).payload.length ≠ slotLength (headerOf datagram).frameLen
        (headerOf datagram).fragmentCount (headerOf datagram).index then .error ()
    else .ok (headerOf datagram) := by
  simp only [decodeOverlayFragment, rejectIf_bind, Framed, FragmentHeader.WithinLimits, not_not]
  rfl

lemma readHeader_eq (h : overlayFragmentHeaderBytes < datagram.length) :
    readHeader datagram = .ok (headerOf datagram) := by
  have hbytes : overlayFragmentHeaderBytes = 34 := rfl
  have hdigest : ∀ i : Fin 16, ((datagram.drop 18).take (overlayFragmentHeaderBytes - 18)).getD i.val 0 =
      (datagram.drop 18).getD i.val 0 := by
    intro i
    rw [List.getD_eq_getElem?_getD, List.getD_eq_getElem?_getD,
      List.getElem?_take_of_lt (by rw [hbytes]; exact i.isLt)]
  have hpayload : (datagram.drop overlayFragmentHeaderBytes).take
      (datagram.length - overlayFragmentHeaderBytes) = datagram.drop overlayFragmentHeaderBytes :=
    List.take_of_length_le (by rw [List.length_drop])
  rw [readHeader, getMany_of_le (by omega), getMany_of_le (by omega), getMany_of_le (by omega),
    slice_of_le (by omega) (by omega), slice_of_le (by omega) (by omega)]
  simp only [ok_bind, hdigest, hpayload]
  rfl

lemma versionSupported_eq (h : overlayFragmentHeaderBytes < datagram.length) :
    versionSupported datagram =
      .ok (decide (datagram.getD 8 0 = overlayFragmentVersion ∧ datagram.getD 9 0 = 0)) := by
  have hbytes : overlayFragmentHeaderBytes = 34 := rfl
  rw [versionSupported, get_of_lt (by omega) 0, get_of_lt (by omega) 0, ok_bind, ok_bind]
  by_cases hversion : datagram.getD 8 0 = overlayFragmentVersion
  · rw [if_neg (not_not.mpr hversion), Bool.decide_and, decide_eq_true hversion, Bool.true_and]
    rfl
  · rw [if_pos hversion, Bool.decide_and, decide_eq_false hversion, Bool.false_and]
    rfl

lemma fragmentCount_lt : (headerOf datagram).fragmentCount < 65536 := by
  refine (BigEndian.ofBytes_lt _).trans_le ?_
  exact Nat.pow_le_pow_right (by norm_num) (List.length_take_le 2 _)

lemma expectedPayloadLen_eq (hlimits : header.WithinLimits) (hcount : header.fragmentCount < 65536) :
    expectedPayloadLen header =
      if header.index + 1 = header.fragmentCount ∧
          header.frameLen < overlayFragmentPayloadBytes * (header.fragmentCount - 1) then .error .underflow
      else .ok (slotLength header.frameLen header.fragmentCount header.index) := by
  simp only [FragmentHeader.WithinLimits, not_or, not_le, not_lt, ge_iff_le] at hlimits
  obtain ⟨-, -, htwo, hindex⟩ := hlimits
  have hbytes : overlayFragmentPayloadBytes = 990 := rfl
  have hword : wordLimit = 18446744073709551616 := by norm_num
  rw [expectedPayloadLen, add_of_lt (by omega), ok_bind, slotLength]
  by_cases hlast : header.index + 1 = header.fragmentCount
  · rw [if_pos hlast, if_pos hlast, sub_of_le (by omega), ok_bind, mul_of_lt (by rw [hbytes]; omega), ok_bind]
    by_cases hmany : header.frameLen < overlayFragmentPayloadBytes * (header.fragmentCount - 1)
    · rw [if_pos ⟨hlast, hmany⟩, sub_of_lt hmany]
    · rw [if_neg fun h => hmany h.2, sub_of_le (Nat.not_lt.mp hmany)]
  · rw [if_neg hlast, if_neg hlast, if_neg fun h => hlast h.1]
    rfl

lemma framed_iff : Framed datagram ↔
    ¬(datagram.length ≤ overlayFragmentHeaderBytes ∨ datagram.length > maxOverlayTransitDatagramBytes ∨
      datagram.take 8 ≠ overlayFragmentMagic) ∧
    (datagram.getD 8 0 = overlayFragmentVersion ∧ datagram.getD 9 0 = 0) := by
  rw [Framed]
  tauto

lemma decodeGuarded_eq : decodeGuarded datagram =
    if Overclaims datagram then .error .underflow else .ok (decodeOverlayFragment datagram) := by
  rw [decodeGuarded, decodeOverlayFragment_eq]
  by_cases hshort : datagram.length ≤ overlayFragmentHeaderBytes ∨
      datagram.length > maxOverlayTransitDatagramBytes ∨ datagram.take 8 ≠ overlayFragmentMagic
  · have hframed : ¬Framed datagram := fun h => (framed_iff.mp h).1 hshort
    rw [if_pos hshort, if_neg fun h => hframed h.1, if_pos hframed]
    rfl
  · have hlong : overlayFragmentHeaderBytes < datagram.length := not_le.mp fun h => hshort (.inl h)
    rw [if_neg hshort, versionSupported_eq hlong, readHeader_eq hlong, ok_bind, ok_bind]
    by_cases hversion : datagram.getD 8 0 = overlayFragmentVersion ∧ datagram.getD 9 0 = 0
    · have hframed : Framed datagram := framed_iff.mpr ⟨hshort, hversion⟩
      rw [if_neg (by rw [decide_eq_true hversion]; decide), if_neg (not_not.mpr hframed)]
      by_cases hlimits : (headerOf datagram).WithinLimits
      · rw [if_neg (not_not.mpr hlimits), if_neg (not_not.mpr hlimits),
          expectedPayloadLen_eq hlimits fragmentCount_lt]
        by_cases hmany : (headerOf datagram).index + 1 = (headerOf datagram).fragmentCount ∧
            (headerOf datagram).frameLen <
              overlayFragmentPayloadBytes * ((headerOf datagram).fragmentCount - 1)
        · rw [if_pos hmany, if_pos ⟨hframed, hlimits, hmany⟩]
          rfl
        · rw [if_neg hmany, if_neg fun h => hmany h.2.2]
          rfl
      · rw [if_pos hlimits, if_pos hlimits, if_neg fun h => hlimits h.2.1]
        rfl
    · have hframed : ¬Framed datagram := fun h => hversion (framed_iff.mp h).2
      rw [if_pos (by rw [decide_eq_false hversion]), if_pos hframed, if_neg fun h => hframed h.1]
      rfl

/-! ## The table -/

lemma openGuarded_eq (now : Instant) :
    openGuarded key header now r = .ok (exec (openEntry key header now) r) := by
  have hmax : maxPendingFragmentedFrameBytes = 16769792 := rfl
  have hword : wordLimit = 18446744073709551616 := by norm_num
  rw [openGuarded, openEntry, exec_get_bind]
  by_cases hfull : r.pending.size ≥ maxPendingFragmentedFrames ∨
      r.reservedBytes + header.frameLen > maxPendingFragmentedFrameBytes
  · rw [if_pos hfull, rejectIf, if_pos hfull]
    rfl
  · rw [if_neg hfull, rejectIf, if_neg hfull]
    rw [not_or] at hfull
    rw [add_of_lt (by omega)]
    rfl

lemma storeGuarded_eq (h : TableAccounted r) (hindex : header.index < header.fragmentCount)
    (hcount : header.fragmentCount < 65536) :
    storeGuarded digest key header r = .ok (exec (storeFragment digest key header) r) := by
  have hword : wordLimit = 18446744073709551616 := by norm_num
  rw [storeGuarded, storeFragment, exec_get_bind]
  cases hframe : r.pending[key]? with
  | none => rfl
  | some frame =>
    have hgood := h.frames key frame hframe
    dsimp only
    by_cases hconflict : frame.frameLen ≠ header.frameLen ∨ frame.fragmentCount ≠ header.fragmentCount
    · rw [if_pos hconflict, if_pos hconflict]
      rfl
    · rw [if_neg hconflict, if_neg hconflict]
      rw [not_or, not_not, not_not] at hconflict
      have hlt : header.index < frame.fragments.length := by
        rw [hgood.length, hconflict.2]
        exact hindex
      have hmissing := hgood.missing
      rw [get_of_lt hlt none, ok_bind]
      cases hslot : frame.fragments.getD header.index none with
      | some existing =>
        dsimp only
        by_cases hsame : existing = header.payload
        · rw [if_pos hsame, if_pos hsame]
          rfl
        · rw [if_neg hsame, if_neg hsame]
          rfl
      | none =>
        rw [add_of_lt (by omega), ok_bind, exec_modify_bind]
        dsimp only
        by_cases hmore : frame.receivedCount + 1 ≠ header.fragmentCount
        · rw [if_pos hmore, if_pos hmore]
          rfl
        · rw [if_neg hmore, if_neg hmore]
          rfl

/-- **A push meets one fault at most.** -/
theorem pushGuarded_eq (h : TableAccounted r) (source : SocketAddr) (datagram : List UInt8) (now : Instant) :
    pushGuarded digest source datagram now r =
      if Overclaims datagram then .error .underflow
      else .ok (exec (pushFragment digest source datagram now) r) := by
  have hpruned := h.pruneExpired now
  rw [pushGuarded, decodeGuarded_eq]
  by_cases hmany : Overclaims datagram
  · rw [if_pos hmany, if_pos hmany]
    rfl
  · rw [if_neg hmany, if_neg hmany, ok_bind, pushFragment, exec_modify_bind]
    cases hheader : decodeOverlayFragment datagram with
    | error error => rfl
    | ok header =>
      have hcount : header.fragmentCount < 65536 := by
        rw [decodeOverlayFragment_eq] at hheader
        split_ifs at hheader
        rw [← Except.ok.inj hheader]
        exact fragmentCount_lt
      obtain ⟨hannounced, hindex, -⟩ := decodeOverlayFragment_announced hheader
      rw [exec_check_bind rfl, exec_get_bind]
      dsimp only
      by_cases hkey : (source, header.digest) ∈ (r.pruneExpired now).pending
      · rw [if_neg (not_not.mpr hkey), if_neg (not_not.mpr hkey)]
        exact storeGuarded_eq hpruned hindex hcount
      · rw [if_pos hkey, if_pos hkey, openGuarded_eq, ok_bind, exec_bind]
        have hopened := openEntry_accounted hannounced now (r.pruneExpired now) ⟨hpruned, hkey⟩
        rcases hexec : exec (openEntry (source, header.digest) header now) (r.pruneExpired now) with
          ⟨error | _, opened⟩
        · rfl
        · rw [hexec] at hopened
          exact storeGuarded_eq hopened.1 hindex hcount

end Faults

/-- **A push does not fault unless its datagram announces more fragments than its frame has room for.** -/
theorem push_faults_iff (digest : List UInt8 → FragmentDigest) (history : List Push) (source : SocketAddr)
    (datagram : List UInt8) (now : Instant) :
    let r := Runs.exec (receive digest) .empty history
    ((∀ fault, pushGuarded digest source datagram now r ≠ .error fault) ↔ ¬Overclaims datagram) ∧
    (¬Overclaims datagram → pushGuarded digest source datagram now r =
      .ok (exec (pushFragment digest source datagram now) r)) := by
  intro r
  rw [pushGuarded_eq (exec_accounted digest history)]
  by_cases hmany : Overclaims datagram
  · rw [if_pos hmany]
    exact ⟨⟨fun h => absurd rfl (h .underflow), fun h => absurd hmany h⟩, fun h => absurd hmany h⟩
  · rw [if_neg hmany]
    exact ⟨⟨fun _ => hmany, fun _ _ h => nomatch h⟩, fun _ => rfl⟩

/-- The third of three fragments of a frame of 1,025 bytes, which has two. -/
def overclaimed : List UInt8 :=
  encodeOverlayFragment 2 3 1025 (Vector.replicate 16 0) [0]

/-- It stops the first push there is. -/
theorem push_underflows :
    pushGuarded (fun _ => Vector.replicate 16 0) (.v4 0x0a000001#32 4000) overclaimed 0
      (Runs.exec (receive fun _ => Vector.replicate 16 0) .empty []) = .error .underflow := by
  have hmany : Overclaims overclaimed := by decide +kernel
  rw [pushGuarded_eq (exec_accounted _ []), if_pos hmany]

end HeteroNetwork
