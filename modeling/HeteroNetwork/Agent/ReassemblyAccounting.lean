import HeteroNetwork.Agent.Reassembly

/-!
# Bookkeeping of the reassembler

Whatever fragments arrive, the reassembler knows how much memory it has promised, and what it holds of a
frame fits what was announced for it first.
-/

namespace HeteroNetwork

open Checked OrderedMap Chunks

def slotLength (frameLen fragmentCount index : ℕ) : ℕ :=
  if index + 1 = fragmentCount then frameLen - overlayFragmentPayloadBytes * (fragmentCount - 1)
  else overlayFragmentPayloadBytes

/-- A length and a number of fragments that `push` lets pass. -/
structure Announced (frameLen fragmentCount : ℕ) : Prop where
  long : maxOverlayTransitDatagramBytes < frameLen
  short : frameLen ≤ maxMultihopFrameBytes
  several : 2 ≤ fragmentCount
  count : fragmentCount = divCeil frameLen overlayFragmentPayloadBytes

structure FrameAccounted (frame : PendingOverlayFrame) : Prop where
  announced : Announced frame.frameLen frame.fragmentCount
  length : frame.fragments.length = frame.fragmentCount
  received : frame.receivedCount = frame.fragments.countP Option.isSome
  missing : frame.receivedCount < frame.fragmentCount
  slots : ∀ (index : ℕ) (payload : List UInt8), frame.fragments[index]? = some (some payload) →
    payload.length = slotLength frame.frameLen frame.fragmentCount index

structure TableAccounted (r : OverlayFragmentReassembler) : Prop where
  reserved : r.reservedBytes = total PendingOverlayFrame.frameLen r.pending
  size_le : r.pending.size ≤ maxPendingFragmentedFrames
  frames : ∀ (key : OverlayFragmentKey) (frame : PendingOverlayFrame), r.pending[key]? = some frame →
    FrameAccounted frame

section Accounting

variable {digest : List UInt8 → FragmentDigest} {r r' : OverlayFragmentReassembler}
  {key : OverlayFragmentKey} {header : FragmentHeader} {frame : PendingOverlayFrame}
  {datagram : List UInt8}

lemma accounted_empty : TableAccounted .empty := ⟨rfl, Nat.zero_le _, by simp [OverlayFragmentReassembler.empty]⟩

lemma TableAccounted.shrink (h : TableAccounted r)
    (hreserved : r'.reservedBytes = total PendingOverlayFrame.frameLen r'.pending)
    (hsub : ∀ (key : OverlayFragmentKey) (frame : PendingOverlayFrame), r'.pending[key]? = some frame →
      r.pending[key]? = some frame) : TableAccounted r' := by
  refine ⟨hreserved, (OrderedMap.size_le fun key hkey => ?_).trans h.size_le, fun key frame hframe =>
    h.frames key frame (hsub key frame hframe)⟩
  obtain ⟨frame, hframe⟩ := mem_iff_exists.mp hkey
  exact mem_of_getElem? (hsub key frame hframe)

lemma TableAccounted.remove (h : TableAccounted r) (key : OverlayFragmentKey) : TableAccounted (r.remove key) := by
  refine h.shrink (reserved_remove h.reserved) fun other frame hframe => ?_
  rw [getElem?_remove] at hframe
  split_ifs at hframe
  exact hframe

lemma TableAccounted.pruneExpired (h : TableAccounted r) (now : Instant) : TableAccounted (r.pruneExpired now) := by
  refine h.shrink (reserved_foldl_remove _ h.reserved) fun other frame hframe => ?_
  rw [getElem?_pruneExpired] at hframe
  exact (Option.filter_eq_some_iff.mp hframe).1

lemma decodeOverlayFragment_announced (h : decodeOverlayFragment datagram = .ok header) :
    Announced header.frameLen header.fragmentCount ∧ header.index < header.fragmentCount ∧
      header.payload.length = slotLength header.frameLen header.fragmentCount header.index := by
  simp only [decodeOverlayFragment, bind_eq_ok, rejectIf_eq_ok, pure_eq_ok_iff, not_or, not_le, not_lt,
    ge_iff_le, gt_iff_lt, not_not] at h
  obtain ⟨_, -, _, ⟨hlong, hshort, hseveral, hindex⟩, _, ⟨hcount, hpayload⟩, rfl⟩ := h
  exact ⟨⟨hlong, hshort, hseveral, hcount⟩, hindex, hpayload⟩

lemma frameAccounted_open (h : Announced header.frameLen header.fragmentCount) (now : Instant) :
    FrameAccounted ⟨now, header.frameLen, header.fragmentCount, 0,
      List.replicate header.fragmentCount none⟩ where
  announced := h
  length := List.length_replicate
  received := by simp [List.countP_replicate]
  missing := Nat.lt_of_lt_of_le Nat.zero_lt_two h.several
  slots index payload hslot := by
    rw [List.getElem?_replicate] at hslot
    split_ifs at hslot
    cases hslot

lemma openEntry_accounted (hheader : Announced header.frameLen header.fragmentCount) (now : Instant) :
    Triple (fun r => TableAccounted r ∧ key ∉ r.pending) (openEntry key header now)
      (fun _ r => TableAccounted r ∧ ∀ frame, r.pending[key]? = some frame → frame.receivedCount = 0)
      (fun _ r => TableAccounted r) := by
  refine Triple.get_bind fun r hr => Triple.check_bind (fun _ hroom => ?_)
    (fun _ s _ hs => hs ▸ hr.1)
  intro s hs
  obtain rfl := hs
  rw [rejectIf_eq_ok, not_or, not_le, not_lt] at hroom
  refine ⟨⟨?_, ?_, ?_⟩, ?_⟩
  · show s.reservedBytes + header.frameLen = _
    rw [total_insert, total_erase_of_notMem hr.2, hr.1.reserved, Nat.add_comm]
  · exact Std.TreeMap.size_insert_le.trans hroom.1
  · exact forall_insert hr.1.frames (frameAccounted_open hheader _)
  · intro frame hframe
    rw [Std.TreeMap.getElem?_insert_self] at hframe
    rw [← Option.some.inj hframe]

def filled (frame : PendingOverlayFrame) (header : FragmentHeader) : PendingOverlayFrame :=
  { frame with
    fragments := frame.fragments.set header.index (some header.payload)
    receivedCount := frame.receivedCount + 1 }

lemma FrameAccounted.filled (h : FrameAccounted frame) (hindex : header.index < frame.fragmentCount)
    (hempty : frame.fragments.getD header.index none = none)
    (hpayload : header.payload.length = slotLength frame.frameLen frame.fragmentCount header.index)
    (hmissing : frame.receivedCount + 1 ≠ frame.fragmentCount) :
    FrameAccounted (HeteroNetwork.filled frame header) where
  announced := h.announced
  length := by rw [HeteroNetwork.filled, List.length_set, h.length]
  received := by
    have hlt : header.index < frame.fragments.length := h.length ▸ hindex
    have hslot : frame.fragments[header.index] = none := by
      rwa [List.getD_eq_getElem _ _ hlt] at hempty
    rw [HeteroNetwork.filled, List.countP_set hlt, hslot, h.received]
    simp
  missing := Nat.lt_of_le_of_ne h.missing hmissing
  slots index payload hslot := by
    rw [HeteroNetwork.filled, List.getElem?_set] at hslot
    split_ifs at hslot with hsame
    · obtain rfl := Option.some.inj (Option.some.inj hslot)
      rw [← hsame]
      exact hpayload
    · exact h.slots index payload hslot

lemma TableAccounted.filled (h : TableAccounted r) (hframe : r.pending[key]? = some frame)
    (hfilled : FrameAccounted (HeteroNetwork.filled frame header)) :
    TableAccounted { r with pending := r.pending.insert key (HeteroNetwork.filled frame header) } := by
  refine ⟨?_, ?_, forall_insert h.frames hfilled⟩
  · show r.reservedBytes = total PendingOverlayFrame.frameLen (r.pending.insert key _)
    rw [h.reserved, total_insert, total_erase hframe]
    rfl
  · show (r.pending.insert key _).size ≤ maxPendingFragmentedFrames
    rw [Std.TreeMap.size_insert, if_pos (Std.TreeMap.contains_iff_mem.mpr (mem_of_getElem? hframe))]
    exact h.size_le

lemma finishFrame_accounted (h : TableAccounted r) (hframe : r.pending[key]? = some frame) :
    Triple (· = { r with pending := r.pending.insert key (filled frame header) })
      (finishFrame digest key (filled frame header))
      (fun reassembled r' => TableAccounted r' ∧ key ∉ r'.pending ∧ reassembled.length = frame.frameLen ∧
        digest reassembled = key.2) (fun _ r' => TableAccounted r') := by
  have hremoved : TableAccounted (OverlayFragmentReassembler.remove
      { r with pending := r.pending.insert key (filled frame header) } key) := by
    refine h.shrink (reserved_remove ?_) fun other entry hentry => ?_
    · show r.reservedBytes = total PendingOverlayFrame.frameLen (r.pending.insert key _)
      rw [h.reserved, total_insert, total_erase hframe]
      rfl
    · rw [getElem?_remove] at hentry
      split_ifs at hentry with hkey
      rwa [getElem?_insert_ne hkey] at hentry
  refine Triple.modify_bind (fun r' => TableAccounted r' ∧ key ∉ r'.pending) ?_
    (Triple.check_bind (fun reassembled _ => Triple.check_bind (fun _ hchecked => Triple.pure ?_)
      (fun _ _ _ hs => hs.1)) (fun _ _ _ hs => hs.1))
  · rintro _ rfl
    refine ⟨hremoved, fun hkey => ?_⟩
    obtain ⟨entry, hentry⟩ := mem_iff_exists.mp hkey
    rw [getElem?_remove, if_pos rfl] at hentry
    cases hentry
  · rintro s ⟨hs, hkey⟩
    rw [rejectIf_eq_ok, not_or, not_not, not_not] at hchecked
    exact ⟨hs, hkey, hchecked.1, hchecked.2⟩

lemma storeFragment_accounted (h : TableAccounted r) (hindex : header.index < header.fragmentCount)
    (hpayload : header.payload.length = slotLength header.frameLen header.fragmentCount header.index) :
    Triple (· = r) (storeFragment digest key header)
      (fun result r' => TableAccounted r' ∧ ∀ reassembled, result = some reassembled →
        (∃ frame, r.pending[key]? = some frame ∧ frame.receivedCount + 1 = header.fragmentCount) ∧
          key ∉ r'.pending ∧ reassembled.length = header.frameLen ∧ digest reassembled = key.2)
      (fun _ r' => TableAccounted r') := by
  -- A contradiction ends the frame.
  have hremove {Q : Option (List UInt8) → OverlayFragmentReassembler → Prop} :
      Triple (· = r) (do modify fun r => r.remove key; check (.error ())) Q (fun _ r' => TableAccounted r') :=
    Triple.modify_bind TableAccounted (fun s hs => hs ▸ h.remove key)
      (Triple.check (fun _ _ hok => nomatch hok) (fun _ _ _ hs => hs))
  refine Triple.get_bind fun s hs => ?_
  rw [hs]
  cases hframe : r.pending[key]? with
  | none => exact Triple.check (fun _ _ hok => nomatch hok) (fun _ _ _ hs => hs ▸ h)
  | some frame =>
    have hgood := h.frames key frame hframe
    dsimp only
    by_cases hconflict : frame.frameLen ≠ header.frameLen ∨ frame.fragmentCount ≠ header.fragmentCount
    · rw [if_pos hconflict]
      exact hremove
    · rw [if_neg hconflict]
      rw [not_or, not_not, not_not] at hconflict
      obtain ⟨hlen, hcount⟩ := hconflict
      cases hslot : frame.fragments.getD header.index none with
      | some existing =>
        dsimp only
        by_cases hsame : existing = header.payload
        · rw [if_pos hsame]
          exact Triple.pure fun s hs => ⟨hs ▸ h, fun _ hnone => nomatch hnone⟩
        · rw [if_neg hsame]
          exact hremove
      | none =>
        refine Triple.modify_bind (· = { r with pending := r.pending.insert key (filled frame header) })
          (fun s hs => hs ▸ rfl) ?_
        by_cases hmissing : (filled frame header).receivedCount ≠ header.fragmentCount
        · refine (if_pos hmissing).symm ▸ Triple.pure fun s hs => ⟨?_, fun _ hnone => nomatch hnone⟩
          rw [hs]
          refine h.filled hframe (hgood.filled (hcount ▸ hindex) hslot ?_ (hcount ▸ hmissing))
          rw [hlen, hcount]
          exact hpayload
        · refine (if_neg hmissing).symm ▸ Triple.map ?_
          refine (finishFrame_accounted h hframe).post (fun reassembled s hs => ?_) fun _ _ hs => hs
          obtain ⟨haccounted, hgone, hlength, hdigest⟩ := hs
          refine ⟨haccounted, fun _ hsome => ?_⟩
          obtain rfl := Option.some.inj hsome
          exact ⟨⟨frame, rfl, not_not.mp hmissing⟩, hgone, hlen ▸ hlength, hdigest⟩

/-- Everything that a push may do. -/
theorem pushFragment_accounted (h : TableAccounted r) (source : SocketAddr) (datagram : List UInt8)
    (now : Instant) :
    Triple (· = r) (pushFragment digest source datagram now)
      (fun result r' => TableAccounted r' ∧ ∀ reassembled, result = some reassembled →
        ∃ header, decodeOverlayFragment datagram = .ok header ∧ (source, header.digest) ∈ r.pending ∧
          (source, header.digest) ∉ r'.pending ∧ reassembled.length = header.frameLen ∧
          digest reassembled = header.digest) (fun _ r' => TableAccounted r') := by
  have hpruned := h.pruneExpired now
  refine Triple.modify_bind (· = r.pruneExpired now) (fun s hs => hs ▸ rfl)
    (Triple.check_bind (fun header hheader => ?_) fun _ s _ hs => hs ▸ hpruned)
  obtain ⟨hannounced, hindex, hpayload⟩ := decodeOverlayFragment_announced hheader
  refine Triple.get_bind fun s hs => ?_
  rw [hs]
  by_cases hkey : (source, header.digest) ∈ (r.pruneExpired now).pending
  · rw [if_neg (not_not.mpr hkey)]
    refine (storeFragment_accounted hpruned hindex hpayload).post (fun result s hs => ?_) fun _ _ hs => hs
    obtain ⟨haccounted, hresult⟩ := hs
    refine ⟨haccounted, fun reassembled hsome => ?_⟩
    obtain ⟨⟨frame, hframe, -⟩, hgone, hlength, hdigest⟩ := hresult reassembled hsome
    rw [getElem?_pruneExpired] at hframe
    exact ⟨header, hheader, mem_of_getElem? (Option.filter_eq_some_iff.mp hframe).1, hgone, hlength,
      hdigest⟩
  · rw [if_pos hkey]
    have hopen : Triple (· = r.pruneExpired now) (openEntry (source, header.digest) header now) _ _ :=
      fun s hs => openEntry_accounted hannounced now s (hs ▸ ⟨hpruned, hkey⟩)
    refine hopen.bind fun _ s hs => ?_
    obtain ⟨haccounted, hfresh⟩ := hs
    refine (storeFragment_accounted haccounted hindex hpayload).post (fun result s' hs' => ?_)
      (fun _ _ hs' => hs') s rfl
    refine ⟨hs'.1, fun reassembled hsome => ?_⟩
    -- A frame needs two fragments at least, and this is its first.
    obtain ⟨⟨frame, hframe, hcomplete⟩, -⟩ := hs'.2 reassembled hsome
    have hzero := hfresh frame hframe
    have htwo := hannounced.several
    omega

end Accounting

lemma exec_accounted (digest : List UInt8 → FragmentDigest) (history : List Push) :
    TableAccounted (Runs.exec (receive digest) .empty history) := by
  refine Runs.exec_invariant TableAccounted (fun p _ r h => ?_) accounted_empty
  exact Triple.final ((@pushFragment_accounted digest r h p.source p.datagram p.now).post
    (fun _ _ h => h.1) fun _ _ h => h)

lemma frameLen_le_reserved {r : OverlayFragmentReassembler} {key : OverlayFragmentKey}
    {frame : PendingOverlayFrame} (h : r.reservedBytes = total PendingOverlayFrame.frameLen r.pending)
    (hframe : r.pending[key]? = some frame) : frame.frameLen ≤ r.reservedBytes := by
  rw [h, total_erase hframe]
  exact Nat.le_add_right _ _

/-- **The books of the reassembler balance after any datagrams.** -/
theorem reassembler_accounting (digest : List UInt8 → FragmentDigest) (history : List Push) :
    let r := Runs.exec (receive digest) .empty history
    r.reservedBytes = total PendingOverlayFrame.frameLen r.pending ∧
    -- Whatever is removed, one after the other, was reserved before.
    (∀ (keys : List OverlayFragmentKey) (key : OverlayFragmentKey) (frame : PendingOverlayFrame),
      (keys.foldl OverlayFragmentReassembler.remove r).pending[key]? = some frame →
      frame.frameLen ≤ (keys.foldl OverlayFragmentReassembler.remove r).reservedBytes) ∧
    r.pending.size ≤ 256 ∧
    (∀ (key : OverlayFragmentKey) (frame : PendingOverlayFrame), r.pending[key]? = some frame →
      frame.fragments.length = frame.fragmentCount ∧
      frame.receivedCount = frame.fragments.countP Option.isSome ∧
      frame.receivedCount < frame.fragmentCount ∧
      ∀ (index : ℕ) (payload : List UInt8), frame.fragments[index]? = some (some payload) →
        payload.length = slotLength frame.frameLen frame.fragmentCount index) ∧
    (∀ p reassembled r', receive digest r p = (.ok (some reassembled), r') →
      ∃ header, decodeOverlayFragment p.datagram = .ok header ∧
        (p.source, header.digest) ∈ r.pending ∧ (p.source, header.digest) ∉ r'.pending ∧
        reassembled.length = header.frameLen ∧ digest reassembled = header.digest) := by
  intro r
  have haccounted : TableAccounted r := exec_accounted digest history
  refine ⟨haccounted.reserved, ?_, haccounted.size_le, ?_, ?_⟩
  · exact fun keys key frame hframe =>
      frameLen_le_reserved (reserved_foldl_remove keys haccounted.reserved) hframe
  · intro key frame hframe
    have hframe := haccounted.frames key frame hframe
    exact ⟨hframe.length, hframe.received, hframe.missing, hframe.slots⟩
  · intro p reassembled r' hpush
    have hspec := @pushFragment_accounted digest r haccounted p.source p.datagram p.now r rfl
    rw [receive] at hpush
    rw [hpush] at hspec
    exact hspec.2 reassembled rfl

end HeteroNetwork
