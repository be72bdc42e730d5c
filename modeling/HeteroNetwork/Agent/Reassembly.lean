import HeteroNetwork.Lib.Runs
import HeteroNetwork.Agent.OverlayFragments

/-!
# Reassembly undoes fragmentation

Fragments of many frames arrive in any order, more than once, from many sources.  What should become of
them is said by `collect`: a frame is collected from the first fragment that arrives while it is not, until
all are there or the time is over.
-/

namespace HeteroNetwork

open Std (TreeMap)

open Checked OrderedMap Chunks Function BigEndian List

/-! ## The fragments of a frame -/

abbrev SourceFrame := SocketAddr × List UInt8

def fragmentCount (frame : List UInt8) : ℕ := divCeil frame.length overlayFragmentPayloadBytes

def fragmentPayload (frame : List UInt8) (index : ℕ) : List UInt8 :=
  chunk overlayFragmentPayloadBytes frame index

section Fragments

variable (digest : List UInt8 → FragmentDigest)

def fragment (frame : List UInt8) (index : ℕ) : List UInt8 :=
  encodeOverlayFragment (UInt16.ofNat index) (UInt16.ofNat (fragmentCount frame))
    (UInt32.ofNat frame.length) (digest frame) (fragmentPayload frame index)

def fragments (frame : List UInt8) : List (List UInt8) :=
  (List.range (fragmentCount frame)).map (fragment digest frame)

/-- A frame that is too long for a datagram and not too long for a frame. -/
structure Fragmented (frame : List UInt8) : Prop where
  long : 1025 ≤ frame.length
  short : frame.length ≤ maxMultihopFrameBytes

variable {digest} {frame : List UInt8} {index : ℕ}

lemma payload_pos : 0 < overlayFragmentPayloadBytes := by decide

lemma Fragmented.count_bounds (h : Fragmented frame) :
    2 ≤ fragmentCount frame ∧ fragmentCount frame ≤ 67 := by
  obtain ⟨hlong, hshort⟩ := h
  have hmax : maxMultihopFrameBytes = 65507 := rfl
  have hcount : fragmentCount frame = (frame.length + 990 - 1) / 990 := rfl
  omega

lemma u16TryFrom_of_lt {n : ℕ} (h : n ≤ 67) : u16TryFrom n = some (UInt16.ofNat n) := by
  rw [u16TryFrom, if_pos (lt_of_le_of_lt h (by decide))]

/-- What `send_frame` sends. -/
theorem sendFrame_eq (h : Fragmented frame) {endpointFor : NodeId → Option SocketAddr}
    {nextHop : NodeId} {endpoint : SocketAddr} (hendpoint : endpointFor nextHop = some endpoint) :
    sendFrame digest endpointFor nextHop frame = .ok (endpoint, fragments digest frame) := by
  have hlong : ¬frame.length ≤ maxOverlayTransitDatagramBytes := not_le.mpr h.long
  have hlength : u32TryFrom frame.length = some (UInt32.ofNat frame.length) := by
    rw [u32TryFrom, if_pos (lt_of_le_of_lt h.short (by decide))]
  have hcount : u16TryFrom (divCeil frame.length overlayFragmentPayloadBytes) =
      some (UInt16.ofNat (fragmentCount frame)) := u16TryFrom_of_lt h.count_bounds.2
  simp only [sendFrame, hendpoint, if_neg hlong, hcount, hlength, ok_bind]
  rw [mapM_eq_ok.mpr, ok_bind]
  · rfl
  · refine ext_getElem (by simp [fragments, fragmentCount]) fun i hi _ => ?_
    have hindex : i < fragmentCount frame := by simpa [fragmentCount] using hi
    have hsmall : i ≤ 67 := hindex.le.trans h.count_bounds.2
    simp [fragments, fragment, fragmentPayload, chunks, u16TryFrom_of_lt hsmall]

lemma length_encodeOverlayFragment {index count : UInt16} {frameLen : UInt32} {d : FragmentDigest}
    {payload : List UInt8} : (encodeOverlayFragment index count frameLen d payload).length =
      overlayFragmentHeaderBytes + payload.length := by
  have hmagic : overlayFragmentMagic.length = 8 := by decide
  simp [encodeOverlayFragment, overlayFragmentHeaderBytes, hmagic]
  omega

lemma length_fragmentPayload (hindex : index < fragmentCount frame) :
    (fragmentPayload frame index).length =
      if index + 1 = fragmentCount frame then
        frame.length - overlayFragmentPayloadBytes * (fragmentCount frame - 1)
      else overlayFragmentPayloadBytes :=
  length_chunk_eq payload_pos hindex

lemma fragmentPayload_bounds (hindex : index < fragmentCount frame) :
    0 < (fragmentPayload frame index).length ∧
      (fragmentPayload frame index).length ≤ overlayFragmentPayloadBytes := by
  have hlt : overlayFragmentPayloadBytes * index < frame.length :=
    mul_lt_of_lt_divCeil payload_pos hindex
  have hpos := payload_pos
  rw [fragmentPayload, length_chunk]
  omega

lemma length_fragment (digest : List UInt8 → FragmentDigest) (hindex : index < fragmentCount frame) :
    overlayFragmentHeaderBytes < (fragment digest frame index).length ∧
      (fragment digest frame index).length ≤ maxOverlayTransitDatagramBytes := by
  obtain ⟨hpos, hle⟩ := fragmentPayload_bounds hindex
  have hsum : overlayFragmentHeaderBytes + overlayFragmentPayloadBytes =
    maxOverlayTransitDatagramBytes := rfl
  rw [fragment, length_encodeOverlayFragment]
  omega

lemma encodeOverlayFragment_fields (index count : UInt16) (frameLen : UInt32) (d : FragmentDigest)
    (payload : List UInt8) :
    let datagram := encodeOverlayFragment index count frameLen d payload
    datagram.take 8 = overlayFragmentMagic ∧ datagram.getD 8 0 = overlayFragmentVersion ∧
      datagram.getD 9 0 = 0 ∧ (datagram.drop 10).take 2 = toBytes 2 index.toNat ∧
      (datagram.drop 12).take 2 = toBytes 2 count.toNat ∧
      (datagram.drop 14).take 4 = toBytes 4 frameLen.toNat ∧
      datagram.drop 18 = d.toList ++ payload ∧ datagram.drop overlayFragmentHeaderBytes = payload := by
  have hmagic : overlayFragmentMagic = [73, 80, 65, 82, 83, 45, 70, 71] := by decide
  simp [encodeOverlayFragment, hmagic, overlayFragmentHeaderBytes, toBytes]

/-- The receiver reads from a fragment what the sender wrote, and finds nothing wrong with it. -/
theorem decodeOverlayFragment_fragment (h : Fragmented frame) (hindex : index < fragmentCount frame) :
    decodeOverlayFragment (fragment digest frame index) =
      .ok ⟨index, fragmentCount frame, frame.length, digest frame, fragmentPayload frame index⟩ := by
  obtain ⟨hcountLow, hcountHigh⟩ := h.count_bounds
  obtain ⟨hmagic, hversion, hzero, hindexBytes, hcountBytes, hlengthBytes, hdigest, hpayload⟩ :=
    encodeOverlayFragment_fields (UInt16.ofNat index) (UInt16.ofNat (fragmentCount frame))
      (UInt32.ofNat frame.length) (digest frame) (fragmentPayload frame index)
  rw [← fragment] at hmagic hversion hzero hindexBytes hcountBytes hlengthBytes hdigest hpayload
  have hshort : frame.length ≤ 65507 := h.short
  rw [UInt16.toNat_ofNat_of_lt' (by rw [UInt16.size]; omega)] at hindexBytes hcountBytes
  rw [UInt32.toNat_ofNat_of_lt' (by rw [UInt32.size]; omega)] at hlengthBytes
  have hread : Vector.ofFn (fun i : Fin 16 => ((fragment digest frame index).drop 18).getD i.val 0) =
      digest frame := by
    refine Vector.ext fun i hi => ?_
    have hlt : i < (digest frame).toList.length := by simpa using hi
    simp [hdigest, getElem?_append_left hlt, hi]
  obtain ⟨hheader, hdatagram⟩ := length_fragment digest hindex
  have hlong : ¬frame.length ≤ maxOverlayTransitDatagramBytes := not_le.mpr h.long
  simp only [decodeOverlayFragment, hindexBytes, hcountBytes, hlengthBytes, hread, hpayload,
    hmagic, hversion, hzero]
  rw [ofBytes_toBytes (by omega), ofBytes_toBytes (by omega),
    ofBytes_toBytes (by omega),
    (rejectIf_eq_ok (u := ())).mpr (by simp [hheader, hdatagram]), ok_bind,
    (rejectIf_eq_ok (u := ())).mpr (by simp [hlong, h.short, Nat.lt_of_succ_le hcountLow, hindex]),
    ok_bind, (rejectIf_eq_ok (u := ())).mpr (by simp [length_fragmentPayload hindex, fragmentCount]),
    ok_bind]
  rfl

end Fragments

/-! ## What should be collected -/

structure Push where
  source : SocketAddr
  frame : List UInt8
  index : ℕ
  datagram : List UInt8
  now : Instant
deriving DecidableEq

def Push.sourceFrame (p : Push) : SourceFrame := (p.source, p.frame)

/-- The datagram is one of those that `send_frame` makes of the frame. -/
def Push.Sent (digest : List UInt8 → FragmentDigest) (p : Push) : Prop :=
  ∃ endpointFor nextHop endpoint datagrams,
    sendFrame digest endpointFor nextHop p.frame = .ok (endpoint, datagrams) ∧
      datagrams[p.index]? = some p.datagram

/-- A frame that is being collected: since when, and the fragments that are there. -/
structure Collection where
  since : Instant
  indexes : Finset ℕ
deriving DecidableEq

def Collection.alive (now : Instant) (c : Collection) : Bool :=
  now < c.since + overlayFragmentReassemblyTimeout

def allIndexes (f : SourceFrame) : Finset ℕ := Finset.range (fragmentCount f.2)

/-- A fragment joins a collection, or begins one; the last one ends it. -/
def Collection.add (f : SourceFrame) (c : Collection) (index : ℕ) : Option Collection :=
  let indexes := insert index c.indexes
  if indexes = allIndexes f then none else some ⟨c.since, indexes⟩

def collectStep (f : SourceFrame) (c : Option Collection) (p : Push) : Option Collection :=
  let c := c.filter (Collection.alive p.now)
  if p.sourceFrame = f then (c.getD ⟨p.now, ∅⟩).add f p.index else c

def collect (f : SourceFrame) (history : List Push) : Option Collection :=
  history.foldl (collectStep f) none

def current (history : List Push) (p : Push) : Collection :=
  ((collect p.sourceFrame history).filter (Collection.alive p.now)).getD ⟨p.now, ∅⟩

def incomplete (history : List Push) : Finset SourceFrame :=
  (history.map Push.sourceFrame).toFinset.filter fun f => (collect f history).isSome

def pushed (f : SourceFrame) (history : List Push) : Finset ℕ :=
  ((history.filter fun p => p.sourceFrame = f).map Push.index).toFinset

lemma card_incomplete_le (history : List Push) : (incomplete history).card ≤ history.length := by
  calc (incomplete history).card
      ≤ (history.map Push.sourceFrame).toFinset.card := Finset.card_filter_le _ _
    _ ≤ (history.map Push.sourceFrame).length := toFinset_card_le _
    _ = history.length := length_map _

variable {history : List Push} {f : SourceFrame} {p : Push}

lemma pushed_append_singleton :
    pushed f (history ++ [p]) =
      if p.sourceFrame = f then insert p.index (pushed f history) else pushed f history := by
  rw [pushed, filter_append, map_append, toFinset_append]
  split_ifs with hf
  · simp [hf, pushed, Finset.union_comm]
  · simp [hf, pushed]

lemma pushed_subset : pushed f history ⊆ pushed f (history ++ [p]) := by
  rw [pushed_append_singleton]
  split_ifs
  · exact Finset.subset_insert _ _
  · exact Finset.Subset.refl _

lemma collect_append_singleton : collect f (history ++ [p]) = collectStep f (collect f history) p := by
  simp [collect]

/-! ## The table of the receiver -/

abbrev FrameTable := SourceFrame → Option Collection

def keyOf (digest : List UInt8 → FragmentDigest) (f : SourceFrame) : OverlayFragmentKey :=
  (f.1, digest f.2)

def entryOf (f : SourceFrame) (c : Collection) : PendingOverlayFrame where
  expiresAt := c.since + overlayFragmentReassemblyTimeout
  frameLen := f.2.length
  fragmentCount := fragmentCount f.2
  receivedCount := c.indexes.card
  fragments := (List.range (fragmentCount f.2)).map fun i =>
    if i ∈ c.indexes then some (fragmentPayload f.2 i) else none

/-- The table holds what is being collected, and nothing else. -/
structure Represents (digest : List UInt8 → FragmentDigest) (frames : Set SourceFrame)
    (table : FrameTable) (r : OverlayFragmentReassembler) : Prop where
  lookup : ∀ f ∈ frames, r.pending[keyOf digest f]? = (table f).map (entryOf f)
  known : ∀ key ∈ r.pending, ∃ f ∈ frames, keyOf digest f = key
  reserved : r.reservedBytes = total PendingOverlayFrame.frameLen r.pending

section Table

open Collection (alive add)

variable {digest : List UInt8 → FragmentDigest} {frames : Set SourceFrame} {table : FrameTable}
  {r : OverlayFragmentReassembler} {f : SourceFrame} {c : Collection}

lemma represents_empty : Represents digest frames (fun _ => none) .empty where
  lookup _ _ := by simp [OverlayFragmentReassembler.empty]
  known _ hkey := by simp [OverlayFragmentReassembler.empty] at hkey
  reserved := rfl

lemma Represents.insert (h : Represents digest frames table r) (hkeys : frames.InjOn (keyOf digest))
    (hf : f ∈ frames) {reserved : ℕ}
    (hreserved : reserved = f.2.length + total PendingOverlayFrame.frameLen
      (r.pending.erase (keyOf digest f))) :
    Represents digest frames (update table f (some c))
      ⟨r.pending.insert (keyOf digest f) (entryOf f c), reserved⟩ where
  lookup g hg := by
    by_cases hgf : g = f
    · subst hgf
      rw [TreeMap.getElem?_insert_self, update_self, Option.map_some]
    · have hne : keyOf digest f ≠ keyOf digest g := fun heq => hgf (hkeys hg hf heq.symm)
      rw [getElem?_insert_ne hne, update_of_ne hgf, h.lookup g hg]
  known key hkey := by
    rcases TreeMap.mem_insert.mp hkey with heq | hmem
    · exact ⟨f, hf, Std.LawfulEqOrd.eq_of_compare heq⟩
    · exact h.known key hmem
  reserved := by rw [hreserved, total_insert]; rfl

lemma getElem?_remove (key k : OverlayFragmentKey) :
    (r.remove key).pending[k]? = if key = k then none else r.pending[k]? := by
  rw [OverlayFragmentReassembler.remove]
  cases hkey : r.pending[key]? with
  | some frame =>
    by_cases hk : key = k
    · subst hk
      rw [if_pos rfl, TreeMap.getElem?_erase_self]
    · rw [if_neg hk, getElem?_erase_ne hk]
  | none =>
    by_cases hk : key = k
    · subst hk
      rw [if_pos rfl, hkey]
    · rw [if_neg hk]

lemma reserved_remove {key : OverlayFragmentKey}
    (h : r.reservedBytes = total PendingOverlayFrame.frameLen r.pending) :
    (r.remove key).reservedBytes = total PendingOverlayFrame.frameLen (r.remove key).pending := by
  rw [OverlayFragmentReassembler.remove]
  cases hkey : r.pending[key]? with
  | some frame =>
    rw [total_erase hkey] at h
    simp only [h, Nat.add_sub_cancel_left]
  | none => exact h

lemma Represents.remove (h : Represents digest frames table r) (hkeys : frames.InjOn (keyOf digest))
    (hf : f ∈ frames) :
    Represents digest frames (update table f none) (r.remove (keyOf digest f)) where
  lookup g hg := by
    rw [getElem?_remove]
    by_cases hgf : g = f
    · subst hgf
      rw [if_pos rfl, update_self, Option.map_none]
    · have hne : keyOf digest f ≠ keyOf digest g := fun heq => hgf (hkeys hg hf heq.symm)
      rw [if_neg hne, update_of_ne hgf, h.lookup g hg]
  known key hkey := by
    rw [mem_iff_exists, getElem?_remove] at hkey
    obtain ⟨entry, hentry⟩ := hkey
    split_ifs at hentry
    exact h.known key (mem_of_getElem? hentry)
  reserved := reserved_remove h.reserved

lemma foldl_remove (keys : List OverlayFragmentKey) (k : OverlayFragmentKey) :
    (keys.foldl OverlayFragmentReassembler.remove r).pending[k]? =
      if k ∈ keys then none else r.pending[k]? := by
  induction keys generalizing r with
  | nil => simp
  | cons key keys ih =>
    rw [foldl_cons, ih, getElem?_remove]
    by_cases hk : k ∈ keys
    · simp [hk]
    · simp [hk, eq_comm]

lemma reserved_foldl_remove (keys : List OverlayFragmentKey)
    (h : r.reservedBytes = total PendingOverlayFrame.frameLen r.pending) :
    (keys.foldl OverlayFragmentReassembler.remove r).reservedBytes =
      total PendingOverlayFrame.frameLen (keys.foldl OverlayFragmentReassembler.remove r).pending := by
  induction keys generalizing r with
  | nil => exact h
  | cons key keys ih => exact ih (reserved_remove h)

lemma getElem?_pruneExpired (now : Instant) (k : OverlayFragmentKey) :
    (r.pruneExpired now).pending[k]? = r.pending[k]?.filter fun entry => now < entry.expiresAt := by
  rw [OverlayFragmentReassembler.pruneExpired, foldl_remove]
  cases hk : r.pending[k]? with
  | none => simp
  | some entry =>
    have hmem : k ∈ (r.pending.toList.filter fun e => e.2.expiresAt ≤ now).map Prod.fst ↔
        entry.expiresAt ≤ now := by
      simp [TreeMap.mem_toList_iff_getElem?_eq_some, hk]
    by_cases hover : entry.expiresAt ≤ now
    · rw [if_pos (hmem.mpr hover), Option.filter_some, if_neg (by simpa using hover)]
    · rw [if_neg fun h => hover (hmem.mp h), Option.filter_some, if_pos (by simpa using hover)]

lemma Represents.prune (h : Represents digest frames table r) (now : Instant) :
    Represents digest frames (fun f => (table f).filter (alive now))
      (r.pruneExpired now) where
  lookup f hf := by
    rw [getElem?_pruneExpired, h.lookup f hf]
    cases table f with
    | none => rfl
    | some c =>
      by_cases halive : now < c.since + overlayFragmentReassemblyTimeout
      · simp [Option.filter_some, alive, entryOf, halive]
      · simp [Option.filter_some, alive, entryOf, halive]
  known key hkey := by
    rw [mem_iff_exists, getElem?_pruneExpired] at hkey
    obtain ⟨entry, hentry⟩ := hkey
    obtain ⟨hentry, -⟩ := Option.filter_eq_some_iff.mp hentry
    exact h.known key (mem_of_getElem? hentry)
  reserved := reserved_foldl_remove _ h.reserved

/-! ## One push -/

lemma getD_fragments {i : ℕ} (hi : i < fragmentCount f.2) :
    (entryOf f c).fragments.getD i none =
      if i ∈ c.indexes then some (fragmentPayload f.2 i) else none := by
  simp [entryOf, hi]

lemma entryOf_insert {i : ℕ} (hnew : i ∉ c.indexes) :
    { entryOf f c with
      fragments := (entryOf f c).fragments.set i (some (fragmentPayload f.2 i))
      receivedCount := (entryOf f c).receivedCount + 1 } = entryOf f ⟨c.since, insert i c.indexes⟩ := by
  have hfragments : (entryOf f c).fragments.set i (some (fragmentPayload f.2 i)) =
      (entryOf f ⟨c.since, insert i c.indexes⟩).fragments := by
    refine ext_getElem (by simp [entryOf]) fun j hj _ => ?_
    by_cases hij : i = j
    · subst hij
      simp [entryOf]
    · simp [entryOf, getElem_set_ne hij, Ne.symm hij]
  rw [hfragments]
  simp only [entryOf, Finset.card_insert_of_notMem hnew]

lemma joinFragments_map_some (l : List (List UInt8)) : joinFragments (l.map some) = .ok l.flatten := by
  induction l with
  | nil => rfl
  | cons fragment rest ih => rw [map_cons, joinFragments, ih]; rfl

lemma joinFragments_entryOf (hall : c.indexes = allIndexes f) :
    joinFragments (entryOf f c).fragments = .ok f.2 := by
  have hfragments : (entryOf f c).fragments =
      (chunks overlayFragmentPayloadBytes f.2).map some := by
    rw [chunks, map_map]
    refine map_congr_left fun i hi => ?_
    rw [hall, allIndexes, if_pos (Finset.mem_range.mpr (mem_range.mp hi))]
    rfl
  rw [hfragments, joinFragments_map_some, flatten_chunks payload_pos]

lemma exec_finishFrame (hall : c.indexes = allIndexes f) :
    exec (finishFrame digest (keyOf digest f) (entryOf f c)) r =
      (.ok f.2, r.remove (keyOf digest f)) := by
  rw [finishFrame, exec_modify_bind, exec_check_bind (joinFragments_entryOf hall),
    exec_check_bind ((rejectIf_eq_ok (u := ())).mpr (by simp [entryOf, keyOf]))]
  rfl

def answerOf (f : SourceFrame) (c : Collection) (index : ℕ) : Option (List UInt8) :=
  if insert index c.indexes = allIndexes f then some f.2 else none

lemma answerOf_eq_some {index : ℕ} :
    answerOf f c index = some f.2 ↔ insert index c.indexes = allIndexes f := by
  rw [answerOf]
  split_ifs with hall <;> simp [hall]

section

variable (h : Represents digest frames table r) (hkeys : frames.InjOn (keyOf digest)) (hf : f ∈ frames)
include h hkeys hf

lemma storeFragment_spec {index : ℕ} (hindex : index < fragmentCount f.2) (htable : table f = some c)
    (hsub : c.indexes ⊆ allIndexes f) (hprogress : c.indexes ≠ allIndexes f) :
    ∃ r', exec (storeFragment digest (keyOf digest f)
        ⟨index, fragmentCount f.2, f.2.length, digest f.2, fragmentPayload f.2 index⟩) r =
          (.ok (answerOf f c index), r') ∧
      Represents digest frames (update table f (c.add f index)) r' := by
  have hlookup : r.pending[keyOf digest f]? = some (entryOf f c) := by
    rw [h.lookup f hf, htable, Option.map_some]
  rw [storeFragment, exec_get_bind]
  simp only [hlookup]
  rw [if_neg (by simp [entryOf]), getD_fragments hindex]
  by_cases hold : index ∈ c.indexes
  · -- a duplicate changes nothing
    have hinsert : insert index c.indexes = c.indexes := Finset.insert_eq_self.mpr hold
    rw [if_pos hold]
    simp only [if_true]
    refine ⟨r, ?_, ?_⟩
    · rw [answerOf, hinsert, if_neg hprogress]
      rfl
    · rw [add, hinsert, if_neg hprogress, ← htable, update_eq_self]
      exact h
  · rw [if_neg hold]
    simp only [entryOf_insert hold]
    rw [exec_modify_bind]
    have hins := h.insert (c := ⟨c.since, insert index c.indexes⟩) hkeys hf
      (h.reserved.trans (total_erase hlookup))
    have hsub' : insert index c.indexes ⊆ allIndexes f :=
      Finset.insert_subset (Finset.mem_range.mpr hindex) hsub
    have hcard : (entryOf f c).receivedCount + 1 = fragmentCount f.2 ↔
        insert index c.indexes = allIndexes f := by
      change c.indexes.card + 1 = _ ↔ _
      rw [← Finset.card_insert_of_notMem hold]
      refine ⟨fun heq => Finset.eq_of_subset_of_card_le hsub' ?_, fun heq => ?_⟩
      · rw [heq, allIndexes, Finset.card_range]
      · rw [heq, allIndexes, Finset.card_range]
    by_cases hall : insert index c.indexes = allIndexes f
    · -- the last fragment: the frame leaves the table
      rw [if_neg (not_not.mpr (hcard.mpr hall)), answerOf, if_pos hall, add, if_pos hall,
        exec_map, exec_finishFrame hall]
      have hremoved := hins.remove hkeys hf
      rw [update_idem] at hremoved
      exact ⟨_, rfl, hremoved⟩
    · rw [if_pos fun heq => hall (hcard.mp heq), answerOf, if_neg hall, add, if_neg hall]
      exact ⟨_, rfl, hins⟩

lemma openEntry_spec (hlength : ∀ g ∈ frames, Fragmented g.2) (htable : table f = none)
    (hroom : r.pending.size < maxPendingFragmentedFrames) (header : FragmentHeader) (now : Instant)
    (hcount : header.fragmentCount = fragmentCount f.2) (hlen : header.frameLen = f.2.length) :
    ∃ r', exec (openEntry (keyOf digest f) header now) r = (.ok (), r') ∧
      Represents digest frames (update table f (some ⟨now, ∅⟩)) r' := by
  have habsent : keyOf digest f ∉ r.pending := by
    rw [mem_iff_exists, h.lookup f hf, htable]
    simp
  have hreserved : r.reservedBytes + header.frameLen ≤ maxPendingFragmentedFrameBytes := by
    have htotal : total PendingOverlayFrame.frameLen r.pending ≤
        r.pending.size * maxMultihopFrameBytes := by
      refine total_le fun key entry hentry => ?_
      obtain ⟨g, hg, rfl⟩ := h.known key (mem_of_getElem? hentry)
      rw [h.lookup g hg] at hentry
      obtain ⟨c, -, rfl⟩ := Option.map_eq_some_iff.mp hentry
      exact (hlength g hg).short
    have hshort := (hlength f hf).short
    calc r.reservedBytes + header.frameLen
        ≤ r.pending.size * maxMultihopFrameBytes + maxMultihopFrameBytes := by
          rw [h.reserved, hlen]
          exact Nat.add_le_add htotal hshort
      _ = (r.pending.size + 1) * maxMultihopFrameBytes := by ring
      _ ≤ maxPendingFragmentedFrameBytes := Nat.mul_le_mul_right _ hroom
  have hentry : (⟨now + overlayFragmentReassemblyTimeout, header.frameLen, header.fragmentCount, 0,
      List.replicate header.fragmentCount none⟩ : PendingOverlayFrame) = entryOf f ⟨now, ∅⟩ := by
    simp [entryOf, hcount, hlen, map_const']
  rw [openEntry, exec_get_bind, exec_check_bind ((rejectIf_eq_ok (u := ())).mpr
    (not_or.mpr ⟨not_le.mpr hroom, not_lt.mpr hreserved⟩))]
  refine ⟨_, rfl, ?_⟩
  rw [hentry, hlen]
  refine h.insert hkeys hf ?_
  rw [total_erase_of_notMem habsent, h.reserved, Nat.add_comm]

end

variable {history : List Push} {p : Push}

lemma collect_push (history : List Push) (p : Push) : (fun f => collect f (history ++ [p])) =
    update (fun f => (collect f history).filter (alive p.now)) p.sourceFrame
      ((current history p).add p.sourceFrame p.index) := by
  funext f
  rw [collect_append_singleton, collectStep]
  by_cases hf : p.sourceFrame = f
  · subst hf
    rw [if_pos rfl, update_self]
    rfl
  · rw [if_neg hf, update_of_ne (Ne.symm hf)]

/-- A collection holds some fragments of its frame, but not all, and they have been pushed. -/
structure InProgress (f : SourceFrame) (history : List Push) (c : Collection) : Prop where
  sub : c.indexes ⊆ allIndexes f
  ne : c.indexes ≠ allIndexes f
  pushed : c.indexes ⊆ pushed f history

lemma inProgress_fresh (hlong : Fragmented f.2) (now : Instant) : InProgress f history ⟨now, ∅⟩ where
  sub := Finset.empty_subset _
  ne h := by
    have hcard := congrArg Finset.card h
    rw [allIndexes, Finset.card_range, Finset.card_empty] at hcard
    have := hlong.count_bounds.1
    omega
  pushed := Finset.empty_subset _

lemma collect_inProgress (hindex : ∀ p ∈ history, p.index < fragmentCount p.frame)
    (h : collect f history = some c) : InProgress f history c ∧ f ∈ history.map Push.sourceFrame := by
  induction history using List.reverseRecOn generalizing c with
  | nil => simp [collect] at h
  | append_singleton history p ih =>
    have hold : ∀ p ∈ history, p.index < fragmentCount p.frame := fun q hq => hindex q (by simp [hq])
    rw [collect_append_singleton, collectStep] at h
    by_cases hf : p.sourceFrame = f
    · subst hf
      rw [if_pos rfl] at h
      change (current history p).add p.sourceFrame p.index = some c at h
      rw [add] at h
      split_ifs at h with hall
      obtain rfl := Option.some.inj h
      -- what was there before the push has been pushed before
      have hbefore : (current history p).indexes ⊆ allIndexes p.sourceFrame ∧
          (current history p).indexes ⊆ HeteroNetwork.pushed p.sourceFrame history := by
        rw [current]
        cases hc : (collect p.sourceFrame history).filter (alive p.now) with
        | none => simp
        | some c' =>
          obtain ⟨hc, -⟩ := Option.filter_eq_some_iff.mp hc
          exact ⟨(ih hold hc).1.sub, (ih hold hc).1.pushed⟩
      refine ⟨⟨Finset.insert_subset (Finset.mem_range.mpr (hindex p (by simp))) hbefore.1, hall, ?_⟩,
        by simp⟩
      rw [pushed_append_singleton, if_pos rfl]
      exact Finset.insert_subset_insert _ hbefore.2
    · rw [if_neg hf] at h
      obtain ⟨h, -⟩ := Option.filter_eq_some_iff.mp h
      obtain ⟨hprogress, hmem⟩ := ih hold h
      exact ⟨⟨hprogress.sub, hprogress.ne, hprogress.pushed.trans pushed_subset⟩, by simp [hmem]⟩

lemma current_inProgress (hindex : ∀ p ∈ history, p.index < fragmentCount p.frame)
    (hlong : Fragmented p.frame) : InProgress p.sourceFrame history (current history p) := by
  rw [current]
  cases hc : (collect p.sourceFrame history).filter (alive p.now) with
  | none => exact inProgress_fresh hlong _
  | some c =>
    obtain ⟨hc, -⟩ := Option.filter_eq_some_iff.mp hc
    exact (collect_inProgress hindex hc).1

lemma room_of_incomplete (h : Represents digest frames (fun f => collect f history) r)
    (hindex : ∀ p ∈ history, p.index < fragmentCount p.frame) (hlong : Fragmented p.frame)
    (hnew : (collect p.sourceFrame history).filter (alive p.now) = none)
    (hroom : (incomplete (history ++ [p])).card ≤ maxPendingFragmentedFrames) :
    (r.pruneExpired p.now).pending.size < maxPendingFragmentedFrames := by
  have hpruned := h.prune p.now
  have hcollect := fun f => congrFun (collect_push history p) f
  -- the frame of this push has one fragment, and needs more
  have hopen : p.sourceFrame ∈ incomplete (history ++ [p]) := by
    have hone : insert p.index (∅ : Finset ℕ) ≠ allIndexes p.sourceFrame := fun heq => by
      have hcard := congrArg Finset.card heq
      rw [allIndexes, Finset.card_range, insert_empty_eq, Finset.card_singleton] at hcard
      change 1 = fragmentCount p.frame at hcard
      have := hlong.count_bounds.1
      omega
    refine Finset.mem_filter.mpr ⟨by simp, ?_⟩
    rw [hcollect, update_self, current, hnew, Option.getD_none, add, if_neg hone,
      Option.isSome_some]
  have hothers : (r.pruneExpired p.now).pending.keys.toFinset ⊆
      ((incomplete (history ++ [p])).erase p.sourceFrame).image (keyOf digest) := by
    intro key hkey
    rw [mem_toFinset, TreeMap.mem_keys] at hkey
    obtain ⟨g, hg, rfl⟩ := hpruned.known key hkey
    obtain ⟨entry, hentry⟩ := mem_iff_exists.mp hkey
    rw [hpruned.lookup g hg] at hentry
    obtain ⟨c, hc, -⟩ := Option.map_eq_some_iff.mp hentry
    have hne : g ≠ p.sourceFrame := fun heq => by
      rw [heq, hnew] at hc
      cases hc
    have hmem := (collect_inProgress hindex (Option.filter_eq_some_iff.mp hc).1).2
    refine Finset.mem_image_of_mem _ (Finset.mem_erase.mpr ⟨hne, Finset.mem_filter.mpr ⟨?_, ?_⟩⟩)
    · rw [mem_toFinset, map_append]
      exact mem_append_left _ hmem
    · rw [hcollect, update_of_ne hne, hc, Option.isSome_some]
  calc (r.pruneExpired p.now).pending.size
      = (r.pruneExpired p.now).pending.keys.toFinset.card := by
        rw [toFinset_card_of_nodup (nodup_keys _), TreeMap.length_keys]
    _ ≤ ((incomplete (history ++ [p])).erase p.sourceFrame).card :=
        (Finset.card_le_card hothers).trans Finset.card_image_le
    _ < (incomplete (history ++ [p])).card := Finset.card_erase_lt_of_mem hopen
    _ ≤ maxPendingFragmentedFrames := hroom

/-- A push is answered as it should be, and the table goes on to hold what is being collected. -/
theorem pushFragment_spec (h : Represents digest frames (fun f => collect f history) r)
    (hkeys : frames.InjOn (keyOf digest)) (hlength : ∀ g ∈ frames, Fragmented g.2)
    (hindex : ∀ p ∈ history, p.index < fragmentCount p.frame) (hp : p.sourceFrame ∈ frames)
    (hpindex : p.index < fragmentCount p.frame)
    (hroom : (incomplete (history ++ [p])).card ≤ maxPendingFragmentedFrames) :
    ∃ r', exec (pushFragment digest p.source (fragment digest p.frame p.index) p.now) r =
        (.ok (answerOf p.sourceFrame (current history p) p.index), r') ∧
      Represents digest frames (fun f => collect f (history ++ [p])) r' := by
  have hlong : Fragmented p.frame := hlength _ hp
  have hpruned := h.prune p.now
  have hprogress := current_inProgress hindex hlong
  rw [pushFragment, exec_modify_bind, exec_check_bind (decodeOverlayFragment_fragment hlong hpindex),
    exec_get_bind, collect_push]
  have hmem : keyOf digest p.sourceFrame ∈ (r.pruneExpired p.now).pending ↔
      ((collect p.sourceFrame history).filter (alive p.now)).isSome := by
    rw [mem_iff_exists, hpruned.lookup _ hp, ← Option.isSome_iff_exists, Option.isSome_map]
  change (p.source, digest p.frame) ∈ _ ↔ _ at hmem
  cases hc : (collect p.sourceFrame history).filter (alive p.now) with
  | some c =>
    have hcurrent : current history p = c := by rw [current, hc, Option.getD_some]
    rw [hcurrent] at hprogress ⊢
    rw [if_neg (not_not.mpr (hmem.mpr (by rw [hc]; rfl)))]
    exact storeFragment_spec hpruned hkeys hp hpindex hc hprogress.sub hprogress.ne
  | none =>
    have hcurrent : current history p = ⟨p.now, ∅⟩ := by rw [current, hc, Option.getD_none]
    rw [hcurrent] at hprogress ⊢
    rw [if_pos (fun hkey => by rw [hmem, hc] at hkey; cases hkey)]
    obtain ⟨r', hexec, hopened⟩ := openEntry_spec hpruned hkeys hp hlength hc
      (room_of_incomplete h hindex hlong hc hroom)
      ⟨p.index, fragmentCount p.frame, p.frame.length, digest p.frame, fragmentPayload p.frame p.index⟩
      p.now rfl rfl
    obtain ⟨r'', hstore, hstored⟩ := storeFragment_spec hopened hkeys hp hpindex
      (update_self _ _ _) hprogress.sub hprogress.ne
    rw [update_idem] at hstored
    exact ⟨r'', (exec_bind_of_ok hexec).trans hstore, hstored⟩

/-- Nothing has been pushed later than the time the receiver waits after a fragment of `f`. -/
def InTime (f : SourceFrame) (history : List Push) : Prop :=
  ∀ q ∈ history, q.sourceFrame = f → ∀ q' ∈ history, q'.now < q.now + overlayFragmentReassemblyTimeout

lemma InTime.init (h : InTime f (history ++ [p])) : InTime f history :=
  fun q hq hf q' hq' => h q (by simp [hq]) hf q' (by simp [hq'])

section

variable (hindex : ∀ p ∈ history, p.index < fragmentCount p.frame)
include hindex

lemma pushed_sub : pushed f history ⊆ allIndexes f := by
  intro i hi
  simp only [pushed, mem_toFinset, mem_map, mem_filter, decide_eq_true_eq] at hi
  obtain ⟨q, ⟨hq, rfl⟩, rfl⟩ := hi
  exact Finset.mem_range.mpr (hindex q hq)

lemma collect_inTime (htime : InTime f history) (hmissing : pushed f history ≠ allIndexes f) :
    (collect f history = none ∧ pushed f history = ∅) ∨
      ∃ q ∈ history, q.sourceFrame = f ∧ collect f history = some ⟨q.now, pushed f history⟩ := by
  induction history using List.reverseRecOn with
  | nil => exact Or.inl ⟨rfl, rfl⟩
  | append_singleton history p ih =>
    have hmissing' : pushed f history ≠ allIndexes f := fun heq =>
      hmissing (Finset.Subset.antisymm (pushed_sub hindex) (heq ▸ pushed_subset))
    have hbefore := ih (fun q hq => hindex q (by simp [hq])) htime.init hmissing'
    have halive : (collect f history).filter (alive p.now) = collect f history := by
      obtain ⟨hnone, -⟩ | ⟨q, hq, hf, hsome⟩ := hbefore
      · rw [hnone, Option.filter_none]
      · have hlt := htime q (by simp [hq]) hf p (by simp)
        rw [hsome, Option.filter_some, if_pos (by simpa [alive] using hlt)]
    rw [collect_append_singleton, collectStep, halive, pushed_append_singleton]
    rw [pushed_append_singleton] at hmissing
    by_cases hf : p.sourceFrame = f
    · rw [if_pos hf] at hmissing ⊢
      rw [if_pos hf]
      obtain ⟨hnone, hempty⟩ | ⟨q, hq, hqf, hsome⟩ := hbefore
      · refine Or.inr ⟨p, by simp, hf, ?_⟩
        rw [hempty] at hmissing ⊢
        rw [hnone, Option.getD_none, add, if_neg hmissing]
      · refine Or.inr ⟨q, by simp [hq], hqf, ?_⟩
        rw [hsome, Option.getD_some, add, if_neg hmissing]
    · rw [if_neg hf, if_neg hf]
      exact hbefore.imp_right fun ⟨q, hq, hqf, hsome⟩ => ⟨q, by simp [hq], hqf, hsome⟩

lemma current_inTime (htime : InTime p.sourceFrame (history ++ [p]))
    (hmissing : pushed p.sourceFrame history ≠ allIndexes p.sourceFrame) :
    (current history p).indexes = pushed p.sourceFrame history := by
  rw [current]
  obtain ⟨hnone, hempty⟩ | ⟨q, hq, hqf, hsome⟩ := collect_inTime hindex htime.init hmissing
  · rw [hnone, Option.filter_none, Option.getD_none, hempty]
  · have hlt := htime q (by simp [hq]) hqf p (by simp)
    rw [hsome, Option.filter_some, if_pos (by simpa [alive] using hlt), Option.getD_some]

end

/-! ## Whole runs -/

def receive (digest : List UInt8 → FragmentDigest) (r : OverlayFragmentReassembler) (p : Push) :
    Except Unit (Option (List UInt8)) × OverlayFragmentReassembler :=
  exec (pushFragment digest p.source p.datagram p.now) r

lemma Push.Sent.eq_fragment (h : p.Sent digest) (hlong : Fragmented p.frame) :
    p.index < fragmentCount p.frame ∧ p.datagram = fragment digest p.frame p.index := by
  obtain ⟨endpointFor, nextHop, endpoint, datagrams, hsend, hget⟩ := h
  cases hendpoint : endpointFor nextHop with
  | none => simp [sendFrame, hendpoint] at hsend
  | some known =>
    rw [sendFrame_eq hlong hendpoint] at hsend
    cases hsend
    obtain ⟨hlt, hdatagram⟩ := List.getElem?_eq_some_iff.mp hget
    have hindex : p.index < fragmentCount p.frame := by simpa [fragments] using hlt
    exact ⟨hindex, by simpa [fragments] using hdatagram.symm⟩

/-- After any run the table holds what is being collected. -/
theorem represents_exec (hkeys : frames.InjOn (keyOf digest)) (hlength : ∀ g ∈ frames, Fragmented g.2)
    (hsent : ∀ p ∈ history, p.sourceFrame ∈ frames ∧ p.Sent digest)
    (hroom : ∀ before after, history = before ++ after →
      (incomplete before).card ≤ maxPendingFragmentedFrames) :
    Represents digest frames (fun f => collect f history)
      (Runs.exec (receive digest) .empty history) := by
  induction history using List.reverseRecOn with
  | nil => exact represents_empty
  | append_singleton history p ih =>
    have hbefore := ih (fun q hq => hsent q (by simp [hq]))
      (fun before after heq => hroom before (after ++ [p]) (by rw [heq, append_assoc]))
    have hfragment : ∀ q ∈ history ++ [p], q.index < fragmentCount q.frame ∧
        q.datagram = fragment digest q.frame q.index :=
      fun q hq => (hsent q hq).2.eq_fragment (hlength _ (hsent q hq).1)
    obtain ⟨hpindex, hdatagram⟩ := hfragment p (by simp)
    obtain ⟨r', hexec, hnext⟩ := pushFragment_spec hbefore hkeys hlength
      (fun q hq => (hfragment q (by simp [hq])).1) (hsent p (by simp)).1 hpindex
      (hroom (history ++ [p]) [] (by simp))
    rw [Runs.exec_append, Runs.exec_cons, Runs.exec_nil, receive, hdatagram, hexec]
    exact hnext

end Table

/-- In any order of the fragments every push is accepted, answers its own frame or nothing, and answers the
frame when it brings the last missing fragment in time. -/
theorem fragments_reassemble (digest : List UInt8 → FragmentDigest) (frames : Set SourceFrame)
    (hlength : ∀ f ∈ frames, 1025 ≤ f.2.length ∧ f.2.length ≤ maxMultihopFrameBytes)
    (hkeys : frames.InjOn (keyOf digest)) (pushes : List Push)
    (hsent : ∀ p ∈ pushes, p.sourceFrame ∈ frames ∧ p.Sent digest)
    (hroom : ∀ before after, pushes = before ++ after → (incomplete before).card ≤ 256) :
    (∀ f ∈ frames, ∀ endpointFor nextHop endpoint, endpointFor nextHop = some endpoint →
      ∃ datagrams, sendFrame digest endpointFor nextHop f.2 = .ok (endpoint, datagrams) ∧
        ∀ d ∈ datagrams, d.length ≤ 1024) ∧
    ∀ before p after, pushes = before ++ p :: after →
      ∃ answer, (receive digest (Runs.exec (receive digest) .empty before) p).1 = .ok answer ∧
        (answer = none ∨ answer = some p.frame) ∧
        (answer = some p.frame ↔
          insert p.index (current before p).indexes = allIndexes p.sourceFrame) ∧
        (answer = some p.frame → pushed p.sourceFrame (before ++ [p]) = allIndexes p.sourceFrame) ∧
        (pushed p.sourceFrame before ≠ allIndexes p.sourceFrame →
          pushed p.sourceFrame (before ++ [p]) = allIndexes p.sourceFrame →
          InTime p.sourceFrame (before ++ [p]) → answer = some p.frame) := by
  have hfragmented : ∀ f ∈ frames, Fragmented f.2 := fun f hf => ⟨(hlength f hf).1, (hlength f hf).2⟩
  refine ⟨?_, ?_⟩
  · intro f hf endpointFor nextHop endpoint hendpoint
    refine ⟨_, sendFrame_eq (hfragmented f hf) hendpoint, fun d hd => ?_⟩
    obtain ⟨i, hi, rfl⟩ := List.mem_map.mp hd
    exact (length_fragment digest (List.mem_range.mp hi)).2
  · rintro before p after rfl
    have hfragment : ∀ q ∈ before ++ p :: after, q.index < fragmentCount q.frame ∧
        q.datagram = fragment digest q.frame q.index :=
      fun q hq => (hsent q hq).2.eq_fragment (hfragmented _ (hsent q hq).1)
    have hindex : ∀ q ∈ before ++ [p], q.index < fragmentCount q.frame :=
      fun q hq => (hfragment q (by simp at hq ⊢; tauto)).1
    have hbefore : ∀ q ∈ before, q.index < fragmentCount q.frame := fun q hq => hindex q (by simp [hq])
    obtain ⟨hpindex, hdatagram⟩ := hfragment p (by simp)
    have hp := (hsent p (by simp)).1
    have htable : Represents digest frames (fun f => collect f before)
        (Runs.exec (receive digest) .empty before) :=
      represents_exec hkeys hfragmented (fun q hq => hsent q (by simp [hq]))
        (fun first rest heq => hroom first (rest ++ p :: after) (by rw [heq, List.append_assoc]))
    obtain ⟨r', hexec, -⟩ := pushFragment_spec htable hkeys hfragmented hbefore hp hpindex
      (hroom (before ++ [p]) after (by simp))
    have hprogress := current_inProgress hbefore (hfragmented _ hp)
    have hiff : answerOf p.sourceFrame (current before p) p.index = some p.frame ↔
        insert p.index (current before p).indexes = allIndexes p.sourceFrame := answerOf_eq_some
    refine ⟨_, by rw [receive, hdatagram, hexec], ?_, hiff, ?_, ?_⟩
    · rw [answerOf]
      split_ifs
      · exact Or.inr rfl
      · exact Or.inl rfl
    · intro hanswer
      refine Finset.Subset.antisymm (pushed_sub hindex) ?_
      rw [← hiff.mp hanswer, pushed_append_singleton, if_pos rfl]
      exact Finset.insert_subset_insert _ hprogress.pushed
    · intro hmissing hlast htime
      rw [hiff, current_inTime hbefore htime hmissing, ← hlast, pushed_append_singleton, if_pos rfl]

/-! Two sources send the same frame of two fragments; the fragments arrive interleaved, the last one
first, and one of them twice. -/

namespace SampleFragments

def frame : List UInt8 := List.replicate 1025 7

def digest (_ : List UInt8) : FragmentDigest := Vector.replicate 16 0

def left : SocketAddr := .v4 0x0a000001 7001

def right : SocketAddr := .v4 0x0a000002 7001

def push (source : SocketAddr) (index : ℕ) (now : Instant) : Push :=
  ⟨source, frame, index, fragment digest frame index, now⟩

def pushes : List Push :=
  [push left 1 0, push right 1 1, push left 1 2, push left 0 3, push right 0 4]

lemma sourceFrame_push {source : SocketAddr} {index : ℕ} {now : Instant} :
    (push source index now).sourceFrame = (source, frame) := rfl

lemma fragmented_frame : Fragmented frame := ⟨by decide +kernel, by decide +kernel⟩

lemma sent_push {source : SocketAddr} {index : ℕ} {now : Instant} (h : index < 2) :
    (push source index now).Sent digest := by
  refine ⟨fun _ => some right, ⟨"right"⟩, right, fragments digest frame,
    sendFrame_eq fragmented_frame rfl, ?_⟩
  have hcount : fragmentCount frame = 2 := by decide +kernel
  simp [push, fragments, hcount, h]

theorem fragments_reassemble_interleaved :
    (receive digest (Runs.exec (receive digest) .empty
      [push left 1 0, push right 1 1, push left 1 2]) (push left 0 3)).1 = .ok (some frame) := by
  have h := fragments_reassemble digest {(left, frame), (right, frame)}
    (by simp [fragmented_frame.long, fragmented_frame.short])
    (by simp [Set.InjOn, keyOf])
    pushes (by simp [pushes, sourceFrame_push, sent_push])
    (fun before after heq => by
      have hlength := congrArg List.length heq
      rw [List.length_append] at hlength
      have hpushes : pushes.length = 5 := rfl
      have := card_incomplete_le before
      omega)
  obtain ⟨answer, hanswer, -, -, -, hlast⟩ := h.2 [push left 1 0, push right 1 1, push left 1 2]
    (push left 0 3) [push right 0 4] rfl
  rw [hanswer, hlast (by decide +kernel) (by decide +kernel) (by unfold InTime; decide +kernel)]
  rfl

end SampleFragments

end HeteroNetwork
