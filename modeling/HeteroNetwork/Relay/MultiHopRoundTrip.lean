import HeteroNetwork.Relay.MultiHop

/-!
# The envelope codec is a bijection onto its valid frames

A reading function succeeds exactly when the bytes ahead of the cursor are the ones the corresponding writer
produces (`Consumes`), so a frame decodes to `e` iff it is `e.frameBytes` and `e` passes validation.
-/

namespace HeteroNetwork

open Checked BigEndian List

namespace FrameReader

def rest (r : FrameReader) : List UInt8 := r.frame.drop r.offset

/-- `r'` is the cursor `r` after the bytes `bytes`. -/
def Consumes (r : FrameReader) (bytes : List UInt8) (r' : FrameReader) : Prop :=
  r'.frame = r.frame ∧ r'.offset = r.offset + bytes.length ∧ r.rest = bytes ++ r'.rest

variable {r r' : FrameReader}

@[simp] lemma consumes_nil : r.Consumes [] r' ↔ r = r' := by
  constructor
  · rintro ⟨hframe, hoffset, -⟩
    exact FrameReader.ext hframe.symm (by simpa using hoffset.symm)
  · rintro rfl
    exact ⟨rfl, by simp, by simp⟩

lemma consumes_append {a b : List UInt8} :
    r.Consumes (a ++ b) r' ↔ ∃ m, r.Consumes a m ∧ m.Consumes b r' := by
  constructor
  · rintro ⟨hframe, hoffset, hrest⟩
    have hlen : a.length + b.length ≤ r.rest.length := by
      rw [hrest]; simp
    have hin : r.offset + a.length ≤ r.frame.length := by
      have := r.inBounds
      simp only [rest, length_drop] at hlen
      omega
    refine ⟨⟨r.frame, r.offset + a.length, hin⟩, ⟨rfl, rfl, ?_⟩, hframe, ?_, ?_⟩
    · have hdrop : r.frame.drop (r.offset + a.length) = r.rest.drop a.length := by
        simp [rest, drop_drop]
      show r.rest = a ++ r.frame.drop (r.offset + a.length)
      rw [hdrop, hrest]
      simp
    · simp only [length_append] at hoffset
      show r'.offset = r.offset + a.length + b.length
      omega
    · have hdrop : r.frame.drop (r.offset + a.length) = r.rest.drop a.length := by
        simp [rest, drop_drop]
      show r.frame.drop (r.offset + a.length) = b ++ r'.rest
      rw [hdrop, hrest]
      simp
  · rintro ⟨m, ⟨hf₁, ho₁, hr₁⟩, hf₂, ho₂, hr₂⟩
    refine ⟨hf₂.trans hf₁, ?_, ?_⟩
    · rw [ho₂, ho₁, length_append, Nat.add_assoc]
    · rw [hr₁, hr₂, append_assoc]

lemma take_eq_ok {len : ℕ} {bytes : { bytes : List UInt8 // bytes.length = len }} :
    r.take len = .ok (bytes, r') ↔ r.Consumes bytes.val r' := by
  obtain ⟨bytes, rfl⟩ := bytes
  constructor
  · intro h
    simp only [take] at h
    split_ifs at h with hin
    simp only [Except.ok.injEq, Prod.mk.injEq, Subtype.mk.injEq] at h
    obtain ⟨hbytes, rfl⟩ := h
    refine ⟨rfl, rfl, ?_⟩
    show r.frame.drop r.offset = bytes ++ r.frame.drop (r.offset + bytes.length)
    conv_lhs => rw [← take_append_drop bytes.length (r.frame.drop r.offset)]
    rw [hbytes, drop_drop]
  · rintro ⟨hframe, hoffset, hrest⟩
    have hin : r.offset + bytes.length ≤ r.frame.length := by
      have := r'.inBounds
      rw [hframe, hoffset] at this
      exact this
    have htake : (r.frame.drop r.offset).take bytes.length = bytes := by
      show r.rest.take bytes.length = bytes
      rw [hrest]
      simp
    simp only [take, dif_pos hin, Except.ok.injEq, Prod.mk.injEq, Subtype.mk.injEq]
    exact ⟨htake, FrameReader.ext hframe.symm hoffset.symm⟩

lemma take_map_eq_ok {U : Type} {w : ℕ} {ofNat : ℕ → U} {toNat : U → ℕ}
    (hto : ∀ n < 256 ^ w, toNat (ofNat n) = n) (hof : ∀ x, ofNat (toNat x) = x)
    (hlt : ∀ x, toNat x < 256 ^ w) {x : U} :
    (do let (bytes, r) ← r.take w; return (ofNat (ofBytes bytes.val), r)) = Except.ok (x, r') ↔
      r.Consumes (toBytes w (toNat x)) r' := by
  simp only [bind_eq_ok, Prod.exists, take_eq_ok, pure_eq_ok_iff, Prod.mk.injEq, Subtype.exists]
  constructor
  · rintro ⟨bytes, rfl, _, hc, rfl, rfl⟩
    rw [hto _ (ofBytes_lt bytes), toBytes_ofBytes]
    exact hc
  · intro hc
    refine ⟨toBytes w (toNat x), length_toBytes _ _, r', hc, ?_, rfl⟩
    rw [ofBytes_toBytes (hlt x), hof]

lemma readU8_eq_ok {x : UInt8} : r.readU8 = .ok (x, r') ↔ r.Consumes (toBytes 1 x.toNat) r' :=
  take_map_eq_ok (fun n hn => by simpa using Nat.mod_eq_of_lt hn) (fun x => by simp)
    (fun x => by simpa using x.toNat_lt)

lemma readU16_eq_ok {x : UInt16} : r.readU16 = .ok (x, r') ↔ r.Consumes (toBytes 2 x.toNat) r' :=
  take_map_eq_ok (fun n hn => by simpa using Nat.mod_eq_of_lt hn) (fun x => by simp)
    (fun x => by simpa using x.toNat_lt)

lemma readU32_eq_ok {x : UInt32} : r.readU32 = .ok (x, r') ↔ r.Consumes (toBytes 4 x.toNat) r' :=
  take_map_eq_ok (fun n hn => by simpa using Nat.mod_eq_of_lt hn) (fun x => by simp)
    (fun x => by simpa using x.toNat_lt)

lemma readU64_eq_ok {x : UInt64} : r.readU64 = .ok (x, r') ↔ r.Consumes (toBytes 8 x.toNat) r' :=
  take_map_eq_ok (fun n hn => by simpa using Nat.mod_eq_of_lt hn) (fun x => by simp)
    (fun x => by simpa using x.toNat_lt)

end FrameReader

open FrameReader

/-! ## Node identifiers and the relay path -/

lemma decodeNodeId_eq_ok {bytes : List UInt8} {n : NodeId} :
    decodeNodeId bytes = .ok n ↔ bytes = n.asBytes ∧ validateNodeId n = .ok () := by
  simp only [decodeNodeId]
  constructor
  · intro h
    cases hn : NodeId.fromUtf8 bytes with
    | none => simp [hn] at h
    | some m =>
      simp only [hn, bind_eq_ok, pure_eq_ok_iff] at h
      obtain ⟨_, hvalid, rfl⟩ := h
      exact ⟨(NodeId.asBytes_of_fromUtf8 hn).symm, hvalid⟩
  · rintro ⟨rfl, hvalid⟩
    simp only [NodeId.fromUtf8_asBytes, hvalid, ok_bind]
    rfl

lemma validateDeclaredNodeLength_eq_ok {len : ℕ} :
    validateDeclaredNodeLength len = .ok () ↔ 0 < len ∧ len ≤ maxMultihopNodeIdBytes := by
  simp only [validateDeclaredNodeLength, bind_eq_ok, rejectIf_eq_ok, not_lt]
  constructor
  · rintro ⟨_, hpos, hle⟩
    exact ⟨Nat.pos_of_ne_zero hpos, hle⟩
  · rintro ⟨hpos, hle⟩
    exact ⟨(), Nat.pos_iff_ne_zero.mp hpos, hle⟩

lemma validateNodeId_length {n : NodeId} (h : validateNodeId n = .ok ()) :
    0 < n.asBytes.length ∧ n.asBytes.length ≤ maxMultihopNodeIdBytes := by
  simp only [validateNodeId, bind_eq_ok] at h
  obtain ⟨_, hlen, -⟩ := h
  exact validateDeclaredNodeLength_eq_ok.mp hlen

lemma readU16_length_eq_ok {r r' : FrameReader} {len : ℕ} (hlen : len < 2 ^ 16) :
    r.readU16 = .ok (UInt16.ofNat len, r') ↔ r.Consumes (toBytes 2 len) r' := by
  rw [readU16_eq_ok]
  have hto : (UInt16.ofNat len).toNat = len := by simpa using Nat.mod_eq_of_lt hlen
  rw [hto]

lemma decodePath_eq_ok {count : ℕ} {r r' : FrameReader} {path : List NodeId} :
    decodePath count r = .ok (path, r') ↔
      path.length = count ∧ (∀ n ∈ path, validateNodeId n = .ok ()) ∧
        r.Consumes (MultiHopEnvelope.encodePath path) r' := by
  induction count generalizing r r' path with
  | zero =>
    constructor
    · intro h
      simp only [decodePath, pure_eq_ok_iff, Prod.mk.injEq] at h
      obtain ⟨rfl, rfl⟩ := h
      simp [MultiHopEnvelope.encodePath]
    · rintro ⟨hlen, -, hc⟩
      obtain rfl := length_eq_zero_iff.mp hlen
      obtain rfl := consumes_nil.mp hc
      rfl
  | succ count ih =>
    simp only [decodePath, bind_eq_ok, Prod.exists, pure_eq_ok_iff, Prod.mk.injEq, take_eq_ok,
      decodeNodeId_eq_ok, ih]
    constructor
    · rintro ⟨nodeLen, r₁, hread, _, hdeclared, ⟨bytes, hbytes⟩, r₂, htake, n, ⟨hn, hvalid⟩,
        rest, r₃, ⟨hcount, hall, hrest⟩, rfl, rfl⟩
      refine ⟨by simp [hcount], ?_, ?_⟩
      · intro m hm
        rcases mem_cons.mp hm with rfl | hm
        · exact hvalid
        · exact hall m hm
      · subst hn
        have hlen : nodeLen.toNat = n.asBytes.length := hbytes.symm
        rw [readU16_eq_ok, hlen] at hread
        rw [MultiHopEnvelope.encodePath, consumes_append]
        exact ⟨r₂, consumes_append.mpr ⟨r₁, hread, htake⟩, hrest⟩
    · rintro ⟨hlen, hall, hc⟩
      obtain ⟨n, rest, rfl⟩ := exists_cons_of_length_eq_add_one hlen
      have hvalid := hall n (by simp)
      obtain ⟨hpos, hle⟩ := validateNodeId_length hvalid
      have hfits : n.asBytes.length < 2 ^ 16 := lt_of_le_of_lt hle (by decide)
      have hto : (UInt16.ofNat n.asBytes.length).toNat = n.asBytes.length := by
        simpa using Nat.mod_eq_of_lt hfits
      rw [MultiHopEnvelope.encodePath, consumes_append] at hc
      obtain ⟨r₂, hhead, htail⟩ := hc
      obtain ⟨r₁, hread, htake⟩ := consumes_append.mp hhead
      refine ⟨UInt16.ofNat n.asBytes.length, r₁, (readU16_length_eq_ok hfits).mpr hread, (), ?_,
        ⟨n.asBytes, hto.symm⟩, r₂, htake, n, ⟨rfl, hvalid⟩, rest, r', ⟨?_, ?_, htail⟩, rfl, rfl⟩
      · rw [hto]
        exact validateDeclaredNodeLength_eq_ok.mpr ⟨hpos, hle⟩
      · simpa using hlen
      · exact fun m hm => hall m (mem_cons_of_mem _ hm)

def FrameHeader.bytes (h : FrameHeader) : List UInt8 :=
  multihopFrameMagic ++ (toBytes 1 multihopFrameVersion.toNat ++ (toBytes 1 0 ++
    (toBytes 8 h.topologyEpoch.toNat ++ (h.pathId.val ++ (toBytes 8 h.sequence.toNat ++
    (toBytes 2 h.hopIndex.toNat ++ (toBytes 2 h.hopLimit.toNat ++ (toBytes 2 h.pathCount.toNat ++
    (toBytes 1 0 ++ (toBytes 2 h.sourceLen.toNat ++ (toBytes 2 h.destinationLen.toNat ++
    toBytes 4 h.payloadLen.toNat)))))))))))

lemma decodeHeader_eq_ok {r r' : FrameReader} {h : FrameHeader} :
    decodeHeader r = .ok (h, r') ↔ r.Consumes h.bytes r' := by
  simp only [decodeHeader, bind_eq_ok, Prod.exists, pure_eq_ok_iff, Prod.mk.injEq, take_eq_ok,
    rejectIf_eq_ok, not_not, readU8_eq_ok, readU16_eq_ok, readU32_eq_ok, readU64_eq_ok,
    FrameHeader.bytes, consumes_append]
  constructor
  · rintro ⟨magic, r₁, h₁, _, hmagic, version, r₂, h₂, _, rfl, flags, r₃, h₃, _, rfl,
      epoch, r₄, h₄, pathId, r₅, h₅, sequence, r₆, h₆, hopIndex, r₇, h₇, hopLimit, r₈, h₈,
      pathCount, r₉, h₉, reserved, r₁₀, h₁₀, _, rfl, sourceLen, r₁₁, h₁₁, destinationLen, r₁₂, h₁₂,
      payloadLen, r₁₃, h₁₃, rfl, rfl⟩
    rw [hmagic] at h₁
    exact ⟨r₁, h₁, r₂, h₂, r₃, h₃, r₄, h₄, r₅, h₅, r₆, h₆, r₇, h₇, r₈, h₈, r₉, h₉, r₁₀, h₁₀,
      r₁₁, h₁₁, r₁₂, h₁₂, h₁₃⟩
  · rintro ⟨r₁, h₁, r₂, h₂, r₃, h₃, r₄, h₄, r₅, h₅, r₆, h₆, r₇, h₇, r₈, h₈, r₉, h₉, r₁₀, h₁₀,
      r₁₁, h₁₁, r₁₂, h₁₂, h₁₃⟩
    exact ⟨⟨multihopFrameMagic, rfl⟩, r₁, h₁, (), rfl, _, r₂, h₂, (), rfl, 0, r₃, h₃, (), rfl,
      _, r₄, h₄, _, r₅, h₅, _, r₆, h₆, _, r₇, h₇, _, r₈, h₈, _, r₉, h₉, 0, r₁₀, h₁₀, (), rfl,
      _, r₁₁, h₁₁, _, r₁₂, h₁₂, _, r', h₁₃, rfl, rfl⟩

/-! ## Validation, as the conditions it checks -/

lemma validatePathNodes_eq_ok {source destination : NodeId} {seen path : List NodeId}
    (h : validatePathNodes source destination seen path = .ok ()) :
    ∀ n ∈ path, validateNodeId n = .ok () := by
  induction path generalizing seen with
  | nil => simp
  | cons node rest ih =>
    simp only [validatePathNodes, bind_eq_ok] at h
    obtain ⟨_, hvalid, _, -, hrest⟩ := h
    intro n hn
    rcases mem_cons.mp hn with rfl | hn
    · exact hvalid
    · exact ih hrest n hn

namespace MultiHopEnvelope

structure WithinLimits (e : MultiHopEnvelope) : Prop where
  source : validateNodeId e.source = .ok ()
  destination : validateNodeId e.destination = .ok ()
  path_pos : 0 < e.path.length
  path_le : e.path.length ≤ maxMultihopPathNodes
  path_valid : ∀ n ∈ e.path, validateNodeId n = .ok ()
  payload_pos : 0 < e.opaquePayload.length
  payload_le : e.opaquePayload.length ≤ maxMultihopPayloadBytes
  frame_le : e.encodedLen ≤ maxMultihopFrameBytes

variable {e : MultiHopEnvelope} {minimum : UInt64} {len : ℕ}

section

variable (h : e.validate minimum = .ok len)
include h

lemma validate_limits : e.WithinLimits ∧ len = e.encodedLen := by
  simp only [validate, bind_eq_ok, rejectIf_eq_ok, pure_eq_ok_iff, not_lt] at h
  obtain ⟨_, -, _, -, _, hsource, _, hdestination, _, -, _, hpath, _, hcount, _, -, _, -, _, -, _,
    hnodes, _, hpayload, _, hpayloadLe, _, hframe, rfl⟩ := h
  exact ⟨⟨hsource, hdestination, length_pos_of_ne_nil hpath, hcount,
    validatePathNodes_eq_ok hnodes, length_pos_of_ne_nil hpayload, hpayloadLe, hframe⟩, rfl⟩

lemma validate_of_epoch_le {minimum' : UInt64}
    (hle : minimum' ≤ e.topologyEpoch) : e.validate minimum' = .ok len := by
  simp only [validate, bind_eq_ok, rejectIf_eq_ok] at h ⊢
  obtain ⟨_, hepoch, hrest⟩ := h
  refine ⟨(), ?_, hrest⟩
  rintro (hzero | hlt)
  · exact hepoch (Or.inl hzero)
  · exact UInt64.not_lt.mpr hle hlt

lemma one_le_epoch : 1 ≤ e.topologyEpoch := by
  simp only [validate, bind_eq_ok, rejectIf_eq_ok] at h
  obtain ⟨_, hepoch, -⟩ := h
  have hne : e.topologyEpoch.toNat ≠ 0 := by
    intro hzero
    exact hepoch (Or.inl (UInt64.toNat_inj.mp (by simpa using hzero)))
  rw [UInt64.le_iff_toNat_le]
  simpa [Nat.one_le_iff_ne_zero] using hne

end

lemma length_encodePath (path : List NodeId) (start : ℕ) :
    path.foldl (fun len node => len + 2 + node.asBytes.length) start
      = start + (encodePath path).length := by
  induction path generalizing start with
  | nil => simp [encodePath]
  | cons node rest ih =>
    simp only [foldl_cons, ih, encodePath, length_append, length_toBytes]
    omega

lemma length_frameBytes (e : MultiHopEnvelope) : e.frameBytes.length = e.encodedLen := by
  have hid := e.pathId.property
  simp only [frameBytes, encodedLen, length_encodePath, length_append, length_toBytes,
    length_singleton, hid]
  simp only [fixedHeaderBytes, payloadLengthOffset, destinationLengthOffset, sourceLengthOffset,
    reservedOffset, pathCountOffset, hopLimitOffset, hopIndexOffset, sequenceOffset, pathIdOffset,
    topologyEpochOffset, flagsOffset, versionOffset, multihopPathIdBytes]

lemma fixedHeaderBytes_le (e : MultiHopEnvelope) : fixedHeaderBytes ≤ e.frameBytes.length := by
  rw [length_frameBytes, encodedLen, length_encodePath]
  omega

def header (e : MultiHopEnvelope) : FrameHeader :=
  { topologyEpoch := e.topologyEpoch, pathId := e.pathId, sequence := e.sequence,
    hopIndex := e.hopIndex, hopLimit := e.hopLimit,
    pathCount := UInt16.ofNat e.path.length,
    sourceLen := UInt16.ofNat e.source.asBytes.length,
    destinationLen := UInt16.ofNat e.destination.asBytes.length,
    payloadLen := UInt32.ofNat e.opaquePayload.length }

lemma WithinLimits.header_lengths (h : e.WithinLimits) :
    e.header.pathCount.toNat = e.path.length ∧
      e.header.sourceLen.toNat = e.source.asBytes.length ∧
      e.header.destinationLen.toNat = e.destination.asBytes.length ∧
      e.header.payloadLen.toNat = e.opaquePayload.length := by
  have hs := (validateNodeId_length h.source).2
  have hd := (validateNodeId_length h.destination).2
  have hp := h.path_le
  have hl := h.payload_le
  simp only [maxMultihopNodeIdBytes, maxMultihopPathNodes, maxMultihopPayloadBytes] at hs hd hp hl
  refine ⟨?_, ?_, ?_, ?_⟩
  · simp [header]; omega
  · simp [header]; omega
  · simp [header]; omega
  · simp [header]; omega

lemma frameBytes_eq (h : e.WithinLimits) :
    e.frameBytes = e.header.bytes ++ (e.source.asBytes ++ (e.destination.asBytes ++
      (encodePath e.path ++ e.opaquePayload))) := by
  obtain ⟨hcount, hsource, hdestination, hpayload⟩ := h.header_lengths
  have hversion : toBytes 1 multihopFrameVersion.toNat = [multihopFrameVersion] := by decide
  have hzero : toBytes 1 0 = [0] := by decide
  simp only [FrameHeader.bytes, hcount, hsource, hdestination, hpayload, hversion, hzero]
  simp only [frameBytes, header, append_assoc]

lemma validateHeader_of_limits (h : e.WithinLimits) : validateHeader e.header = .ok () := by
  obtain ⟨hcount, hsource, hdestination, hpayload⟩ := h.header_lengths
  simp only [validateHeader, hcount, hsource, hdestination, hpayload, bind_eq_ok, rejectIf_eq_ok,
    not_lt]
  exact ⟨(), validateDeclaredNodeLength_eq_ok.mpr (validateNodeId_length h.source),
    (), validateDeclaredNodeLength_eq_ok.mpr (validateNodeId_length h.destination),
    (), h.path_pos.ne', (), h.path_le, (), h.payload_pos.ne', h.payload_le⟩

variable {frame : List UInt8}

lemma consumes_new {bytes : List UInt8} {r : FrameReader}
    (h : (FrameReader.new frame).Consumes bytes r) : r.isComplete ↔ frame = bytes := by
  obtain ⟨hframe, hoffset, hrest⟩ := h
  have hnew : (FrameReader.new frame).rest = frame := by simp [FrameReader.new, rest]
  have hstart : (FrameReader.new frame).offset = 0 := rfl
  rw [hnew] at hrest
  rw [hstart, Nat.zero_add] at hoffset
  have hlen : frame.length = bytes.length + r.rest.length := by
    conv_lhs => rw [hrest]
    simp
  constructor
  · intro hcomplete
    have hnil : r.rest = [] := by
      apply drop_eq_nil_of_le
      exact hcomplete.ge
    rw [hnil, append_nil] at hrest
    exact hrest
  · intro heq
    show r.offset = r.frame.length
    rw [hframe, hoffset]
    show bytes.length = frame.length
    rw [heq]

/-! ## The codec as one equivalence -/

lemma decode_of_frameBytes (h : e.validate minimum = .ok len) :
    decode e.frameBytes minimum = .ok e := by
  obtain ⟨hlimits, -⟩ := validate_limits h
  obtain ⟨hcount, hsource, hdestination, hpayload⟩ := hlimits.header_lengths
  have hall : (FrameReader.new e.frameBytes).Consumes e.frameBytes
      ⟨e.frameBytes, e.frameBytes.length, le_refl _⟩ :=
    ⟨rfl, by simp [FrameReader.new], by simp [rest, FrameReader.new]⟩
  have hcomplete := (consumes_new hall).mpr rfl
  -- cut the frame at the places where `decode` stops reading
  rw [frameBytes_eq hlimits] at hall
  obtain ⟨r₁, hheader, hall⟩ := consumes_append.mp hall
  obtain ⟨r₂, hs, hall⟩ := consumes_append.mp hall
  obtain ⟨r₃, hd, hall⟩ := consumes_append.mp hall
  obtain ⟨r₄, hp, hl⟩ := consumes_append.mp hall
  rw [← frameBytes_eq hlimits] at hheader
  have hframe : e.frameBytes.length ≤ maxMultihopFrameBytes := by
    rw [length_frameBytes]
    exact hlimits.frame_le
  simp only [decode, bind_eq_ok, Prod.exists, rejectIf_eq_ok, not_lt, not_not, take_eq_ok,
    decodeHeader_eq_ok, decodeNodeId_eq_ok, decodePath_eq_ok, pure_eq_ok_iff]
  refine ⟨(), hframe, (), e.fixedHeaderBytes_le, e.header, r₁, hheader, (),
    validateHeader_of_limits hlimits, ⟨e.source.asBytes, hsource.symm⟩, r₂, hs, e.source,
    ⟨rfl, hlimits.source⟩, ⟨e.destination.asBytes, hdestination.symm⟩, r₃, hd, e.destination,
    ⟨rfl, hlimits.destination⟩, e.path, r₄, ⟨hcount.symm, hlimits.path_valid, hp⟩,
    ⟨e.opaquePayload, hpayload.symm⟩, _, ?_, (), hcomplete, len, h, rfl⟩
  rw [← frameBytes_eq hlimits] at hl
  exact hl

lemma frameBytes_of_decode (h : decode frame minimum = .ok e) :
    frame = e.frameBytes ∧ ∃ len, e.validate minimum = .ok len := by
  simp only [decode, bind_eq_ok, Prod.exists, rejectIf_eq_ok, not_lt, not_not, take_eq_ok,
    decodeHeader_eq_ok, decodeNodeId_eq_ok, decodePath_eq_ok, pure_eq_ok_iff] at h
  obtain ⟨_, -, _, -, header, r₁, hheader, _, -, ⟨sourceBytes, hsl⟩, r₂, hs, source, ⟨rfl, -⟩,
    ⟨destinationBytes, hdl⟩, r₃, hd, destination, ⟨rfl, -⟩, path, r₄, ⟨hcount, -, hp⟩,
    ⟨payload, hpl⟩, r₅, hl, _, hcomplete, len, hvalid, rfl⟩ := h
  refine ⟨?_, len, hvalid⟩
  have hlimits := (validate_limits hvalid).1
  have hall := consumes_append.mpr ⟨r₁, hheader, consumes_append.mpr ⟨r₂, hs,
    consumes_append.mpr ⟨r₃, hd, consumes_append.mpr ⟨r₄, hp, hl⟩⟩⟩⟩
  rw [(consumes_new hall).mp hcomplete, frameBytes_eq hlimits]
  -- the header read is the header written: the declared lengths are the real ones
  have hbytes : header.bytes = FrameHeader.bytes (MultiHopEnvelope.header
      { topologyEpoch := header.topologyEpoch, pathId := header.pathId,
        sequence := header.sequence, hopIndex := header.hopIndex, hopLimit := header.hopLimit,
        source, destination, path, opaquePayload := payload }) := by
    obtain ⟨hcount', hsource', hdestination', hpayload'⟩ := hlimits.header_lengths
    simp only [FrameHeader.bytes, hcount', hsource', hdestination', hpayload', hsl, hdl, hcount,
      hpl]
    rfl
  rw [hbytes]

/-- **`decode` accepts exactly the frames of the valid envelopes.** -/
theorem decode_eq_ok :
    decode frame minimum = .ok e ↔ frame = e.frameBytes ∧ ∃ len, e.validate minimum = .ok len := by
  constructor
  · exact frameBytes_of_decode
  · rintro ⟨rfl, len, hvalid⟩
    exact decode_of_frameBytes hvalid

lemma encode_eq_ok : e.encode = .ok frame ↔ frame = e.frameBytes ∧ ∃ len, e.validate 1 = .ok len := by
  simp only [encode, bind_eq_ok, pure_eq_ok_iff]
  constructor
  · rintro ⟨len, hvalid, rfl⟩
    exact ⟨rfl, len, hvalid⟩
  · rintro ⟨rfl, len, hvalid⟩
    exact ⟨len, hvalid, rfl⟩

/-- **`encode` and `decode` are mutually inverse.**  A valid envelope encodes to a frame of the validated
length, which decodes back to it for every minimum epoch the envelope reaches; and whatever decodes is
re-encoded to the bytes it came from. -/
theorem encode_decode_inverse :
    (∀ (e : MultiHopEnvelope) (len : ℕ), e.validate 1 = .ok len →
      ∃ frame, e.encode = .ok frame ∧ frame.length = len ∧ len ≤ maxMultihopFrameBytes ∧
        ∀ minimum ≤ e.topologyEpoch, decode frame minimum = .ok e) ∧
    (∀ (b : List UInt8) (minimum : UInt64) (e : MultiHopEnvelope),
      decode b minimum = .ok e → e.encode = .ok b) ∧
    (∀ (b b' : List UInt8) (minimum minimum' : UInt64) (e : MultiHopEnvelope),
      decode b minimum = .ok e → decode b' minimum' = .ok e → b = b') := by
  refine ⟨?_, ?_, ?_⟩
  · intro e len hvalid
    obtain ⟨hlimits, rfl⟩ := validate_limits hvalid
    refine ⟨e.frameBytes, encode_eq_ok.mpr ⟨rfl, _, hvalid⟩, length_frameBytes e,
      hlimits.frame_le, ?_⟩
    intro minimum hle
    exact decode_of_frameBytes (validate_of_epoch_le hvalid hle)
  · intro b minimum e hdecode
    obtain ⟨hframe, len, hvalid⟩ := decode_eq_ok.mp hdecode
    exact encode_eq_ok.mpr ⟨hframe, len, validate_of_epoch_le hvalid (one_le_epoch hvalid)⟩
  · intro b b' minimum minimum' e hb hb'
    rw [(decode_eq_ok.mp hb).1, (decode_eq_ok.mp hb').1]

/-- The envelope of the crate's own canonical-encoding test. -/
def canonicalSample : MultiHopEnvelope :=
  { topologyEpoch := 1, pathId := ⟨List.replicate 16 0x11, rfl⟩, sequence := 2, hopIndex := 0,
    hopLimit := 1, source := ⟨"s"⟩, destination := ⟨"d"⟩, path := [⟨"r"⟩],
    opaquePayload := [0xaa, 0xbb] }

/-- The codec laws at that envelope: 57 header bytes, two node ids, one relay and two payload
bytes. -/
theorem canonicalSample_round_trip :
    canonicalSample.validate 1 = .ok 64 ∧
      ∃ frame, canonicalSample.encode = .ok frame ∧ frame.length = 64 ∧
        64 ≤ maxMultihopFrameBytes ∧
        ∀ minimum ≤ canonicalSample.topologyEpoch, decode frame minimum = .ok canonicalSample := by
  have hvalid : canonicalSample.validate 1 = .ok 64 := by decide +kernel
  exact ⟨hvalid, encode_decode_inverse.1 canonicalSample 64 hvalid⟩

end MultiHopEnvelope

end HeteroNetwork
