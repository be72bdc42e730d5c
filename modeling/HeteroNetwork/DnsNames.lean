import Mathlib

/-!
# Compressed names in DNS messages

A name is a sequence of labels that ends with the root or goes on at an earlier place of the message.  The
parser follows a pointer by a nested call and checks its limits on the totals it has so far.
-/

namespace HeteroNetwork

def dnsMaxNamePointerDepth : ℕ := 8

structure DnsNameParse where
  endOffset : ℕ
  labels : ℕ
  nameLen : ℕ

def readU16Be (payload : List UInt8) (offset : ℕ) : Option ℕ :=
  match payload[offset]?, payload[offset + 1]? with
  | some high, some low => some (high.toNat * 256 + low.toNat)
  | _, _ => none

def isLabelByte (byte : UInt8) : Bool :=
  48 ≤ byte ∧ byte ≤ 57 ∨ 65 ≤ byte ∧ byte ≤ 90 ∨ 97 ≤ byte ∧ byte ≤ 122 ∨ byte = 45 ∨ byte = 95

/-- The loop of `dns_name_payload_inner`, with the number of nested calls; `inner` is the function itself, one
level deeper. -/
def nameLoop (inner : ℕ → ℕ × Option DnsNameParse) (payload : List UInt8) (offset labels nameLen : ℕ) :
    ℕ × Option DnsNameParse :=
  match payload[offset]? with
  | none => (0, none)
  | some byte =>
    let len := byte.toNat
    if len &&& 0xc0 = 0xc0 then
      match readU16Be payload offset with
      | none => (0, none)
      | some pointer =>
        if pointer &&& 0x3fff ≥ offset then (0, none)
        else
          ((inner (pointer &&& 0x3fff)).1 + 1, (inner (pointer &&& 0x3fff)).2.bind fun target =>
            if labels + target.labels > 32 ∨ nameLen + target.nameLen > 255 then none
            else some ⟨offset + 2, labels + target.labels, nameLen + target.nameLen⟩)
    else if len &&& 0xc0 ≠ 0 then (0, none)
    else if len = 0 then (0, some ⟨offset + 1, labels, nameLen⟩)
    else if len > 63 then (0, none)
    else if payload.length < offset + 1 + len then (0, none)
    else if !((payload.drop (offset + 1)).take len).all isLabelByte then (0, none)
    else if labels + 1 > 32 ∨ nameLen + (len + 1) > 255 then (0, none)
    else nameLoop inner payload (offset + 1 + len) (labels + 1) (nameLen + (len + 1))
termination_by payload.length - offset

/-- `dns_name_payload_inner` for a `pointer_depth` that leaves so many calls until it is too large. -/
def dnsNamePayloadInner (payload : List UInt8) : ℕ → ℕ → ℕ × Option DnsNameParse
  | 0, _ => (0, none)
  | left + 1, offset => nameLoop (dnsNamePayloadInner payload left) payload offset 0 0

/-- A name at an offset, with the number of pointers, the number of labels, their length and the end. -/
@[mk_iff]
inductive NameAt (payload : List UInt8) : ℕ → ℕ → ℕ → ℕ → ℕ → Prop where
  | root {offset : ℕ} {byte : UInt8} : payload[offset]? = some byte → byte.toNat = 0 →
    NameAt payload offset 0 0 0 (offset + 1)
  | label {offset pointers labels nameLen stop : ℕ} {byte : UInt8} : payload[offset]? = some byte →
    1 ≤ byte.toNat → byte.toNat ≤ 63 → offset + 1 + byte.toNat ≤ payload.length →
    ((payload.drop (offset + 1)).take byte.toNat).all isLabelByte →
    NameAt payload (offset + 1 + byte.toNat) pointers labels nameLen stop →
    NameAt payload offset pointers (labels + 1) (nameLen + (byte.toNat + 1)) stop
  | pointer {offset pointers labels nameLen stop : ℕ} {high low : UInt8} : payload[offset]? = some high →
    192 ≤ high.toNat → payload[offset + 1]? = some low → (high.toNat * 256 + low.toNat) % 16384 < offset →
    NameAt payload ((high.toNat * 256 + low.toNat) % 16384) pointers labels nameLen stop →
    NameAt payload offset (pointers + 1) labels nameLen (offset + 2)

lemma and_pointer_bits (byte : UInt8) :
    (byte.toNat &&& 0xc0 = 0xc0 ↔ 192 ≤ byte.toNat) ∧ (byte.toNat &&& 0xc0 = 0 ↔ byte.toNat < 64) := by
  have h : ∀ n : Fin 256, (n.1 &&& 0xc0 = 0xc0 ↔ 192 ≤ n.1) ∧ (n.1 &&& 0xc0 = 0 ↔ n.1 < 64) := by
    decide +kernel
  exact h ⟨byte.toNat, byte.toNat_lt⟩

variable {payload : List UInt8} {inner : ℕ → ℕ × Option DnsNameParse} {depth : ℕ}

lemma nameLoop_spec
    (hinner : ∀ target r, (inner target).2 = some r ↔ (∃ pointers < depth,
      NameAt payload target pointers r.labels r.nameLen r.endOffset) ∧ r.labels ≤ 32 ∧ r.nameLen ≤ 255)
    (offset labels nameLen : ℕ) (hlimits : labels ≤ 32 ∧ nameLen ≤ 255) (r : DnsNameParse) :
    (nameLoop inner payload offset labels nameLen).2 = some r ↔
      (∃ pointers < depth + 1, ∃ l n, NameAt payload offset pointers l n r.endOffset ∧
        r.labels = labels + l ∧ r.nameLen = nameLen + n) ∧ r.labels ≤ 32 ∧ r.nameLen ≤ 255 := by
  have hmask : ∀ n, n &&& 0x3fff = n % 16384 := fun n => Nat.and_two_pow_sub_one_eq_mod n 14
  have hbits := and_pointer_bits
  fun_induction nameLoop inner payload offset labels nameLen with
  | case1 | case2 | case3 | case5 | case7 | case8 | case9 | case10 =>
    constructor
    · rintro ⟨⟩
    · rintro ⟨⟨_, _, _, _, h, _⟩, _⟩
      rw [nameAt_iff] at h
      grind [readU16Be]
  | case4 offset labels nameLen high hhigh len hpointer pointer hread hbefore =>
    obtain ⟨low, hlow, rfl⟩ : ∃ low : UInt8, payload[offset + 1]? = some low ∧
        high.toNat * 256 + low.toNat = pointer := by
      grind [readU16Be]
    simp only [hmask, Option.bind_eq_some_iff, hinner] at hbefore ⊢
    constructor
    · rintro ⟨target, ⟨⟨pointers, hlt, h⟩, _⟩, hr⟩
      split at hr
      · cases hr
      · rename_i hfits
        cases hr
        exact ⟨⟨pointers + 1, by omega, target.labels, target.nameLen,
          .pointer hhigh ((hbits high).1.mp hpointer) hlow (by omega) h, rfl, rfl⟩,
          (not_or.mp hfits).imp not_lt.mp not_lt.mp⟩
    · rintro ⟨⟨_, _, l, n, h, hl, hn⟩, _⟩
      rw [nameAt_iff] at h
      obtain ⟨pointers, stop, hlt, htarget, hend⟩ : ∃ pointers stop, pointers < depth ∧
          NameAt payload ((high.toNat * 256 + low.toNat) % 16384) pointers l n stop ∧ r.endOffset = offset + 2 := by
        grind
      exact ⟨⟨stop, l, n⟩, ⟨⟨pointers, hlt, htarget⟩, by grind⟩, by grind [DnsNameParse]⟩
  | case6 offset labels nameLen byte hbyte len hlow hbits hzero =>
    constructor
    · rintro ⟨⟩
      exact ⟨⟨0, depth.succ_pos, 0, 0, .root hbyte hzero, rfl, rfl⟩, hlimits⟩
    · rintro ⟨⟨_, _, _, _, h, _⟩, _⟩
      rw [nameAt_iff] at h
      grind [DnsNameParse]
  | case11 offset labels nameLen byte hbyte len _ hlow hzero hsmall hlength hbytes hmore ih =>
    refine (ih (by omega)).trans (and_congr_left fun _ => exists_congr fun pointers => and_congr_right fun _ => ?_)
    constructor
    · rintro ⟨l, n, h, hl, hn⟩
      exact ⟨l + 1, n + (len + 1), .label hbyte (by omega) (by omega) (by omega) (by simpa using hbytes) h,
        by omega, by omega⟩
    · rintro ⟨_, _, h, _⟩
      rw [nameAt_iff] at h
      grind

lemma nameLoop_calls {calls : ℕ} (hinner : ∀ target, (inner target).1 ≤ calls) (offset labels nameLen : ℕ) :
    (nameLoop inner payload offset labels nameLen).1 ≤ calls + 1 := by
  fun_induction nameLoop inner payload offset labels nameLen with
  | case4 => exact Nat.succ_le_succ (hinner _)
  | case11 _ _ _ _ _ _ _ _ _ _ _ _ _ ih => exact ih
  | _ => exact Nat.zero_le _

lemma NameAt.stop_le {offset pointers labels nameLen stop : ℕ}
    (h : NameAt payload offset pointers labels nameLen stop) : offset < stop ∧ stop ≤ payload.length := by
  induction h with
  | root hbyte | pointer _ _ hbyte => grind
  | label _ _ _ _ _ _ ih => omega

lemma dnsNamePayloadInner_spec (left offset : ℕ) : (dnsNamePayloadInner payload left offset).1 ≤ left ∧
    ∀ r, (dnsNamePayloadInner payload left offset).2 = some r ↔ (∃ pointers < left,
      NameAt payload offset pointers r.labels r.nameLen r.endOffset) ∧ r.labels ≤ 32 ∧ r.nameLen ≤ 255 := by
  induction left generalizing offset with
  | zero => exact ⟨le_rfl, fun _ => ⟨(nomatch ·), fun ⟨⟨_, h, _⟩, _⟩ => nomatch h⟩⟩
  | succ left ih =>
    refine ⟨nameLoop_calls (fun target => (ih target).1) offset 0 0, fun r => ?_⟩
    refine (nameLoop_spec (fun target => (ih target).2) offset 0 0 (by omega) r).trans ?_
    refine and_congr_left fun _ => exists_congr fun pointers => and_congr_right fun _ => ?_
    refine ⟨fun ⟨l, n, h, hl, hn⟩ => ?_, fun h => ⟨_, _, h, (Nat.zero_add _).symm, (Nat.zero_add _).symm⟩⟩
    rwa [hl, hn, Nat.zero_add, Nat.zero_add]

/-- **The parser decodes the names that it should**: those with at most eight pointers and within the limits,
after at most nine nested calls. -/
theorem dns_name_payload_inner_exact (payload : List UInt8) (offset : ℕ) :
    (dnsNamePayloadInner payload (dnsMaxNamePointerDepth + 1) offset).1 ≤ dnsMaxNamePointerDepth + 1 ∧
    ∀ r, ((dnsNamePayloadInner payload (dnsMaxNamePointerDepth + 1) offset).2 = some r ↔
        (∃ pointers ≤ dnsMaxNamePointerDepth, NameAt payload offset pointers r.labels r.nameLen r.endOffset) ∧
        r.labels ≤ 32 ∧ r.nameLen ≤ 255) ∧
      ((dnsNamePayloadInner payload (dnsMaxNamePointerDepth + 1) offset).2 = some r →
        offset + 1 ≤ r.endOffset ∧ r.endOffset ≤ payload.length) := by
  obtain ⟨hcalls, hparse⟩ := @dnsNamePayloadInner_spec payload (dnsMaxNamePointerDepth + 1) offset
  refine ⟨hcalls, fun r => ⟨?_, fun hr => ?_⟩⟩
  · simpa only [Nat.lt_succ_iff] using hparse r
  · obtain ⟨⟨pointers, _, h⟩, _⟩ := (hparse r).mp hr
    exact h.stop_le

end HeteroNetwork
