import HeteroNetwork.Agent.OverlayTypes
import HeteroNetwork.Lib.WordBitmap

/-!
# The replay window

For each `(epoch, source, path_id)` a 1,024-bit map of the sequence numbers seen just below the highest one.
As long as a key is not dropped, its entry represents what a run accepted for it (`run_represents`).
-/

namespace HeteroNetwork

open Std (TreeMap)

open Checked
open List hiding Vector

/-! ## One key's bitmap -/

def overlayPeerMaxInFlightDatagrams : ℕ := 256
def overlaySequenceReservationsPerDatagram : ℕ := 2
def overlayReplaySequenceWindowBits : ℕ :=
  overlayPeerMaxInFlightDatagrams * overlaySequenceReservationsPerDatagram * 2
def overlayReplaySequenceWindowWords : ℕ := overlayReplaySequenceWindowBits / 64

/-- Bit `d` of `seen` stands for the sequence number `highest - d`. -/
structure ReplaySequenceWindow where
  highest : UInt64
  seen : Vector (BitVec 64) overlayReplaySequenceWindowWords
deriving DecidableEq

namespace ReplaySequenceWindow

open WordBitmap

def new (highest : UInt64) : ReplaySequenceWindow :=
  { highest, seen := (Vector.replicate _ 0).setIfInBounds 0 1 }

def shiftOlder (w : ReplaySequenceWindow) (distance : ℕ) : ReplaySequenceWindow :=
  { w with seen := shiftUp w.seen distance }

/-- The caller has checked `highest < sequence`, so the subtraction does not wrap. -/
def advanceTo (w : ReplaySequenceWindow) (sequence : UInt64) : ReplaySequenceWindow :=
  let advance := sequence - w.highest
  let w :=
    if advance.toNat ≥ overlayReplaySequenceWindowBits then
      { w with seen := Vector.replicate _ 0 }
    else w.shiftOlder advance.toNat
  { highest := sequence, seen := orWord w.seen 0 1 }

def contains (w : ReplaySequenceWindow) (distance : ℕ) : Bool := testBit w.seen distance

def insert (w : ReplaySequenceWindow) (distance : ℕ) : ReplaySequenceWindow :=
  { w with seen := setBit w.seen distance }

end ReplaySequenceWindow

/-! ## All keys -/

structure ReplayPathKey where
  topologyEpoch : UInt64
  source : NodeId
  pathId : PathId
deriving DecidableEq

namespace ReplayPathKey

def toTuple (k : ReplayPathKey) : ℕ ×ₗ NodeId ×ₗ List ℕ :=
  toLex (k.topologyEpoch.toNat, toLex (k.source, k.pathId.val.map UInt8.toNat))

lemma toTuple_injective : Function.Injective toTuple := by
  rintro ⟨epoch, source, ⟨bytes, hbytes⟩⟩ ⟨epoch', source', ⟨bytes', hbytes'⟩⟩ h
  simp only [toTuple, toLex_inj, Prod.mk.injEq, UInt64.toNat_inj] at h
  obtain ⟨rfl, rfl, hmap⟩ := h
  have hinj : Function.Injective UInt8.toNat := fun _ _ => UInt8.toNat_inj.mp
  obtain rfl := map_injective_iff.mpr hinj hmap
  rfl

/-- The program hashes its keys; any lawful lookup will do, and an ordered one evaluates. -/
instance : LinearOrder ReplayPathKey := LinearOrder.lift' toTuple toTuple_injective

instance : Std.LawfulEqOrd ReplayPathKey := ⟨compare_eq_iff_eq.mp⟩

end ReplayPathKey

structure ReplayWindow where
  capacity : ℕ
  sequences : TreeMap ReplayPathKey ReplaySequenceWindow
  recency : List (ReplayPathKey × UInt64)

namespace ReplayWindow

def new (capacity : ℕ) : ReplayWindow := { capacity, sequences := ∅, recency := [] }

def len (w : ReplayWindow) : ℕ := w.sequences.size

def isLatest (sequences : TreeMap ReplayPathKey ReplaySequenceWindow)
    (item : ReplayPathKey × UInt64) : Bool :=
  sequences[item.1]?.any fun window => window.highest = item.2

def compactRecency (w : ReplayWindow) : ReplayWindow :=
  { w with recency := w.recency.filter (isLatest w.sequences) }

/-- `while self.sequences.len() > self.capacity`, popping `recency` from the front. -/
def evictLoop (capacity : ℕ) :
    List (ReplayPathKey × UInt64) → TreeMap ReplayPathKey ReplaySequenceWindow → ReplayWindow
  | [], sequences => { capacity, sequences, recency := [] }
  | item :: rest, sequences =>
    if sequences.size > capacity then
      evictLoop capacity rest
        (if isLatest sequences item then sequences.erase item.1 else sequences)
    else { capacity, sequences, recency := item :: rest }

def evictToCapacity (w : ReplayWindow) : ReplayWindow :=
  evictLoop w.capacity w.recency w.sequences

/-- The `match` of `observe` on the entry of the key: the entry to store, and the sequence to
remember for recency when the highest one moved. -/
def observeEntry (source : NodeId) (sequence : UInt64) :
    Option ReplaySequenceWindow →
      Except OverlayForwarderError (ReplaySequenceWindow × Option UInt64)
  | some window =>
    if sequence > window.highest then
      .ok (window.advanceTo sequence, some sequence)
    else do
      let distance := (window.highest - sequence).toNat
      rejectIf (distance ≥ overlayReplaySequenceWindowBits)
        (.replayRejected source sequence window.highest)
      rejectIf (window.contains distance) (.replayRejected source sequence window.highest)
      return (window.insert distance, none)
  | none => .ok (.new sequence, some sequence)

def pushRecency (w : ReplayWindow) (key : ReplayPathKey) : Option UInt64 → ReplayWindow
  | none => w
  | some recencySequence =>
    let w := if w.recency.length ≥ w.capacity * 2 then w.compactRecency else w
    { w with recency := w.recency ++ [(key, recencySequence)] }

/-- Every rejection happens before the first write, so an error carries no new state. -/
def observe (w : ReplayWindow) (topologyEpoch : UInt64) (source : NodeId) (pathId : PathId)
    (sequence : UInt64) : Except OverlayForwarderError ReplayWindow := do
  let key : ReplayPathKey := { topologyEpoch, source, pathId }
  let (entry, recencySequence) ← observeEntry source sequence w.sequences[key]?
  let w := { w with sequences := w.sequences.insert key entry }
  return (w.pushRecency key recencySequence).evictToCapacity

def retainEpochs (w : ReplayWindow) (retainedEpochs : List UInt64) : ReplayWindow :=
  { w with sequences := w.sequences.filter fun key _ => key.topologyEpoch ∈ retainedEpochs
    }.compactRecency

end ReplayWindow

/-! ## The bitmap represents what was accepted -/

/-- What a replay window is for: `sequence` is new, and above the highest accepted one minus the
width of the window. -/
def Fresh (accepted : List UInt64) (sequence : UInt64) : Prop :=
  sequence ∉ accepted ∧
    ∀ highest ∈ (accepted.map UInt64.toNat).max?,
      (highest : ℤ) - overlayReplaySequenceWindowBits < sequence.toNat

namespace ReplaySequenceWindow

open WordBitmap

/-- `w` holds the highest of the accepted sequence numbers, and its bits are exactly the accepted
ones within the window below. -/
structure Represents (w : ReplaySequenceWindow) (accepted : List UInt64) : Prop where
  highest_mem : w.highest ∈ accepted
  le_highest : ∀ s ∈ accepted, s ≤ w.highest
  bit_iff : ∀ d < overlayReplaySequenceWindowBits,
    bit w.seen d = true ↔ ∃ s ∈ accepted, s.toNat + d = w.highest.toNat

lemma windowBits_eq : overlayReplaySequenceWindowBits = overlayReplaySequenceWindowWords * 64 := by
  decide

lemma bit_orWord_one (words : Vector (BitVec 64) overlayReplaySequenceWindowWords) (d : ℕ) :
    bit (orWord words 0 1) d = (bit words d || decide (d = 0)) :=
  bit_setBit (by decide) words 0 d (by decide)

lemma new_represents (sequence : UInt64) : (new sequence).Represents [sequence] := by
  refine ⟨mem_singleton_self _, fun s hs => ?_, fun d _ => ?_⟩
  · rw [mem_singleton.mp hs]
    exact UInt64.le_refl _
  · have hseen : (new sequence).seen = orWord (Vector.replicate _ 0) 0 1 := rfl
    rw [hseen, bit_orWord_one, bit_zero]
    simp [new]

lemma advanceTo_bit (w : ReplaySequenceWindow) (sequence : UInt64) (d : ℕ)
    (hd : d < overlayReplaySequenceWindowBits) :
    bit (w.advanceTo sequence).seen d
      = ((decide ((sequence - w.highest).toNat ≤ d) &&
          bit w.seen (d - (sequence - w.highest).toNat)) || decide (d = 0)) := by
  simp only [advanceTo, bit_orWord_one]
  congr 1
  split_ifs with hfar
  · have hnot : ¬(sequence - w.highest).toNat ≤ d := by omega
    rw [bit_zero, decide_eq_false hnot, Bool.false_and]
  · exact shiftUp_bit (by decide) w.seen _ d (windowBits_eq ▸ hd)

variable {w : ReplaySequenceWindow} {sequence : UInt64}

section

variable {accepted : List UInt64} (h : w.Represents accepted)
include h

lemma advanceTo_represents (hlt : w.highest < sequence) :
    (w.advanceTo sequence).Represents (accepted ++ [sequence]) := by
  have hadvance : (sequence - w.highest).toNat = sequence.toNat - w.highest.toNat :=
    UInt64.toNat_sub_of_le _ _ (UInt64.le_of_lt hlt)
  have hlt' : w.highest.toNat < sequence.toNat := UInt64.lt_iff_toNat_lt.mp hlt
  refine ⟨by simp [advanceTo], fun s hs => ?_, fun d hd => ?_⟩
  · rcases mem_append.mp hs with hold | hnew
    · exact UInt64.le_trans (h.le_highest s hold) (UInt64.le_of_lt hlt)
    · rw [mem_singleton.mp hnew]
      exact UInt64.le_refl _
  · rw [advanceTo_bit w sequence d hd, hadvance]
    simp only [advanceTo, Bool.or_eq_true, Bool.and_eq_true, decide_eq_true_eq, mem_append,
      mem_singleton]
    constructor
    · rintro (⟨hle, hbit⟩ | rfl)
      · obtain ⟨s, hs, hsum⟩ := (h.bit_iff _ (by omega)).mp hbit
        exact ⟨s, .inl hs, by omega⟩
      · exact ⟨sequence, .inr rfl, rfl⟩
    · rintro ⟨s, hs | rfl, hsum⟩
      · have hsle := UInt64.le_iff_toNat_le.mp (h.le_highest s hs)
        exact .inl ⟨by omega, (h.bit_iff _ (by omega)).mpr ⟨s, hs, by omega⟩⟩
      · exact .inr (by omega)

lemma insert_represents (hle : sequence ≤ w.highest)
    (hnear : (w.highest - sequence).toNat < overlayReplaySequenceWindowBits) :
    (w.insert (w.highest - sequence).toNat).Represents (accepted ++ [sequence]) := by
  have hdistance : (w.highest - sequence).toNat = w.highest.toNat - sequence.toNat :=
    UInt64.toNat_sub_of_le _ _ hle
  have hle' := UInt64.le_iff_toNat_le.mp hle
  refine ⟨mem_append_left _ h.highest_mem, fun s hs => ?_, fun d hd => ?_⟩
  · rcases mem_append.mp hs with hold | hnew
    · exact h.le_highest s hold
    · rw [mem_singleton.mp hnew]
      exact hle
  · have hbit : bit (w.insert (w.highest - sequence).toNat).seen d
        = (bit w.seen d || decide (d = (w.highest - sequence).toNat)) :=
      bit_setBit (by decide) w.seen _ d (windowBits_eq ▸ hnear)
    rw [hbit, hdistance]
    simp only [insert, Bool.or_eq_true, decide_eq_true_eq, h.bit_iff d hd, mem_append,
      mem_singleton]
    constructor
    · rintro (⟨s, hs, hsum⟩ | rfl)
      · exact ⟨s, .inl hs, hsum⟩
      · exact ⟨sequence, .inr rfl, by omega⟩
    · rintro ⟨s, hs | rfl, hsum⟩
      · exact .inl ⟨s, hs, hsum⟩
      · exact .inr (by omega)

lemma Represents.fresh_iff (sequence : UInt64) :
    Fresh accepted sequence ↔ sequence ∉ accepted ∧
      w.highest.toNat < sequence.toNat + overlayReplaySequenceWindowBits := by
  have hmax : (accepted.map UInt64.toNat).max? = some w.highest.toNat := by
    rw [max?_eq_some_iff]
    refine ⟨mem_map_of_mem h.highest_mem, fun b hb => ?_⟩
    obtain ⟨s, hs, rfl⟩ := mem_map.mp hb
    exact UInt64.le_iff_toNat_le.mp (h.le_highest s hs)
  rw [Fresh, hmax]
  simp only [Option.mem_some_iff, forall_eq']
  exact and_congr_right fun _ => by omega

lemma Represents.contains_iff (hle : sequence ≤ w.highest)
    (hnear : (w.highest - sequence).toNat < overlayReplaySequenceWindowBits) :
    w.contains (w.highest - sequence).toNat = true ↔ sequence ∈ accepted := by
  have hdistance : (w.highest - sequence).toNat = w.highest.toNat - sequence.toNat :=
    UInt64.toNat_sub_of_le _ _ hle
  have hle' := UInt64.le_iff_toNat_le.mp hle
  rw [contains, testBit_eq_bit (by decide), h.bit_iff _ hnear, hdistance]
  constructor
  · rintro ⟨s, hs, hsum⟩
    have : s = sequence := UInt64.toNat_inj.mp (by omega)
    exact this ▸ hs
  · exact fun hs => ⟨sequence, hs, by omega⟩

end

end ReplaySequenceWindow

namespace ReplayWindow

/-- The stored entry of a key against what was accepted for it; no entry, nothing accepted. -/
def EntryRepresents : Option ReplaySequenceWindow → List UInt64 → Prop
  | none, accepted => accepted = []
  | some window, accepted => window.Represents accepted

variable {entry : Option ReplaySequenceWindow}

/-- **One look at an entry.**  It lets a sequence number through exactly when it is fresh, and
the entry to store represents it as well. -/
lemma observeEntry_isOk_iff (source : NodeId) (sequence : UInt64) {accepted : List UInt64}
    (h : EntryRepresents entry accepted) :
    (∃ next, observeEntry source sequence entry = .ok next) ↔ Fresh accepted sequence := by
  cases entry with
  | none =>
    obtain rfl : accepted = [] := h
    simp [observeEntry, Fresh]
  | some w =>
    have h : w.Represents accepted := h
    rw [h.fresh_iff, observeEntry]
    split_ifs with hgt
    · have hlt := UInt64.lt_iff_toNat_lt.mp hgt
      have hnew : sequence ∉ accepted := fun hmem =>
        absurd (UInt64.le_iff_toNat_le.mp (h.le_highest _ hmem)) (by omega)
      simp only [Except.ok.injEq, exists_eq', true_iff]
      exact ⟨hnew, by omega⟩
    · have hle : sequence ≤ w.highest := UInt64.not_lt.mp hgt
      have hdistance : (w.highest - sequence).toNat = w.highest.toNat - sequence.toNat :=
        UInt64.toNat_sub_of_le _ _ hle
      have hle' := UInt64.le_iff_toNat_le.mp hle
      simp only [bind_eq_ok, rejectIf_eq_ok, pure_eq_ok_iff, exists_const, exists_and_left,
        exists_eq', and_true, not_le, ge_iff_le]
      constructor
      · rintro ⟨hnear, hunseen⟩
        exact ⟨fun hmem => hunseen ((h.contains_iff hle hnear).mpr hmem), by omega⟩
      · rintro ⟨hnew, hhigh⟩
        have hnear : (w.highest - sequence).toNat < overlayReplaySequenceWindowBits := by omega
        exact ⟨hnear, fun hseen => hnew ((h.contains_iff hle hnear).mp hseen)⟩

lemma observeEntry_represents {source : NodeId} {sequence : UInt64} {accepted : List UInt64}
    (h : EntryRepresents entry accepted) {next : ReplaySequenceWindow × Option UInt64}
    (hok : observeEntry source sequence entry = .ok next) :
    next.1.Represents (accepted ++ [sequence]) := by
  cases entry with
  | none =>
    obtain rfl : accepted = [] := h
    obtain rfl := Except.ok.inj hok
    exact ReplaySequenceWindow.new_represents sequence
  | some w =>
    have h : w.Represents accepted := h
    rw [observeEntry] at hok
    split_ifs at hok with hgt
    · obtain rfl := Except.ok.inj hok
      exact ReplaySequenceWindow.advanceTo_represents h hgt
    · simp only [bind_eq_ok, rejectIf_eq_ok, pure_eq_ok_iff, exists_const, not_le,
        ge_iff_le] at hok
      obtain ⟨hnear, -, rfl⟩ := hok
      exact ReplaySequenceWindow.insert_represents h (UInt64.not_lt.mp hgt) hnear

/-! ## Frames: what recency and eviction leave alone -/

variable (w : ReplayWindow)

@[simp] lemma compactRecency_sequences : w.compactRecency.sequences = w.sequences := rfl

@[simp] lemma pushRecency_sequences (key : ReplayPathKey) (recencySequence : Option UInt64) :
    (w.pushRecency key recencySequence).sequences = w.sequences := by
  cases recencySequence with
  | none => rfl
  | some s =>
    simp only [pushRecency]
    split_ifs <;> rfl

lemma evictLoop_entry (capacity : ℕ) (recency : List (ReplayPathKey × UInt64))
    (sequences : TreeMap ReplayPathKey ReplaySequenceWindow) (key : ReplayPathKey) :
    (evictLoop capacity recency sequences).sequences[key]? = sequences[key]? ∨
      (evictLoop capacity recency sequences).sequences[key]? = none := by
  induction recency generalizing sequences with
  | nil => exact .inl rfl
  | cons item rest ih =>
    rw [evictLoop]
    split_ifs with hfull hlatest
    · by_cases hkey : item.1 = key
      · right
        rcases ih (sequences.erase item.1) with hsame | hgone
        · rw [hsame, ← hkey, TreeMap.getElem?_erase_self]
        · exact hgone
      · have herase : (sequences.erase item.1)[key]? = sequences[key]? := by
          rw [TreeMap.getElem?_erase, if_neg (by rwa [compare_eq_iff_eq])]
        exact herase ▸ ih (sequences.erase item.1)
    · exact ih sequences
    · exact .inl rfl

lemma evictToCapacity_entry (key : ReplayPathKey) :
    w.evictToCapacity.sequences[key]? = w.sequences[key]? ∨ w.evictToCapacity.sequences[key]? = none :=
  evictLoop_entry w.capacity w.recency w.sequences key

lemma evictToCapacity_of_le {w : ReplayWindow} (h : w.sequences.size ≤ w.capacity) :
    w.evictToCapacity = w := by
  obtain ⟨capacity, sequences, recency⟩ := w
  cases recency with
  | nil => rfl
  | cons item rest => exact if_neg (Nat.not_lt.mpr h)

lemma observe_eq_ok {w w' : ReplayWindow} (key : ReplayPathKey) {sequence : UInt64}
    (hok : w.observe key.topologyEpoch key.source key.pathId sequence = .ok w') :
    ∃ next, observeEntry key.source sequence w.sequences[key]? = .ok next ∧
      ∀ other, w'.sequences[other]? =
          (if key = other then some next.1 else w.sequences[other]?) ∨ w'.sequences[other]? = none := by
  simp only [observe, bind_eq_ok, pure_eq_ok_iff] at hok
  obtain ⟨next, hnext, rfl⟩ := hok
  refine ⟨next, hnext, fun other => ?_⟩
  have hstored : (w.sequences.insert key next.1)[other]?
      = if key = other then some next.1 else w.sequences[other]? := by
    rw [TreeMap.getElem?_insert]
    simp only [compare_eq_iff_eq]
  rw [← hstored]
  have hevict := evictToCapacity_entry
    (pushRecency { w with sequences := w.sequences.insert key next.1 } key next.2) other
  rwa [pushRecency_sequences] at hevict

lemma observe_isOk_iff (key : ReplayPathKey) (sequence : UInt64) :
    (∃ w', w.observe key.topologyEpoch key.source key.pathId sequence = .ok w') ↔
      ∃ next, observeEntry key.source sequence w.sequences[key]? = .ok next := by
  simp only [observe, bind_eq_ok, pure_eq_ok_iff]
  constructor
  · rintro ⟨_, next, hnext, _⟩
    exact ⟨next, hnext⟩
  · rintro ⟨next, hnext⟩
    exact ⟨_, next, hnext, rfl⟩

lemma retainEpochs_entry (retainedEpochs : List UInt64) (key : ReplayPathKey) :
    (w.retainEpochs retainedEpochs).sequences[key]? = w.sequences[key]? ∨
      (w.retainEpochs retainedEpochs).sequences[key]? = none := by
  rw [retainEpochs, compactRecency_sequences, TreeMap.getElem?_filter']
  cases w.sequences[key]? with
  | none => exact .inl rfl
  | some entry =>
    by_cases hmem : key.topologyEpoch ∈ retainedEpochs
    · exact .inl (by simp [hmem])
    · exact .inr (by simp [hmem])

/-! ## Runs -/

/-- The calls a forwarding engine makes on its replay window. -/
inductive Op where
  | observe (key : ReplayPathKey) (sequence : UInt64)
  | retainEpochs (epochs : List UInt64)
deriving DecidableEq

def apply (w : ReplayWindow) : Op → ReplayWindow
  | .observe key sequence =>
    match w.observe key.topologyEpoch key.source key.pathId sequence with
    | .ok w' => w'
    | .error _ => w
  | .retainEpochs epochs => w.retainEpochs epochs

def run (w : ReplayWindow) (ops : List Op) : ReplayWindow := ops.foldl apply w

def acceptedBy (w : ReplayWindow) (key : ReplayPathKey) : Op → List UInt64
  | .observe key' sequence =>
    match w.observe key'.topologyEpoch key'.source key'.pathId sequence with
    | .ok _ => if key' = key then [sequence] else []
    | .error _ => []
  | .retainEpochs _ => []

/-- The sequence numbers a run accepts for `key`, oldest first. -/
def accepted (w : ReplayWindow) (key : ReplayPathKey) : List Op → List UInt64
  | [] => []
  | op :: rest => w.acceptedBy key op ++ (w.apply op).accepted key rest

lemma accepted_concat (key : ReplayPathKey) (ops : List Op) (op : Op) :
    w.accepted key (ops ++ [op]) = w.accepted key ops ++ (w.run ops).acceptedBy key op := by
  induction ops generalizing w with
  | nil => simp [accepted, run]
  | cons first rest ih =>
    rw [cons_append, accepted, accepted, ih, append_assoc]
    rfl

lemma EntryRepresents.of_kept {now made : Option ReplaySequenceWindow} {accepted : List UInt64}
    (hmade : EntryRepresents made accepted) (hnow : now = made ∨ now = none)
    (hkept : accepted ≠ [] → now.isSome) : EntryRepresents now accepted := by
  rcases hnow with rfl | rfl
  · exact hmade
  · by_contra hne
    exact absurd (hkept hne) (by simp)

lemma acceptedBy_cases (key : ReplayPathKey) (op : Op) :
    w.acceptedBy key op = [] ∨ ∃ sequence, w.acceptedBy key op = [sequence] ∧
      ∃ w', w.observe key.topologyEpoch key.source key.pathId sequence = .ok w' := by
  cases op with
  | retainEpochs epochs => exact .inl rfl
  | observe key' sequence =>
    simp only [acceptedBy]
    cases hobserve : w.observe key'.topologyEpoch key'.source key'.pathId sequence with
    | error e => exact .inl rfl
    | ok w' =>
      by_cases hkey : key' = key
      · subst hkey
        exact .inr ⟨sequence, if_pos rfl, w', hobserve⟩
      · exact .inl (if_neg hkey)

variable {key : ReplayPathKey}

lemma apply_represents {w : ReplayWindow} {before : List UInt64}
    (h : EntryRepresents w.sequences[key]? before) (op : Op)
    (hkept : before ++ w.acceptedBy key op ≠ [] → key ∈ (w.apply op).sequences) :
    EntryRepresents (w.apply op).sequences[key]? (before ++ w.acceptedBy key op) := by
  rw [TreeMap.mem_iff_isSome_getElem?] at hkept
  cases op with
  | retainEpochs epochs =>
    have hsame : before ++ w.acceptedBy key (.retainEpochs epochs) = before :=
      append_nil before
    rw [hsame] at hkept ⊢
    exact h.of_kept (retainEpochs_entry w epochs key) hkept
  | observe key' sequence =>
    simp only [apply, acceptedBy] at hkept ⊢
    cases hobserve : w.observe key'.topologyEpoch key'.source key'.pathId sequence with
    | error e => simpa using h
    | ok w' =>
      simp only [hobserve] at hkept ⊢
      obtain ⟨next, hnext, hentries⟩ := observe_eq_ok key' hobserve
      by_cases hkey : key' = key
      · subst hkey
        rw [if_pos rfl] at hkept ⊢
        have hmade : EntryRepresents (some next.1) (before ++ [sequence]) :=
          observeEntry_represents h hnext
        exact hmade.of_kept (by simpa using hentries key') hkept
      · rw [if_neg hkey, append_nil] at hkept ⊢
        exact h.of_kept (by simpa [hkey] using hentries key) hkept

/-- `key` is never dropped: whenever something has been accepted for it, it is still there. -/
def NeverDropped (w : ReplayWindow) (key : ReplayPathKey) (ops : List Op) : Prop :=
  ∀ done, done <+: ops → w.accepted key done ≠ [] → key ∈ (w.run done).sequences

section

variable {start : ReplayWindow} (hstart : key ∉ start.sequences) (ops : List Op)
    (hkept : start.NeverDropped key ops)
include hstart ops hkept

lemma run_represents : EntryRepresents (start.run ops).sequences[key]? (start.accepted key ops) := by
  induction ops using List.reverseRecOn with
  | nil =>
    have hnone : start.sequences[key]? = none := by
      rwa [TreeMap.mem_iff_isSome_getElem?, Option.not_isSome_iff_eq_none] at hstart
    show EntryRepresents start.sequences[key]? []
    rw [hnone]
    rfl
  | append_singleton ops op ih =>
    have hbefore := ih fun done hdone => hkept done (hdone.trans (prefix_append ops [op]))
    have hrun : start.run (ops ++ [op]) = (start.run ops).apply op := by
      simp [run]
    have hnow := hkept (ops ++ [op]) (prefix_refl _)
    rw [hrun, accepted_concat] at hnow ⊢
    exact apply_represents hbefore op hnow

lemma accepted_nodup : (start.accepted key ops).Nodup := by
  induction ops using List.reverseRecOn with
  | nil => exact nodup_nil
  | append_singleton ops op ih =>
    have hkept' : start.NeverDropped key ops :=
      fun done hdone => hkept done (hdone.trans (prefix_append ops [op]))
    rw [accepted_concat]
    rcases acceptedBy_cases (start.run ops) key op with hnone | ⟨sequence, hone, haccepts⟩
    · rw [hnone, append_nil]
      exact ih hkept'
    · rw [observe_isOk_iff, observeEntry_isOk_iff _ _ (run_represents hstart ops hkept')]
        at haccepts
      rw [hone, ← concat_eq_append]
      exact (ih hkept').concat haccepts.1

end

/-- **The replay window accepts each fresh sequence number exactly once.**  As long as a run does not drop
the key, the next `observe` accepts a number exactly when it was not accepted before and lies above the
highest accepted one minus 1,024. -/
theorem observe_accepts_exactly (start : ReplayWindow) (key : ReplayPathKey)
    (hstart : key ∉ start.sequences) (ops : List Op) (hkept : start.NeverDropped key ops) :
    (∀ sequence,
      (∃ w', (start.run ops).observe key.topologyEpoch key.source key.pathId sequence = .ok w') ↔
        sequence ∉ start.accepted key ops ∧
          ∀ highest ∈ ((start.accepted key ops).map UInt64.toNat).max?,
            (highest : ℤ) - 1024 < sequence.toNat) ∧
      (start.accepted key ops).Nodup := by
  refine ⟨fun sequence => ?_, accepted_nodup hstart ops hkept⟩
  rw [observe_isOk_iff]
  exact observeEntry_isOk_iff key.source sequence (run_represents hstart ops hkept)

def sampleKey : ReplayPathKey :=
  { topologyEpoch := 7, source := ⟨"node-a"⟩, pathId := ⟨List.replicate 16 1, length_ones⟩ }

/-- Out of order, at the edge of the window, repeated, too old, and an epoch change. -/
def sampleOps : List Op :=
  [.observe sampleKey 5000, .observe sampleKey 3977, .observe sampleKey 3976,
    .observe { sampleKey with topologyEpoch := 8 } 1, .retainEpochs [7],
    .observe sampleKey 5000, .observe sampleKey 5064]

theorem sampleOps_accepts_exactly :
    (new 2).accepted sampleKey sampleOps = [5000, 3977, 5064] ∧
    (∀ sequence,
      (∃ w', ((new 2).run sampleOps).observe sampleKey.topologyEpoch sampleKey.source
          sampleKey.pathId sequence = .ok w') ↔
        sequence ∉ (new 2).accepted sampleKey sampleOps ∧
          ∀ highest ∈ (((new 2).accepted sampleKey sampleOps).map UInt64.toNat).max?,
            (highest : ℤ) - 1024 < sequence.toNat) ∧
      ((new 2).accepted sampleKey sampleOps).Nodup := by
  have hkept : (new 2).NeverDropped sampleKey sampleOps := by
    have hall : ∀ done ∈ sampleOps.inits,
        (new 2).accepted sampleKey done ≠ [] → sampleKey ∈ ((new 2).run done).sequences := by
      decide +kernel
    exact fun done hdone => hall done ((List.mem_inits _ _).mpr hdone)
  exact ⟨by decide +kernel,
    observe_accepts_exactly (new 2) sampleKey (by decide +kernel) sampleOps hkept⟩

end ReplayWindow

end HeteroNetwork
