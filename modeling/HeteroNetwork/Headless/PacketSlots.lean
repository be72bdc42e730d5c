import Mathlib

/-!
# Packet filters below the TUN reader

`kernelFilter.Read` and `lazyTUN.Read` bring the accepted packets of a batch to the front by swapping slots,
while the reader takes slot `i` for the buffer of element `i`.
-/

namespace HeteroNetwork

open List

namespace Headless

/-- A buffer, named by the turn in which it was made and its first slot, and what is in it. -/
structure Slot where
  buffer : ℕ × ℕ
  bytes : List UInt8

/-- The slices passed to `Read`. -/
structure View where
  slots : ℕ → Slot
  sizes : ℕ → ℕ

/-- What the device reads, and which packets each layer accepts, the innermost first. -/
structure Batch where
  packets : List (List UInt8)
  layers : List (ℕ → Bool)

/-- The reader, with the buffers that its elements own. -/
structure Reader where
  slots : ℕ → Slot
  owned : ℕ → ℕ × ℕ
  handedOff : List (ℕ × ℕ)
  turn : ℕ

/-- The body of the loop in both filters, after `acc.1` accepted packets. -/
def keep (permit : ℕ → Bool) (acc : ℕ × View) (index : ℕ) : ℕ × View :=
  if permit index then
    (acc.1 + 1, ⟨acc.2.slots ∘ Equiv.swap acc.1 index, Function.update acc.2.sizes acc.1 (acc.2.sizes index)⟩)
  else acc

/-- `Read` of a layer, after the layer below. -/
def compact (acc : ℕ × View) (permit : ℕ → Bool) : ℕ × View :=
  (List.range acc.1).foldl (keep permit) (0, acc.2)

def View.window (view : View) (count : ℕ) : List (Slot × ℕ) :=
  (List.range count).map fun i => (view.slots i, view.sizes i)

namespace Reader

def new : Reader := ⟨fun i => ⟨(0, i), []⟩, fun i => (0, i), [], 0⟩

/-- The device writes packet `i` into slot `i`. -/
def fill (r : Reader) (packets : List (List UInt8)) : View :=
  ⟨fun i => ⟨(r.slots i).buffer, packets.getD i [] ++ (r.slots i).bytes.drop (packets.getD i []).length⟩,
    fun i => (packets.getD i []).length⟩

def read (r : Reader) (batch : Batch) : ℕ × View :=
  batch.layers.foldl compact (batch.packets.length, r.fill batch.packets)

/-- The packets that `read` returns, with their sizes. -/
def returned (r : Reader) (batch : Batch) : List (List UInt8 × ℕ) :=
  ((r.read batch).2.window (r.read batch).1).map fun (slot, size) => (slot.bytes.take size, size)

/-- As many elements as there are packets are handed off and replaced. -/
def next (r : Reader) (batch : Batch) : Reader :=
  let (count, view) := r.read batch
  { slots := fun i => if i < count then ⟨(r.turn + 1, i), []⟩ else view.slots i
    owned := fun i => if i < count then (r.turn + 1, i) else r.owned i
    handedOff := r.handedOff ++ (List.range count).map r.owned
    turn := r.turn + 1 }

end Reader

/-- The elements of a list that a layer accepts. -/
def accepted {α : Type} (l : List α) (permit : ℕ → Bool) : List α :=
  (l.zipIdx.filter fun p => permit p.2).map Prod.fst

/-- No layer rejects a packet before one that it accepts. -/
def InOrder : ℕ → List (ℕ → Bool) → Prop
  | _, [] => True
  | count, permit :: layers =>
    (∀ i < count, permit i → ∀ j < i, permit j) ∧ InOrder ((List.range count).countP permit) layers

variable {permit : ℕ → Bool} {view : View} {batch : Batch} {r : Reader} {layers : List (ℕ → Bool)}

lemma accepted_append {α : Type} (l : List α) (a : α) :
    accepted (l ++ [a]) permit = accepted l permit ++ if permit l.length then [a] else [] := by
  simp only [accepted, zipIdx_append, filter_append, map_append]
  congr 1
  by_cases h : permit l.length <;> simp [h]

lemma foldl_accepted_map {α β : Type} (f : α → β) (l : List α) :
    layers.foldl accepted (l.map f) = (layers.foldl accepted l).map f := by
  induction layers generalizing l with
  | nil => rfl
  | cons permit layers ih =>
    have hmap : accepted (l.map f) permit = (accepted l permit).map f := by
      simp [accepted, zipIdx_map, filter_map, Function.comp_def]
    rw [foldl_cons, hmap, ih, foldl_cons]

/-- After `count` packets the accepted ones are in front, and those ahead are where they were. -/
lemma foldl_keep (count : ℕ) :
    let acc := (List.range count).foldl (keep permit) (0, view)
    acc.1 ≤ count ∧ acc.2.window acc.1 = accepted (view.window count) permit ∧
    ∀ i, count ≤ i → (acc.2.slots i, acc.2.sizes i) = (view.slots i, view.sizes i) := by
  induction count with
  | zero => exact ⟨le_rfl, rfl, fun _ _ => rfl⟩
  | succ count ih =>
    obtain ⟨hle, hwindow, hahead⟩ := ih
    have hlength : (view.window count).length = count := by simp [View.window]
    have hsucc : view.window (count + 1) = view.window count ++ [(view.slots count, view.sizes count)] := by
      simp [View.window, range_succ]
    simp only [range_succ, foldl_append, foldl_cons, foldl_nil, hsucc, accepted_append,
      hlength, ← hwindow]
    generalize (List.range count).foldl (keep permit) (0, view) = acc at *
    unfold keep
    split
    · refine ⟨Nat.succ_le_succ hle, ?_, fun i hi => ?_⟩
      · simp only [View.window, range_succ, map_append, map_cons, map_nil]
        congr 1
        · refine map_congr_left fun i hi => ?_
          have hlt := mem_range.mp hi
          rw [Function.comp_apply, Equiv.swap_apply_of_ne_of_ne (by omega) (by omega),
            Function.update_of_ne (by omega)]
        · simp [← hahead count le_rfl]
      · change (acc.2.slots (Equiv.swap acc.1 count i), Function.update acc.2.sizes acc.1 _ i) = _
        rw [Equiv.swap_apply_of_ne_of_ne (by omega) (by omega), Function.update_of_ne (by omega),
          hahead i (by omega)]
    · exact ⟨by omega, (append_nil _).symm, fun i hi => hahead i (by omega)⟩

lemma window_foldl_compact (count : ℕ) :
    let acc := layers.foldl compact (count, view)
    acc.2.window acc.1 = layers.foldl accepted (view.window count) := by
  induction layers generalizing count view with
  | nil => rfl
  | cons permit layers ih =>
    exact (ih (compact (count, view) permit).1).trans (congrArg (layers.foldl accepted ·) (foldl_keep count).2.1)

lemma Reader.returned_eq (r : Reader) (batch : Batch) :
    r.returned batch = (batch.layers.foldl accepted batch.packets).map fun packet => (packet, packet.length) := by
  rw [returned, read, window_foldl_compact, ← foldl_accepted_map, ← foldl_accepted_map]
  congr 1
  refine ext_getElem (by simp [View.window]) fun i hi hi' => ?_
  have hlt : i < batch.packets.length := by simpa using hi'
  simp [View.window, fill, hlt]

/-- A loop that rejects no packet before one that it accepts moves nothing. -/
lemma foldl_keep_of_inOrder (count : ℕ) (horder : ∀ i < count, permit i → ∀ j < i, permit j) :
    (List.range count).foldl (keep permit) (0, view) = ((List.range count).countP permit, view) := by
  induction count with
  | zero => rfl
  | succ count ih =>
    rw [range_succ, foldl_append, ih fun i hi => horder i (by omega), countP_append]
    unfold keep
    by_cases hpermit : permit count
    · have hall : (List.range count).countP permit = count := by
        rw [countP_eq_length.mpr, length_range]
        exact fun j hj => horder count (by omega) hpermit j (mem_range.mp hj)
      simp [hpermit, hall]
    · simp [hpermit]

lemma foldl_compact_of_inOrder {count : ℕ} (horder : InOrder count layers) :
    (layers.foldl compact (count, view)).2 = view := by
  induction layers generalizing count with
  | nil => rfl
  | cons permit layers ih =>
    rw [foldl_cons, compact, foldl_keep_of_inOrder count horder.1]
    exact ih horder.2

/-- Every element owns the buffer in its slot, which was made later than those handed off from the slot. -/
structure Reader.Owns (r : Reader) : Prop where
  owned : ∀ i, (r.slots i).buffer = r.owned i
  made : ∀ i, (r.owned i).1 ≤ r.turn ∧ (r.owned i).2 = i
  handedOff : ∀ buffer ∈ r.handedOff, buffer.1 < (r.owned buffer.2).1

lemma Reader.Owns.next (h : r.Owns) (horder : InOrder batch.packets.length batch.layers) : (r.next batch).Owns := by
  have howned : ∀ i, (r.next batch).owned i = if i < (r.read batch).1 then (r.turn + 1, i) else r.owned i :=
    fun _ => rfl
  refine ⟨fun i => ?_, fun i => ?_, fun buffer hbuffer => ?_⟩
  · change (if _ then _ else (r.read batch).2.slots i).buffer = _
    rw [howned, read, foldl_compact_of_inOrder horder, apply_ite Slot.buffer]
    exact if_congr Iff.rfl rfl (h.owned i)
  · rw [howned]
    split_ifs
    · exact ⟨le_rfl, rfl⟩
    · exact (h.made i).imp_left Nat.le_succ_of_le
  · obtain hbuffer | hbuffer := mem_append.mp hbuffer
    · have hlater := h.handedOff buffer hbuffer
      rw [howned]
      split_ifs
      · exact (hlater.trans_le (h.made _).1).trans (Nat.lt_succ_self _)
      · exact hlater
    · obtain ⟨i, hi, rfl⟩ := mem_map.mp hbuffer
      have hcount : i < (r.read batch).1 := mem_range.mp hi
      rw [howned, (h.made i).2, if_pos hcount]
      exact Nat.lt_succ_of_le (h.made i).1

/-- **Each read returns the accepted packets.** In every run in which no layer rejects a packet before one that
it accepts, no slot holds the buffer of an element that was handed off. -/
theorem packet_filters_keep_buffers (batches : List Batch) :
    (∀ batch, (batches.foldl Reader.next .new).returned batch =
      (batch.layers.foldl accepted batch.packets).map fun packet => (packet, packet.length)) ∧
    ((∀ batch ∈ batches, InOrder batch.packets.length batch.layers) →
      ∀ i, ((batches.foldl Reader.next .new).slots i).buffer ∉ (batches.foldl Reader.next .new).handedOff) := by
  refine ⟨Reader.returned_eq _, fun horder i hi => ?_⟩
  have hnew : Reader.new.Owns := ⟨fun _ => rfl, fun _ => ⟨le_rfl, rfl⟩, nofun⟩
  have howns : (batches.foldl Reader.next .new).Owns :=
    List.foldlRecOn batches Reader.next hnew fun _ h batch hbatch => h.next (horder batch hbatch)
  have hlater := howns.handedOff _ hi
  rw [howns.owned, (howns.made i).2] at hlater
  exact lt_irrefl _ hlater

namespace SampleReader

def pair (permit : ℕ → Bool) : Reader := Reader.new.next ⟨[[1], [2]], [permit]⟩

theorem packet_filters_keep_buffers_pair : ((pair (· == 0)).slots 1).buffer ∉ (pair (· == 0)).handedOff :=
  (packet_filters_keep_buffers [⟨[[1], [2]], [(· == 0)]⟩]).2 (by simp +contextual [InOrder]) 1

/-- The first packet is rejected and the second accepted: slot 1 has the buffer of element 0. -/
theorem handed_off_buffer_in_slot : ((pair (· == 1)).slots 1).buffer ∈ (pair (· == 1)).handedOff := by
  decide +kernel

end SampleReader

end Headless

end HeteroNetwork
