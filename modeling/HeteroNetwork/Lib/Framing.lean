import HeteroNetwork.Lib.BigEndian

/-!
# Self-delimiting encodings

A message is written field by field, so whether it determines what was written depends on every field saying
where it ends (`Delimited`).  A counted field carries its length in eight bytes.
-/

namespace Framing

open BigEndian Function
open List hiding Vector

variable {α β : Type*}

abbrev limit : ℕ := 256 ^ 8

/-- A value can be read off the front of a string, whatever follows it. -/
def Delimited (write : α → List UInt8) : Prop :=
  ∀ a a' rest rest', write a ++ rest = write a' ++ rest' → (write a ++ rest).length < limit →
    a = a' ∧ rest = rest'

section Composition

variable {f : α → List UInt8} {g : β → List UInt8}

lemma Delimited.injective (hf : Delimited f) (a a' : α) (h : f a = f a')
    (hlen : (f a).length < limit) : a = a' :=
  (hf a a' [] [] (by simpa using h) (by simpa using hlen)).1

lemma Delimited.prod (hf : Delimited f) (hg : Delimited g) :
    Delimited fun x : α × β => f x.1 ++ g x.2 := by
  rintro ⟨a, b⟩ ⟨a', b'⟩ rest rest' h hlen
  simp only [append_assoc] at h hlen
  obtain ⟨rfl, hrest⟩ := hf a a' _ _ h hlen
  rw [length_append] at hlen
  obtain ⟨rfl, rfl⟩ := hg b b' rest rest' hrest (by omega)
  exact ⟨rfl, rfl⟩

lemma Delimited.comp (hf : Delimited f) (i : β → α) (hi : Injective i) :
    Delimited fun b => f (i b) := by
  intro b b' rest rest' h hlen
  obtain ⟨hb, hrest⟩ := hf _ _ rest rest' h hlen
  exact ⟨hi hb, hrest⟩

lemma Delimited.congr {f' : α → List UInt8} (hf : Delimited f) (h : ∀ a, f' a = f a) :
    Delimited f' := by
  obtain rfl : f' = f := funext h
  exact hf

lemma delimited_of_length {n : ℕ} (hlength : ∀ a, (f a).length = n) (hf : Injective f) :
    Delimited f := by
  intro a a' rest rest' h _
  obtain ⟨ha, hrest⟩ := append_inj h ((hlength a).trans (hlength a').symm)
  exact ⟨hf ha, hrest⟩

end Composition

/-! ## Fields -/

def frame (value : List UInt8) : List UInt8 := toBytes 8 value.length ++ value

@[simp] lemma length_frame (value : List UInt8) : (frame value).length = 8 + value.length := by
  simp [frame]

lemma toBytes_injective_of_lt {w n m : ℕ} (h : toBytes w n = toBytes w m) (hn : n < 256 ^ w)
    (hm : m < 256 ^ w) : n = m := by
  rw [← ofBytes_toBytes hn, h, ofBytes_toBytes hm]

lemma count_inj {n m : ℕ} {rest rest' : List UInt8}
    (h : toBytes 8 n ++ rest = toBytes 8 m ++ rest') (hn : n < limit) (hm : m < limit) :
    n = m ∧ rest = rest' := by
  obtain ⟨hcount, hrest⟩ := append_inj h (by simp)
  exact ⟨toBytes_injective_of_lt hcount hn hm, hrest⟩

lemma frame_inj {v v' rest rest' : List UInt8} (h : frame v ++ rest = frame v' ++ rest')
    (hv : v.length < limit) (hv' : v'.length < limit) : v = v' ∧ rest = rest' := by
  simp only [frame, append_assoc] at h
  obtain ⟨hlength, htail⟩ := count_inj h hv hv'
  exact append_inj htail hlength

theorem delimited_frame : Delimited frame := by
  intro v v' rest rest' h hlen
  have hlen' := hlen
  rw [h] at hlen'
  simp only [length_append, length_frame] at hlen hlen'
  exact frame_inj h (by omega) (by omega)

theorem delimited_bytes (n : ℕ) : Delimited fun v : Vector UInt8 n => v.toList :=
  delimited_of_length (fun v => v.length_toList) fun _ _ h => Vector.toList_inj.mp h

theorem delimited_uint {w : ℕ} {i : α → ℕ} (hlt : ∀ a, i a < 256 ^ w) (hi : Injective i) :
    Delimited fun a => toBytes w (i a) :=
  delimited_of_length (fun a => length_toBytes w (i a)) fun a a' h =>
    hi (toBytes_injective_of_lt h (hlt a) (hlt a'))

def counted (f : α → List UInt8) (l : List α) : List UInt8 := toBytes 8 l.length ++ l.flatMap f

lemma length_le_flatMap {f : α → List UInt8} (hf : ∀ a, f a ≠ []) (l : List α) :
    l.length ≤ (l.flatMap f).length := by
  induction l with
  | nil => simp
  | cons a l ih =>
    have hpos := length_pos_iff.mpr (hf a)
    rw [flatMap_cons, length_append, length_cons]
    omega

theorem delimited_counted {f : α → List UInt8} (hf : Delimited f) (hne : ∀ a, f a ≠ []) :
    Delimited (counted f) := by
  intro l l' rest rest' h hlen
  have hlen' := hlen
  rw [h] at hlen'
  have hle := length_le_flatMap hne l
  have hle' := length_le_flatMap hne l'
  simp only [counted, append_assoc, length_append, length_toBytes] at h hlen hlen'
  obtain ⟨hlength, htail⟩ := count_inj h (by omega) (by omega)
  have hbound : (l.flatMap f ++ rest).length < limit := by
    rw [length_append]
    omega
  clear h hlen hlen' hle hle'
  induction l generalizing l' with
  | nil =>
    obtain rfl : l' = [] := length_eq_zero_iff.mp hlength.symm
    exact ⟨rfl, by simpa using htail⟩
  | cons a l ih =>
    obtain ⟨a', l', rfl⟩ : ∃ a' l'', l' = a' :: l'' :=
      exists_cons_of_length_eq_add_one hlength.symm
    simp only [flatMap_cons, append_assoc] at htail hbound
    obtain ⟨rfl, hmore⟩ := hf a a' _ _ htail hbound
    rw [length_append] at hbound
    obtain ⟨rfl, rfl⟩ := ih l' (by simpa using hlength) hmore (by omega)
    exact ⟨rfl, rfl⟩

lemma flatMap_injective {f : α → List β} {n : ℕ} (hn : 0 < n) (hlength : ∀ a, (f a).length = n)
    (hf : Injective f) : Injective (List.flatMap f) := by
  have hne : ∀ a l, f a ++ List.flatMap f l ≠ [] := by
    intro a l h
    have hzero := congrArg List.length h
    rw [length_append, hlength, length_nil] at hzero
    omega
  intro l l' h
  induction l generalizing l' with
  | nil =>
    cases l' with
    | nil => rfl
    | cons a l' => exact absurd h.symm (hne a l')
  | cons a l ih =>
    cases l' with
    | nil => exact absurd h (hne a l)
    | cons a' l' =>
      rw [flatMap_cons, flatMap_cons] at h
      obtain ⟨ha, hl⟩ := append_inj h ((hlength a).trans (hlength a').symm)
      rw [hf ha, ih hl]

theorem terminated_inj {τ : Type*} {stop : τ} {a b a' b' : List τ} (ha : stop ∉ a)
    (ha' : stop ∉ a') (h : a ++ stop :: b = a' ++ stop :: b') : a = a' ∧ b = b' := by
  induction a generalizing a' with
  | nil =>
    cases a' with
    | nil => exact ⟨rfl, (List.cons.inj h).2⟩
    | cons x a' =>
      obtain ⟨rfl, -⟩ := List.cons.inj h
      simp at ha'
  | cons x a ih =>
    cases a' with
    | nil =>
      obtain ⟨rfl, -⟩ := List.cons.inj h
      simp at ha
    | cons x' a' =>
      obtain ⟨rfl, htail⟩ := List.cons.inj h
      rw [mem_cons, not_or] at ha ha'
      obtain ⟨rfl, rfl⟩ := ih ha.2 ha'.2 htail
      exact ⟨rfl, rfl⟩

end Framing
