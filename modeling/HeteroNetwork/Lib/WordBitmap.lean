import Mathlib

/-!
# Bitmaps spread over machine words

A bitmap of `n` words of `w` bits.  Moving every word by a word offset and a bit offset, with the carry into
the next word, is moving every *position* by the distance (`shiftUp_bit`).
-/

namespace WordBitmap

variable {w n : ℕ}

/-- Position `k` of the bitmap: word `k / w`, bit `k % w`. -/
def bit (words : Vector (BitVec w) n) (k : ℕ) : Bool :=
  (words[k / w]?.getD 0).getLsbD (k % w)

def orWord (words : Vector (BitVec w) n) (index : ℕ) (word : BitVec w) : Vector (BitVec w) n :=
  words.setIfInBounds index (words[index]?.getD 0 ||| word)

def setBit (words : Vector (BitVec w) n) (k : ℕ) : Vector (BitVec w) n :=
  orWord words (k / w) (1#w <<< (k % w))

def testBit (words : Vector (BitVec w) n) (k : ℕ) : Bool :=
  (words[k / w]?.getD 0 &&& (1#w <<< (k % w))) != 0

/-- Or one word into the bitmap at `target`, moved up by `bitShift`, its carry into the word
after. -/
def moveWord (bitShift : ℕ) (word : BitVec w) (target : ℕ) (seen : Vector (BitVec w) n) :
    Vector (BitVec w) n :=
  let seen := orWord seen target (word <<< bitShift)
  if bitShift > 0 ∧ target + 1 < n then orWord seen (target + 1) (word >>> (w - bitShift))
  else seen

/-- The loop of a multi-word shift over the words still to be moved, the next of which is word
`source`; `break` is the first `if`. -/
def shiftLoop (wordShift bitShift : ℕ) :
    List (BitVec w) → ℕ → Vector (BitVec w) n → Vector (BitVec w) n
  | [], _, seen => seen
  | word :: rest, source, seen =>
    if source + wordShift ≥ n then seen
    else shiftLoop wordShift bitShift rest (source + 1)
      (moveWord bitShift word (source + wordShift) seen)

/-- Move every position up by `distance`; what leaves the bitmap is forgotten. -/
def shiftUp (words : Vector (BitVec w) n) (distance : ℕ) : Vector (BitVec w) n :=
  shiftLoop (distance / w) (distance % w) words.toList 0 (Vector.replicate n 0)

@[simp] lemma bit_zero (k : ℕ) : bit (Vector.replicate n (0 : BitVec w)) k = false := by
  simp only [bit, Vector.getElem?_replicate]
  split_ifs <;> simp

lemma bit_orWord (words : Vector (BitVec w) n) (index : ℕ) (word : BitVec w) (k : ℕ) :
    bit (orWord words index word) k
      = (bit words k || (decide (k / w = index ∧ index < n) && word.getLsbD (k % w))) := by
  simp only [bit, orWord, Vector.getElem?_setIfInBounds]
  by_cases hindex : index = k / w
  · subst hindex
    by_cases hlt : k / w < n
    · simp [hlt]
    · simp [hlt]
  · have hne : ¬(k / w = index) := fun h => hindex h.symm
    simp [hindex, hne]

lemma testBit_eq_bit (hw : 0 < w) (words : Vector (BitVec w) n) (k : ℕ) :
    testBit words k = bit words k := by
  have hmask : ∀ x : BitVec w, (x &&& (1#w <<< (k % w)))
      = if x.getLsbD (k % w) then BitVec.twoPow w (k % w) else 0#w :=
    fun x => BitVec.and_twoPow x (k % w)
  simp only [testBit, bit, hmask]
  cases hbit : (words[k / w]?.getD 0).getLsbD (k % w) with
  | false => simp
  | true =>
    have hne : BitVec.twoPow w (k % w) ≠ 0#w := by
      intro hzero
      have := congrArg (fun x => x.getLsbD (k % w)) hzero
      simp [Nat.mod_lt _ hw] at this
    simpa using hne

theorem bit_setBit (hw : 0 < w) (words : Vector (BitVec w) n) (k j : ℕ) (hk : k < n * w) :
    bit (setBit words k) j = (bit words j || decide (j = k)) := by
  have hlt : k / w < n := Nat.div_lt_of_lt_mul (by rwa [Nat.mul_comm])
  have hone : (1#w <<< (k % w)).getLsbD (j % w) = decide (k % w = j % w) := by
    have := BitVec.getLsbD_twoPow (w := w) (i := k % w) (j := j % w)
    rw [BitVec.twoPow] at this
    rw [this]
    simp [Nat.mod_lt _ hw]
  have hpos : (k / w = j / w ∧ k % w = j % w) ↔ j = k := by
    constructor
    · rintro ⟨hdiv, hmod⟩
      rw [← Nat.div_add_mod j w, ← Nat.div_add_mod k w, hdiv, hmod]
    · rintro rfl
      exact ⟨rfl, rfl⟩
  rw [setBit, bit_orWord, hone]
  congr 1
  rw [← Bool.decide_and, decide_eq_decide, ← hpos]
  exact ⟨fun h => ⟨h.1.1.symm, h.2⟩, fun h => ⟨⟨h.1.symm, hlt⟩, h.2⟩⟩

lemma moveWord_bit (bitShift : ℕ) (word : BitVec w) (target : ℕ) (seen : Vector (BitVec w) n) (k : ℕ) :
    bit (moveWord bitShift word target seen) k
      = (bit seen k || ((decide (k / w = target ∧ target < n) && (word <<< bitShift).getLsbD (k % w)) ||
          (decide (bitShift > 0 ∧ target + 1 < n) && (decide (k / w = target + 1) &&
            (word >>> (w - bitShift)).getLsbD (k % w))))) := by
  simp only [moveWord]
  split_ifs with hcarry
  · rw [bit_orWord, bit_orWord, Bool.or_assoc]
    simp [hcarry]
  · rw [bit_orWord]
    simp [hcarry]

lemma moveWord_origin (hw : 0 < w) (word : BitVec w) (source distance : ℕ)
    (seen : Vector (BitVec w) n) (k : ℕ) (hk : k < n * w) (htarget : source + distance / w < n) :
    bit (moveWord (distance % w) word (source + distance / w) seen) k
      = (bit seen k || (decide (distance ≤ k ∧ (k - distance) / w = source) &&
          word.getLsbD ((k - distance) % w))) := by
  rw [moveWord_bit]
  congr 1
  have hbit : distance % w < w := Nat.mod_lt _ hw
  have hpos : k % w < w := Nat.mod_lt _ hw
  have hdist := Nat.div_add_mod distance w
  have hkdiv := Nat.div_add_mod k w
  have hklt : k / w < n := Nat.div_lt_of_lt_mul (by rwa [Nat.mul_comm])
  generalize distance / w = ws at *
  generalize hbs : distance % w = bs at *
  generalize k / w = q at *
  generalize k % w = p at *
  simp only [BitVec.getLsbD_shiftLeft, BitVec.getLsbD_ushiftRight]
  by_cases hlow : bs ≤ p
  · -- no carry: the origin is bit `p - bs` of word `q - ws`
    by_cases hq : ws ≤ q
    · have hsub : k - distance = w * (q - ws) + (p - bs) := by
        rw [Nat.mul_sub]
        have := Nat.mul_le_mul_left w hq
        omega
      have hdiv : (k - distance) / w = q - ws := by
        rw [hsub, Nat.mul_add_div hw, Nat.div_eq_of_lt (by omega), Nat.add_zero]
      have hmod : (k - distance) % w = p - bs := by
        rw [hsub, Nat.mul_add_mod, Nat.mod_eq_of_lt (by omega)]
      have hle : distance ≤ k := by
        have := Nat.mul_le_mul_left w hq
        omega
      have hcarry : word.getLsbD (w - bs + p) = false := BitVec.getLsbD_of_ge _ _ (by omega)
      rw [hdiv, hmod, hcarry]
      by_cases hs : q = source + ws
      · simp [hs, hle, hlow, hpos, htarget]
      · have hs' : ¬(q - ws = source) := by omega
        simp [hs, hs']
    · have hle : ¬distance ≤ k := by
        have := Nat.mul_le_mul_left w (show q + 1 ≤ ws by omega)
        rw [Nat.mul_add] at this
        omega
      have h₁ : ¬(q = source + ws) := by omega
      have h₂ : ¬(q = source + ws + 1) := by omega
      simp [hle, h₁, h₂]
  · -- carry: the origin is bit `w - bs + p` of the word before
    have hbs0 : 0 < bs := by omega
    by_cases hq : ws + 1 ≤ q
    · have hsub : k - distance = w * (q - ws - 1) + (w - bs + p) := by
        have h₁ : w * q = w * (q - ws - 1) + w * ws + w := by
          rw [← Nat.mul_add, ← Nat.mul_succ]
          congr 1
          omega
        omega
      have hdiv : (k - distance) / w = q - ws - 1 := by
        rw [hsub, Nat.mul_add_div hw, Nat.div_eq_of_lt (by omega), Nat.add_zero]
      have hmod : (k - distance) % w = w - bs + p := by
        rw [hsub, Nat.mul_add_mod, Nat.mod_eq_of_lt (by omega)]
      have hle : distance ≤ k := by
        have := Nat.mul_le_mul_left w hq
        rw [Nat.mul_add] at this
        omega
      rw [hdiv, hmod]
      by_cases hs : q = source + ws + 1
      · have hlt : source + ws + 1 < n := hs ▸ hklt
        have hs' : q - ws - 1 = source := by omega
        rw [hs']
        simp [hs, hle, hlt, hbs0]
      · have hs' : ¬(q - ws - 1 = source) := by omega
        simp [hs, hs', hlow]
    · have hle : ¬distance ≤ k := by
        have := Nat.mul_le_mul_left w (show q ≤ ws by omega)
        omega
      have h₂ : ¬(q = source + ws + 1) := by omega
      simp [hle, h₂, hlow]

lemma shiftLoop_bit (hw : 0 < w) (distance : ℕ) (rest : List (BitVec w)) (source : ℕ)
    (seen : Vector (BitVec w) n) (k : ℕ) (hk : k < n * w) :
    bit (shiftLoop (distance / w) (distance % w) rest source seen) k
      = (bit seen k || (decide (distance ≤ k ∧ source ≤ (k - distance) / w) &&
          (rest[(k - distance) / w - source]?.getD 0).getLsbD ((k - distance) % w))) := by
  induction rest generalizing source seen with
  | nil => simp [shiftLoop]
  | cons word rest ih =>
    simp only [shiftLoop]
    split_ifs with hbreak
    · -- `break`: no position of the bitmap originates from this word or a later one
      have hnone : ¬(distance ≤ k ∧ source ≤ (k - distance) / w) := by
        rintro ⟨hle, hsource⟩
        have hdiv : (k - distance) / w + distance / w ≤ k / w := by
          calc (k - distance) / w + distance / w ≤ (k - distance + distance) / w :=
                Nat.div_add_div_le_add_div
            _ = k / w := by rw [Nat.sub_add_cancel hle]
        have hklt : k / w < n := Nat.div_lt_of_lt_mul (by rwa [Nat.mul_comm])
        omega
      rw [decide_eq_false hnone]
      simp
    · rw [ih, moveWord_origin hw word source distance seen k hk (Nat.lt_of_not_ge hbreak),
        Bool.or_assoc]
      congr 1
      -- position `k` originates from this word, from a later one, or from neither
      by_cases hle : distance ≤ k
      · rcases Nat.lt_trichotomy ((k - distance) / w) source with hlt | heq | hgt
        · have h₁ : ¬((k - distance) / w = source) := by omega
          have h₂ : ¬(source + 1 ≤ (k - distance) / w) := by omega
          have h₃ : ¬(source ≤ (k - distance) / w) := by omega
          simp [h₁, h₂, h₃]
        · have h₂ : ¬(source + 1 ≤ (k - distance) / w) := by omega
          simp [hle, heq]
        · have hsucc : (k - distance) / w - source = (k - distance) / w - (source + 1) + 1 := by
            omega
          have h₁ : ¬((k - distance) / w = source) := by omega
          rw [hsucc, List.getElem?_cons_succ]
          simp [hle, h₁, Nat.succ_le_of_lt hgt, hgt.le]
      · simp [hle]

/-- **Shifting the words shifts the positions.** -/
theorem shiftUp_bit (hw : 0 < w) (words : Vector (BitVec w) n) (distance k : ℕ) (hk : k < n * w) :
    bit (shiftUp words distance) k = (decide (distance ≤ k) && bit words (k - distance)) := by
  rw [shiftUp, shiftLoop_bit hw _ _ _ _ _ hk, bit_zero]
  simp [bit]

end WordBitmap
