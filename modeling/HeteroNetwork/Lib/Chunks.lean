import Mathlib

/-!
# Cutting a list into chunks

`chunks n l` cuts `l` into pieces of `n` elements, the last of which may be shorter.
-/

namespace Chunks

variable {α : Type*}

def divCeil (a b : ℕ) : ℕ := (a + b - 1) / b

def chunk (n : ℕ) (l : List α) (i : ℕ) : List α := (l.drop (n * i)).take n

def chunks (n : ℕ) (l : List α) : List (List α) := (List.range (divCeil l.length n)).map (chunk n l)

variable {n i k : ℕ} {l : List α}

@[simp] lemma length_chunks : (chunks n l).length = divCeil l.length n := by
  simp [chunks]

lemma le_mul_divCeil (hn : 0 < n) (a : ℕ) : a ≤ n * divCeil a n := by
  have hdiv := Nat.lt_mul_div_succ (a + n - 1) hn
  rw [Nat.mul_add, Nat.mul_one] at hdiv
  rw [divCeil]
  omega

lemma mul_lt_of_lt_divCeil (hn : 0 < n) {a : ℕ} (h : i < divCeil a n) : n * i < a := by
  have hle : (i + 1) * n ≤ a + n - 1 := (Nat.le_div_iff_mul_le hn).mp h
  rw [Nat.add_mul, Nat.one_mul, Nat.mul_comm] at hle
  omega

lemma flatten_map_chunk : ((List.range k).map (chunk n l)).flatten = l.take (n * k) := by
  induction k with
  | zero => simp
  | succ k ih =>
    rw [List.range_succ, List.map_append, List.flatten_append, ih, List.map_singleton,
      List.flatten_singleton, chunk, Nat.mul_succ, List.take_add]

theorem flatten_chunks (hn : 0 < n) : (chunks n l).flatten = l := by
  rw [chunks, flatten_map_chunk, List.take_of_length_le (le_mul_divCeil hn l.length)]

lemma length_chunk : (chunk n l i).length = min n (l.length - n * i) := by
  rw [chunk, List.length_take, List.length_drop]

theorem length_chunk_eq (hn : 0 < n) (h : i < divCeil l.length n) :
    (chunk n l i).length =
      if i + 1 = divCeil l.length n then l.length - n * (divCeil l.length n - 1) else n := by
  have hlt := mul_lt_of_lt_divCeil hn h
  rw [length_chunk]
  split_ifs with hlast
  · have hle := le_mul_divCeil hn l.length
    rw [← hlast, Nat.add_sub_cancel]
    rw [← hlast, Nat.mul_add, Nat.mul_one] at hle
    omega
  · have hnext : n * (i + 1) < l.length := mul_lt_of_lt_divCeil hn (by omega)
    rw [Nat.mul_add, Nat.mul_one] at hnext
    omega

end Chunks
