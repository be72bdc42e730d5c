import Mathlib

/-!
# Guarded operations

A build with overflow checks stops at an operation whose result does not fit the machine word, and every
build stops at an index out of range.  Here such an operation ends in a `Fault`.
-/

namespace Guarded

inductive Fault where
  | underflow
  | overflow
  | outOfRange
deriving DecidableEq

abbrev wordLimit : ℕ := 2 ^ 64

def add (a b : ℕ) : Except Fault ℕ := if a + b < wordLimit then .ok (a + b) else .error .overflow

def mul (a b : ℕ) : Except Fault ℕ := if a * b < wordLimit then .ok (a * b) else .error .overflow

def sub (a b : ℕ) : Except Fault ℕ := if b ≤ a then .ok (a - b) else .error .underflow

section Lists

variable {α : Type}

def get (l : List α) (i : ℕ) : Except Fault α :=
  match l[i]? with
  | some a => .ok a
  | none => .error .outOfRange

def slice (l : List α) (start stop : ℕ) : Except Fault (List α) :=
  if start ≤ stop ∧ stop ≤ l.length then .ok ((l.drop start).take (stop - start)) else .error .outOfRange

def getMany (l : List α) : ℕ → ℕ → Except Fault (List α)
  | _, 0 => pure []
  | start, n + 1 => do
      let first ← get l start
      let rest ← getMany l (start + 1) n
      pure (first :: rest)

variable {a b i start stop n : ℕ} {l : List α}

lemma add_of_lt (h : a + b < wordLimit) : add a b = .ok (a + b) := if_pos h

lemma mul_of_lt (h : a * b < wordLimit) : mul a b = .ok (a * b) := if_pos h

lemma sub_of_le (h : b ≤ a) : sub a b = .ok (a - b) := if_pos h

lemma sub_of_lt (h : a < b) : sub a b = .error .underflow := if_neg (Nat.not_le.mpr h)

lemma get_of_lt (h : i < l.length) (default : α) : get l i = .ok (l.getD i default) := by
  rw [get, List.getElem?_eq_getElem h, List.getD_eq_getElem _ _ h]

lemma slice_of_le (hstart : start ≤ stop) (hstop : stop ≤ l.length) :
    slice l start stop = .ok ((l.drop start).take (stop - start)) :=
  if_pos ⟨hstart, hstop⟩

lemma getMany_of_le (h : start + n ≤ l.length) : getMany l start n = .ok ((l.drop start).take n) := by
  induction n generalizing start with
  | zero => rfl
  | succ n ih =>
    have hlt : start < l.length := by omega
    have hrest : start + 1 + n ≤ l.length := by omega
    rw [getMany, ih hrest, get, List.getElem?_eq_getElem hlt, List.drop_eq_getElem_cons hlt,
      List.take_succ_cons]
    rfl

end Lists

end Guarded
