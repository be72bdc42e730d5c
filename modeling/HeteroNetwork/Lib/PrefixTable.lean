import HeteroNetwork.Lib.Cidr
import HeteroNetwork.Lib.FirstMin

/-!
# Longest-prefix lookup

A table has one map for every prefix length, from the first address of a net to the values under it.  A
lookup masks the address to each length in turn, the longest first, and finds the first value with the longest
prefix and, among those, the smallest rank (`findSome?_lookup`).
-/

namespace Cidr

open List

abbrev PrefixTable (α : Type*) := List (Std.TreeMap ℕ (List α))

namespace PrefixTable

variable {α κ : Type*} {w : ℕ}

def empty (w : ℕ) : PrefixTable α := List.replicate (w + 1) ∅

def push (table : PrefixTable α) (net : Net w) (a : α) : PrefixTable α :=
  table.modify net.prefixLen fun m =>
    m.insert net.network.toNat (m.getD net.network.toNat [] ++ [a])

def sortBy (table : PrefixTable α) (r : α → α → Prop) [DecidableRel r] : PrefixTable α :=
  table.map fun m => m.map fun _ values => values.insertionSort r

def get? (table : PrefixTable α) (len : ℕ) (key : BitVec w) : Option (List α) :=
  table[len]?.bind fun m => m[key.toNat]?

def bucket (table : PrefixTable α) (len : ℕ) (key : BitVec w) : List α :=
  (table.get? len key).getD []

variable {table : PrefixTable α} {net : Net w} {a : α} {len : ℕ} {key : BitVec w}

@[simp] lemma length_push : (table.push net a).length = table.length := by
  rw [push, length_modify]

lemma bucket_empty : (empty w : PrefixTable α).bucket len key = [] := by
  rw [bucket, get?, empty, getElem?_replicate]
  split_ifs
  · simp
  · rfl

lemma bucket_push (hlength : table.length = w + 1) :
    (table.push net a).bucket len key =
      table.bucket len key ++ if net.prefixLen = len ∧ net.network = key then [a] else [] := by
  rw [bucket, get?, push, getElem?_modify, bucket, get?]
  by_cases hlen : (net.prefixLen : ℕ) = len
  · obtain ⟨m, hm⟩ : ∃ m, table[len]? = some m :=
      ⟨_, getElem?_eq_getElem (by rw [hlength, ← hlen]; exact net.prefixLen.isLt)⟩
    simp only [hm, hlen, if_true, Option.map_eq_map, Option.map_some, Option.bind_some, true_and]
    rw [Std.TreeMap.getElem?_insert, Std.TreeMap.getD_eq_getD_getElem?]
    by_cases hkey : net.network = key
    · simp [hkey]
    · have hne : compare net.network.toNat key.toNat ≠ .eq := by
        rw [Ne, compare_eq_iff_eq, BitVec.toNat_inj]
        exact hkey
      simp [hkey, hne]
  · simp only [hlen, if_false, Option.map_eq_map, false_and, append_nil]
    cases table[len]? <;> rfl

lemma bucket_sortBy {r : α → α → Prop} [DecidableRel r] :
    (table.sortBy r).bucket len key = (table.bucket len key).insertionSort r := by
  rw [bucket, get?, sortBy, getElem?_map, bucket, get?]
  cases table[len]? with
  | none => rfl
  | some m =>
    simp only [Option.map_some, Option.bind_some, Std.TreeMap.getElem?_map]
    cases m[key.toNat]? with
    | none | some => rfl

/-! ## A table of a list -/

def ofList (net : α → Option (Net w)) (l : List α) : PrefixTable α :=
  l.foldl (fun table a => match net a with
    | some n => table.push n a
    | none => table) (empty w)

variable {net : α → Option (Net w)} {l : List α}

lemma ofList_append_singleton :
    ofList net (l ++ [a]) = match net a with
      | some n => (ofList net l).push n a
      | none => ofList net l := by
  rw [ofList, foldl_append, foldl_cons, foldl_nil]
  rfl

lemma length_ofList : (ofList net l).length = w + 1 := by
  induction l using List.reverseRecOn with
  | nil => exact length_replicate
  | append_singleton l a ih =>
    rw [ofList_append_singleton]
    cases net a with
    | none => exact ih
    | some n => rw [length_push, ih]

lemma bucket_ofList :
    (ofList net l).bucket len key =
      l.filter fun a => (net a).any fun n => n.prefixLen = len && n.network = key := by
  induction l using List.reverseRecOn with
  | nil => exact bucket_empty
  | append_singleton l a ih =>
    rw [ofList_append_singleton, filter_append, ← ih, filter_singleton, cond_eq_ite]
    cases net a with
    | none => simp
    | some n =>
      simp only [Option.any_some, Bool.and_eq_true, decide_eq_true_eq]
      exact bucket_push length_ofList

def level (net : α → Option (Net w)) (a : α) : ℕ := ((net a).map fun n => (n.prefixLen : ℕ)).getD 0

theorem findSome?_lookup [LinearOrder κ] {rank : α → κ} {good : α → Bool} {addr : BitVec w} :
    (List.range (w + 1)).reverse.findSome? (fun len =>
      (((ofList net l).sortBy fun a b => rank a ≤ rank b).bucket len (addr &&& mask w len)).find? good) =
    (l.filter fun a => (net a).any (·.contains addr) && good a).argmin
      fun a => toLex (OrderDual.toDual (level net a), rank a) := by
  rw [← FirstMin.findSome?_levels]
  · refine FirstMin.findSome?_congr fun len hlen => ?_
    rw [bucket_sortBy, bucket_ofList, FirstMin.find?_insertionSort, filter_filter,
      filter_filter]
    refine congrArg (List.argmin rank) (filter_congr fun a _ => ?_)
    -- the masked address is the key of exactly the nets of this length that contain it
    cases hnet : net a with
    | none => simp
    | some n =>
      have hcontains : ∀ hlen : (n.prefixLen : ℕ) = len,
          decide (n.network = addr &&& mask w len) = n.contains addr := by
        rintro rfl
        rw [Bool.eq_iff_iff, decide_eq_true_eq, Net.contains_iff_network, eq_comm]
      by_cases hlen : (n.prefixLen : ℕ) = len
      · simp [level, hnet, hlen, hcontains hlen, Bool.and_comm]
      · simp [level, hnet, hlen]
  · rw [pairwise_reverse]
    exact pairwise_lt_range
  · intro a _
    rw [mem_reverse, mem_range, level]
    cases net a with
    | none => exact Nat.succ_pos w
    | some n => exact n.prefixLen.isLt

theorem findSome?_get? {β : Type*} [LinearOrder κ] {rank : α → κ} {answer : α → Option β}
    {addr : BitVec w} :
    (List.range (w + 1)).reverse.findSome? (fun len =>
      (((ofList net l).sortBy fun a b => rank a ≤ rank b).get? len (addr &&& mask w len)).bind
        fun values => values.findSome? answer) =
    ((l.filter fun a => (net a).any (·.contains addr) && (answer a).isSome).argmin
      fun a => toLex (OrderDual.toDual (level net a), rank a)).bind answer := by
  rw [← findSome?_lookup, ← FirstMin.findSome?_bind]
  · refine FirstMin.findSome?_congr fun len _ => ?_
    rw [← FirstMin.findSome?_eq_find?_bind, bucket]
    cases get? _ len (addr &&& mask w len) with
    | none | some => rfl
  · intro len a h
    exact find?_some (p := fun a => (answer a).isSome) h

end PrefixTable

end Cidr
