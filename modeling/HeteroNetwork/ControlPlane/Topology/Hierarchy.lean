import HeteroNetwork.Types
import HeteroNetwork.Lib.BigEndian
import HeteroNetwork.Lib.Checked

/-!
# The hash-prefix hierarchy of the relay backbone

`build_hierarchy` places the membership in a tree of groups.  A group of at most `block_size` nodes is a leaf;
a larger one is split by the first hash digit, from its own depth on, on which its members differ.
-/

namespace HeteroNetwork

open Std (TreeMap)

open Checked

/-! ## Configuration and errors -/

def topologyAlgorithmVersion : String := "recursive-hash-prefix-block-ring-v3"

def minHierarchicalBlockSize : ℕ := 4

def maxHashPrefixProbes : ℕ := 256

def supportedMaxDegrees : List ℕ := [4, 6]

def minOverlayBlockSize : ℕ := 4

def maxOverlayBlockSize : ℕ := 64

def usizeMax : ℕ := 2 ^ 64 - 1

structure BoundedTopologyConfig where
  maxDegree : ℕ
  blockSize : ℕ
  permutationSeed : String
deriving DecidableEq

/-- The two checks `synthesize` makes on its configuration before anything else. -/
structure BoundedTopologyConfig.Accepted (config : BoundedTopologyConfig) : Prop where
  maxDegree : config.maxDegree ∈ supportedMaxDegrees
  minimum : max minOverlayBlockSize minHierarchicalBlockSize ≤ config.blockSize
  maximum : config.blockSize ≤ maxOverlayBlockSize

inductive BoundedTopologyError where
  | unsupportedMaxDegree (maxDegree : ℕ)
  | invalidBlockSize (blockSize minimum maximum : ℕ)
  | duplicateNodeId (nodeId : NodeId)
  | invariantViolation (reason : String)
  | representativeCapacity (groupId : String)
deriving DecidableEq

/-- A synthesis that does not finish: an error the caller receives, or a lookup such as
`index_by_id[&id]` that finds nothing. -/
inductive SynthesisFailure where
  | returned (error : BoundedTopologyError)
  | panicked
deriving DecidableEq

abbrev Synthesis (α : Type) := Except SynthesisFailure α

def reject {α : Type} (error : BoundedTopologyError) : Synthesis α := .error (.returned error)

/-- A lookup whose absence panics. -/
def expect {α : Type} : Option α → Synthesis α
  | some a => .ok a
  | none => .error .panicked

/-! ## Hash functions -/

structure TopologyHashes where
  hashPrefixDigit : NodeId → ℕ → ℕ
  hierarchyGroupHash : List (ℕ × ℕ) → UInt64
  representativeScore : String → ℕ → NodeId → UInt64
  topologyEpoch : List NodeId → UInt64

def appendHashField (material field : List UInt8) : List UInt8 :=
  material ++ BigEndian.toBytes 8 field.length ++ field

def appendHashFields (fields : List (List UInt8)) : List UInt8 :=
  fields.foldl appendHashField []

def TopologyHashes.ofDigest (cryptographicHashU64 : List UInt8 → UInt64)
    (config : BoundedTopologyConfig) : TopologyHashes where
  hashPrefixDigit nodeId hashDepth :=
    (cryptographicHashU64 (appendHashFields
      [utf8 "ipars-hierarchy-prefix", utf8 topologyAlgorithmVersion, utf8 config.permutationSeed,
        utf8 (toString hashDepth), nodeId.asBytes])).toNat % config.blockSize
  hierarchyGroupHash digits :=
    cryptographicHashU64 (appendHashFields
      ([utf8 "ipars-hierarchy-group", utf8 topologyAlgorithmVersion, utf8 config.permutationSeed] ++
        digits.flatMap fun (depth, digit) => [utf8 (toString depth), utf8 (toString digit)]))
  representativeScore groupId plane nodeId :=
    cryptographicHashU64 (appendHashFields
      [utf8 "ipars-hierarchy-representative", utf8 topologyAlgorithmVersion,
        utf8 config.permutationSeed, utf8 groupId, utf8 (toString plane), nodeId.asBytes])
  topologyEpoch nodeIds :=
    cryptographicHashU64 (appendHashFields
      ([utf8 topologyAlgorithmVersion, utf8 (toString config.maxDegree),
        utf8 (toString config.blockSize), utf8 config.permutationSeed,
        utf8 (toString nodeIds.length)] ++ nodeIds.map NodeId.asBytes))

def rootGroupId : String := "group-root"

def hexDigit (n : ℕ) : Char := "0123456789abcdef".toList.getD (n % 16) '0'

def hex16 (n : UInt64) : String :=
  String.ofList ((List.range 16).map fun i => hexDigit (n.toNat / 16 ^ (15 - i)))

def hierarchyGroupId (hashes : TopologyHashes) (digits : List (ℕ × ℕ)) : String :=
  "group-" ++ hex16 (hashes.hierarchyGroupHash digits)

variable (hashes : TopologyHashes)

lemma hierarchyGroupId_ne_root (digits : List (ℕ × ℕ)) :
    hierarchyGroupId hashes digits ≠ rootGroupId := by
  intro h
  have hlength := congrArg (fun id => id.toList.length) h
  simp [hierarchyGroupId, hex16, rootGroupId] at hlength

structure TopologyRepresentative where
  nodeId : NodeId
  plane : ℕ
deriving DecidableEq

structure HierarchyGroup where
  blockId : String
  nodeIds : List NodeId
  parentBlockId : Option String
  childBlockIds : List String
  depth : ℕ
  representatives : List TopologyRepresentative
deriving DecidableEq

def pushBucket (buckets : TreeMap ℕ (List NodeId)) (digit : ℕ) (nodeId : NodeId) :
    TreeMap ℕ (List NodeId) :=
  buckets.insert digit (buckets.getD digit [] ++ [nodeId])

def bucketsAt (hashes : TopologyHashes) (nodeIds : List NodeId) (probe : ℕ) :
    TreeMap ℕ (List NodeId) :=
  nodeIds.foldl
    (fun buckets nodeId => pushBucket buckets (hashes.hashPrefixDigit nodeId probe) nodeId) ∅

/-- The first probe that yields more than one bucket, with the buckets in the order of their
digits. -/
def findSplit (hashes : TopologyHashes) (nodeIds : List NodeId) (hashDepth : ℕ) :
    Option (ℕ × List (ℕ × List NodeId)) :=
  (List.range' hashDepth (min (hashDepth + maxHashPrefixProbes) usizeMax - hashDepth)).findSome?
    fun probe =>
      let buckets := bucketsAt hashes nodeIds probe
      if 1 < buckets.size then some (probe, buckets.toList) else none

/-! ### What a split yields -/

lemma bucketsAt_concat (nodeIds : List NodeId) (nodeId : NodeId) (probe : ℕ) :
    bucketsAt hashes (nodeIds ++ [nodeId]) probe =
      pushBucket (bucketsAt hashes nodeIds probe) (hashes.hashPrefixDigit nodeId probe) nodeId := by
  simp [bucketsAt]

lemma bucketsAt_getElem? (nodeIds : List NodeId) (probe digit : ℕ) :
    (bucketsAt hashes nodeIds probe)[digit]? =
      match nodeIds.filter (fun n => hashes.hashPrefixDigit n probe = digit) with
      | [] => none
      | members => some members := by
  induction nodeIds using List.reverseRecOn with
  | nil => simp [bucketsAt]
  | append_singleton nodeIds nodeId ih =>
    rw [bucketsAt_concat, pushBucket, TreeMap.getElem?_insert, List.filter_append]
    by_cases hdigit : hashes.hashPrefixDigit nodeId probe = digit
    · subst hdigit
      rw [if_pos (by simp), TreeMap.getD_eq_getD_getElem?, ih]
      cases nodeIds.filter fun n =>
          hashes.hashPrefixDigit n probe = hashes.hashPrefixDigit nodeId probe with
      | nil => simp
      | cons n rest => simp
    · rw [if_neg (by simpa using hdigit), ih]
      simp [hdigit]

structure IsSplit (hashes : TopologyHashes) (nodeIds : List NodeId) (splitDepth : ℕ)
    (buckets : List (ℕ × List NodeId)) : Prop where
  two_le : 2 ≤ buckets.length
  ordered : buckets.Pairwise fun a b => a.1 < b.1
  mem_iff : ∀ digit members, (digit, members) ∈ buckets ↔
    members = nodeIds.filter (fun n => hashes.hashPrefixDigit n splitDepth = digit) ∧ members ≠ []

lemma isSplit_of_findSplit {hashes : TopologyHashes} {nodeIds : List NodeId}
    {hashDepth splitDepth : ℕ} {buckets : List (ℕ × List NodeId)}
    (h : findSplit hashes nodeIds hashDepth = some (splitDepth, buckets)) :
    IsSplit hashes nodeIds splitDepth buckets ∧ hashDepth ≤ splitDepth := by
  obtain ⟨probe, hprobe, hfound⟩ := List.exists_of_findSome?_eq_some h
  obtain ⟨hsize, heq⟩ := Option.ite_none_right_eq_some.mp hfound
  obtain ⟨rfl, rfl⟩ := Prod.mk.inj (Option.some.inj heq)
  refine ⟨⟨?_, ?_, ?_⟩, (List.mem_range'_1.mp hprobe).1⟩
  · rw [TreeMap.length_toList]
    exact hsize
  · exact TreeMap.ordered_keys_toList.imp fun hlt => Nat.compare_eq_lt.mp hlt
  · intro digit members
    rw [TreeMap.mem_toList_iff_getElem?_eq_some, bucketsAt_getElem?]
    cases hfilter : nodeIds.filter fun n => hashes.hashPrefixDigit n probe = digit with
    | nil => simp
    | cons n rest =>
      constructor
      · intro hsome
        obtain rfl := Option.some.inj hsome
        exact ⟨rfl, List.cons_ne_nil _ _⟩
      · rintro ⟨rfl, _⟩
        rfl

namespace IsSplit

variable {hashes : TopologyHashes} {nodeIds members : List NodeId} {splitDepth digit : ℕ}
  {buckets : List (ℕ × List NodeId)}

section

variable (h : IsSplit hashes nodeIds splitDepth buckets) (hmem : (digit, members) ∈ buckets)
include h hmem

lemma members_eq : members = nodeIds.filter fun n => hashes.hashPrefixDigit n splitDepth = digit :=
  ((h.mem_iff digit members).mp hmem).1

lemma members_ne_nil : members ≠ [] :=
  ((h.mem_iff digit members).mp hmem).2

lemma members_length_lt : members.length < nodeIds.length := by
  obtain ⟨other, hother, hne⟩ : ∃ other ∈ buckets, other.1 ≠ digit := by
    by_contra hall
    push Not at hall
    match buckets, h.two_le, h.ordered, hall with
    | a :: b :: _, _, hordered, hall =>
      have hlt := (List.pairwise_cons.mp hordered).1 b (by simp)
      rw [hall a (by simp), hall b (by simp)] at hlt
      exact lt_irrefl _ hlt
  obtain ⟨otherDigit, otherMembers⟩ := other
  obtain ⟨n, hn⟩ := List.exists_mem_of_ne_nil _ (h.members_ne_nil hother)
  rw [h.members_eq hother, List.mem_filter] at hn
  rw [h.members_eq hmem]
  refine List.length_filter_lt_length_iff_exists.mpr ⟨n, hn.1, ?_⟩
  simp only [decide_eq_true_eq] at hn ⊢
  rw [hn.2]
  exact hne

end

end IsSplit

/-- `build_hierarchy_group`: the group itself, then the subtrees of its children in the order of
their digits. -/
def buildHierarchyGroup (hashes : TopologyHashes) (config : BoundedTopologyConfig)
    (nodeIds : List NodeId) (parentBlockId : Option String) (blockId : String)
    (depth hashDepth : ℕ) (digits : List (ℕ × ℕ)) : Synthesis (List HierarchyGroup) :=
  let sorted := nodeIds.insertionSort (· ≤ ·)
  if sorted.length ≤ config.blockSize then
    .ok [{ blockId, nodeIds := sorted, parentBlockId, childBlockIds := [], depth,
           representatives := [] }]
  else
    match _hsplit : findSplit hashes sorted hashDepth with
    | none =>
      reject (.invariantViolation "hash-prefix hierarchy could not split an oversized leaf")
    | some (splitDepth, buckets) => do
        let subtrees ← buckets.attach.mapM fun ⟨(digit, members), _⟩ =>
          buildHierarchyGroup hashes config members (some blockId)
            (hierarchyGroupId hashes (digits ++ [(splitDepth, digit)])) (depth + 1)
            (splitDepth + 1) (digits ++ [(splitDepth, digit)])
        let childBlockIds := buckets.map fun (digit, _) =>
          hierarchyGroupId hashes (digits ++ [(splitDepth, digit)])
        .ok ({ blockId, nodeIds := sorted, parentBlockId, childBlockIds, depth,
               representatives := [] } :: subtrees.flatten)
termination_by nodeIds.length
decreasing_by
  have hlt := (isSplit_of_findSplit _hsplit).1.members_length_lt ‹_›
  rwa [List.length_insertionSort] at hlt

lemma buildHierarchyGroup_failsWith (config : BoundedTopologyConfig) (nodeIds : List NodeId)
    (parentBlockId : Option String) (blockId : String) (depth hashDepth : ℕ) (digits : List (ℕ × ℕ)) :
    FailsWith (· = SynthesisFailure.returned
        (.invariantViolation "hash-prefix hierarchy could not split an oversized leaf"))
      (buildHierarchyGroup hashes config nodeIds parentBlockId blockId depth hashDepth digits) := by
  induction hlength : nodeIds.length using Nat.strong_induction_on
    generalizing nodeIds parentBlockId blockId depth hashDepth digits with
  | _ length ih =>
    subst hlength
    rw [buildHierarchyGroup]
    split_ifs with hleaf
    · exact failsWith_pure _
    · split
      · intro e he
        exact (Except.error.inj he).symm
      · rename_i splitDepth buckets hsplit
        refine FailsWith.bind (failsWith_mapM fun bucket _ => ?_)
          (fun subtrees _ => failsWith_pure _)
        have hless := (isSplit_of_findSplit hsplit).1.members_length_lt bucket.2
        rw [List.length_insertionSort] at hless
        exact ih _ hless _ _ _ _ _ _ rfl

def depthThenId (left right : HierarchyGroup) : Prop :=
  left.depth < right.depth ∨ left.depth = right.depth ∧ left.blockId ≤ right.blockId

instance : DecidableRel depthThenId := fun left right => by
  unfold depthThenId
  infer_instance

def buildHierarchy (hashes : TopologyHashes) (config : BoundedTopologyConfig)
    (nodeIds : List NodeId) : Synthesis (List HierarchyGroup) :=
  if nodeIds = [] then .ok []
  else do
    let groups ← buildHierarchyGroup hashes config nodeIds none rootGroupId 0 0 []
    .ok (groups.insertionSort depthThenId)

end HeteroNetwork
