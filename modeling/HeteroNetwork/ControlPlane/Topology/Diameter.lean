import HeteroNetwork.ControlPlane.Topology.Paths

/-!
# The diameter bound

Each sweep starts at a node and finds the node farthest from it.  The first sweep bounds all distances from
its source, so no two nodes are more than twice as far apart, and later sweeps only raise the bound.
-/

namespace HeteroNetwork

open OrderedMap

open Search (Steps)

namespace Adjacency

variable {adjacency : Adjacency} {a b c : NodeId} {m n : ℕ}

/-- A walk of `n` links. -/
abbrev Walk (adjacency : Adjacency) (n : ℕ) (a b : NodeId) : Prop :=
  Steps (fun a b => b ∈ adjacency.neighbors a) n a b

/-- The length of a shortest walk. -/
def Distance (adjacency : Adjacency) (n : ℕ) (a b : NodeId) : Prop :=
  adjacency.Walk n a b ∧ ∀ m, adjacency.Walk m a b → n ≤ m

lemma exists_distance (h : ∃ n, adjacency.Walk n a b) : ∃ n, adjacency.Distance n a b := by
  classical
  exact ⟨_, Nat.find_spec h, fun _ hm => Nat.find_min' h hm⟩

abbrev Symmetric (adjacency : Adjacency) : Prop :=
  ∀ a b, b ∈ adjacency.neighbors a → a ∈ adjacency.neighbors b

lemma Walk.append (h : adjacency.Walk m a b) (h' : adjacency.Walk n b c) : adjacency.Walk (m + n) a c := by
  induction h' with
  | refl => exact h
  | tail _ hlink ih => exact (ih h).tail hlink

lemma Symmetric.reverse (hsymmetric : adjacency.Symmetric) (h : adjacency.Walk n a b) :
    adjacency.Walk n b a := by
  induction h with
  | refl => exact .refl _
  | tail _ hlink ih => exact ih.head (hsymmetric _ _ hlink)

lemma Symmetric.mem_of_walk (hsymmetric : adjacency.Symmetric) (ha : a ∈ adjacency)
    (h : adjacency.Walk n a b) : b ∈ adjacency := by
  cases h with
  | refl => exact ha
  | tail _ hlink => exact mem_of_mem_neighbors (hsymmetric _ _ hlink)

/-- A sweep finds as many nodes as there are exactly if it finds all of them. -/
lemma Symmetric.size_distancesFrom (hsymmetric : adjacency.Symmetric) (ha : a ∈ adjacency) :
    (distancesFrom a adjacency).size = adjacency.size ↔ ∀ b ∈ adjacency, ∃ n, adjacency.Walk n a b := by
  have hfound : ∀ b, b ∈ distancesFrom a adjacency ↔ ∃ n, adjacency.Walk n a b := by
    intro b
    simp only [mem_iff_exists, getElem?_distancesFrom]
    exact ⟨fun ⟨n, hn, _⟩ => ⟨n, hn⟩, exists_distance⟩
  have hsub : ∀ b ∈ distancesFrom a adjacency, b ∈ adjacency := by
    intro b hb
    obtain ⟨n, hwalk⟩ := (hfound b).mp hb
    exact hsymmetric.mem_of_walk ha hwalk
  constructor
  · intro hsize b hb
    exact (hfound b).mp (mem_of_size_le hsub hsize.ge b hb)
  · intro hall
    exact le_antisymm (size_le hsub) (size_le fun b hb => (hfound b).mpr (hall b hb))

end Adjacency

lemma le_of_maxByKey {α β : Type} [LinearOrder β] {key : α → β} {l : List α} {a : α}
    (h : maxByKey key l = some a) : ∀ b ∈ l, key b ≤ key a := by
  cases l with
  | nil => simp
  | cons first rest =>
    obtain rfl := Option.some.inj h
    clear h
    induction rest generalizing first with
    | nil => simp
    | cons c rest ih =>
      have hbest := ih (if key first ≤ key c then c else first)
      rw [List.forall_mem_cons] at hbest
      obtain ⟨hhead, htail⟩ := hbest
      rw [List.foldl_cons, List.forall_mem_cons, List.forall_mem_cons]
      split_ifs at hhead htail ⊢ with hle
      · exact ⟨hle.trans hhead, hhead, htail⟩
      · exact ⟨hhead, (not_le.mp hle).le.trans hhead, htail⟩

section Sweeps

variable {adjacency : Adjacency} (hsymmetric : adjacency.Symmetric)

include hsymmetric in
/-- In a connected graph the sweeps end with a distance that occurs and that no node is farther from the
first source than. -/
lemma diameterSweeps_eq (hconnected : ∀ a ∈ adjacency, ∀ b ∈ adjacency, ∃ n, adjacency.Walk n a b)
    (sweeps : ℕ) {source : NodeId} {lowerBound : ℕ} (hsource : source ∈ adjacency)
    (hbound : ∃ a ∈ adjacency, ∃ b ∈ adjacency, adjacency.Distance lowerBound a b) :
    ∃ bound, diameterSweeps adjacency sweeps source lowerBound = some bound ∧ lowerBound ≤ bound ∧
      (∃ a ∈ adjacency, ∃ b ∈ adjacency, adjacency.Distance bound a b) ∧
      (0 < sweeps → ∀ b ∈ adjacency, ∃ n ≤ bound, adjacency.Walk n source b) := by
  induction sweeps generalizing source lowerBound with
  | zero => exact ⟨lowerBound, rfl, le_rfl, hbound, fun hpos => absurd hpos (lt_irrefl 0)⟩
  | succ sweeps ih =>
    have hentry : ∀ b n, (b, n) ∈ (distancesFrom source adjacency).toList ↔ adjacency.Distance n source b := by
      intro b n
      rw [Std.TreeMap.mem_toList_iff_getElem?_eq_some, getElem?_distancesFrom, Adjacency.Distance]
    have hsize := (hsymmetric.size_distancesFrom hsource).mpr (hconnected source hsource)
    obtain ⟨n, hn⟩ := Adjacency.exists_distance (hconnected source hsource source hsource)
    obtain ⟨⟨farthest, distance⟩, hmax⟩ := exists_maxByKey (fun entry : NodeId × ℕ => toLex (entry.2, entry.1))
      (List.ne_nil_of_mem ((hentry source n).mpr hn))
    have hfar := (hentry farthest distance).mp (maxByKey_mem hmax)
    have hall : ∀ b ∈ adjacency, ∃ n ≤ distance, adjacency.Walk n source b := by
      intro b hb
      obtain ⟨n, hn⟩ := Adjacency.exists_distance (hconnected source hsource b hb)
      have hle := le_of_maxByKey hmax _ ((hentry b n).mpr hn)
      rw [Prod.Lex.toLex_le_toLex] at hle
      exact ⟨n, hle.elim le_of_lt fun heq => heq.1.le, hn.1⟩
    rw [diameterSweeps, if_neg (not_not.mpr hsize), hmax]
    dsimp only
    split_ifs with hsmall
    · refine ⟨lowerBound, rfl, le_rfl, hbound, fun _ b hb => ?_⟩
      obtain ⟨n, hle, hwalk⟩ := hall b hb
      exact ⟨n, hle.trans hsmall, hwalk⟩
    · obtain ⟨bound, heq, hle, hreached, -⟩ := ih (hsymmetric.mem_of_walk hsource hfar.1)
        ⟨source, hsource, farthest, hsymmetric.mem_of_walk hsource hfar.1, hfar⟩
      refine ⟨bound, heq, (not_le.mp hsmall).le.trans hle, hreached, fun _ b hb => ?_⟩
      obtain ⟨n, hn, hwalk⟩ := hall b hb
      exact ⟨n, hn.trans hle, hwalk⟩

end Sweeps

/-- **The diameter bound is sound and within a factor of two**, and there is none exactly for a graph that is
not connected. -/
theorem diameter_lower_bound_sound (adjacency : Adjacency) (hnonempty : ∃ a, a ∈ adjacency)
    (hsymmetric : ∀ a b, b ∈ adjacency.neighbors a → a ∈ adjacency.neighbors b) :
    (calculateDiameterLowerBound adjacency = none ↔
      ∃ a ∈ adjacency, ∃ b ∈ adjacency, ∀ n, ¬adjacency.Walk n a b) ∧
    ∀ bound, calculateDiameterLowerBound adjacency = some bound →
      (∃ a ∈ adjacency, ∃ b ∈ adjacency, adjacency.Distance bound a b) ∧
      ∀ a ∈ adjacency, ∀ b ∈ adjacency, ∃ n ≤ 2 * bound, adjacency.Walk n a b := by
  have hsymmetric : adjacency.Symmetric := hsymmetric
  obtain ⟨a₀, ha₀⟩ := hnonempty
  obtain ⟨source, hsource, hhead⟩ := exists_head ha₀
  have hself : adjacency.Distance 0 source source := ⟨.refl _, fun _ _ => Nat.zero_le _⟩
  rw [calculateDiameterLowerBound, hhead]
  dsimp only
  by_cases hreach : ∀ b ∈ adjacency, ∃ n, adjacency.Walk n source b
  · have hconnected : ∀ a ∈ adjacency, ∀ b ∈ adjacency, ∃ n, adjacency.Walk n a b := by
      intro a ha b hb
      obtain ⟨m, hm⟩ := hreach a ha
      obtain ⟨n, hn⟩ := hreach b hb
      exact ⟨m + n, (hsymmetric.reverse hm).append hn⟩
    obtain ⟨bound, heq, -, hreached, hfirst⟩ := diameterSweeps_eq hsymmetric hconnected 4 hsource
      ⟨source, hsource, source, hsource, hself⟩
    rw [heq]
    refine ⟨⟨(nomatch ·), ?_⟩, fun _ hsome => ?_⟩
    · rintro ⟨a, ha, b, hb, hno⟩
      obtain ⟨n, hn⟩ := hconnected a ha b hb
      exact absurd hn (hno n)
    · obtain rfl := Option.some.inj hsome
      refine ⟨hreached, fun a ha b hb => ?_⟩
      obtain ⟨m, hm, hwalk⟩ := hfirst (by decide) a ha
      obtain ⟨n, hn, hwalk'⟩ := hfirst (by decide) b hb
      exact ⟨m + n, by omega, (hsymmetric.reverse hwalk).append hwalk'⟩
  · rw [diameterSweeps, if_pos fun hsize => hreach ((hsymmetric.size_distancesFrom hsource).mp hsize)]
    push Not at hreach
    obtain ⟨b, hb, hno⟩ := hreach
    exact ⟨⟨fun _ => ⟨source, hsource, b, hb, hno⟩, fun _ => rfl⟩, fun _ hsome => nomatch hsome⟩

namespace SampleGraph

theorem diameter_lower_bound_sound_line : calculateDiameterLowerBound line = some 2 ∧
    ∃ a ∈ line, ∃ b ∈ line, line.Distance 2 a b := by
  have hbound : calculateDiameterLowerBound line = some 2 := by decide +kernel
  have hsound := diameter_lower_bound_sound line ⟨⟨"a"⟩, by decide +kernel⟩
    (symmetric_iff.mp (by decide +kernel : (inspectInvariants line 4).symmetric = true))
  exact ⟨hbound, (hsound.2 2 hbound).1⟩

end SampleGraph

end HeteroNetwork
