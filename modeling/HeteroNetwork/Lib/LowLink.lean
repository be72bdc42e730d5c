import HeteroNetwork.Lib.Search

/-!
# Articulation points by low links

The depth-first search that numbers the vertices of a graph, carries the smallest number each subtree has an
edge to, and stops at the first articulation point.  The part below a vertex is described by its branches.
-/

namespace LowLink

open Std (TreeMap)

open Search OrderedMap
open List hiding Disjoint

/-! ## Walks inside a set of vertices -/

section Walks

variable {α : Type*} (G : SimpleGraph α)

/-- Joined by a walk that stays in `s`. -/
def ReachIn (s : Set α) : α → α → Prop :=
  Relation.ReflTransGen (fun a b => a ∈ s ∧ b ∈ s ∧ G.Adj a b)

variable {G} {s t : Set α} {a b c : α}

lemma ReachIn.mono (h : ReachIn G s a b) (hst : s ⊆ t) : ReachIn G t a b :=
  h.lift id (fun _ _ ⟨ha, hb, hadj⟩ => ⟨hst ha, hst hb, hadj⟩)

lemma ReachIn.symm (h : ReachIn G s a b) : ReachIn G s b a := by
  induction h with
  | refl => exact .refl
  | tail _ hbc ih => exact Relation.ReflTransGen.head ⟨hbc.2.1, hbc.1, hbc.2.2.symm⟩ ih

lemma ReachIn.trans (hab : ReachIn G s a b) (hbc : ReachIn G s b c) : ReachIn G s a c :=
  Relation.ReflTransGen.trans hab hbc

lemma reachIn_of_adj (ha : a ∈ s) (hb : b ∈ s) (h : G.Adj a b) : ReachIn G s a b :=
  Relation.ReflTransGen.single ⟨ha, hb, h⟩

lemma ReachIn.mem (h : ReachIn G s a b) (ha : a ∈ s) : b ∈ s := by
  cases h with
  | refl => exact ha
  | tail _ hbc => exact hbc.2.1

lemma ReachIn.mem_of_closed (h : ReachIn G s a b) (ha : a ∈ t)
    (hclosed : ∀ x ∈ t, ∀ y ∈ s, G.Adj x y → y ∈ t) : b ∈ t := by
  induction h with
  | refl => exact ha
  | tail _ hbc ih => exact hclosed _ ih _ hbc.2.1 hbc.2.2

lemma preconnected_induce_iff : (G.induce s).Preconnected ↔ ∀ a ∈ s, ∀ b ∈ s, ReachIn G s a b := by
  constructor
  · intro h a ha b hb
    have hreach := (SimpleGraph.reachable_iff_reflTransGen _ _).mp (h ⟨a, ha⟩ ⟨b, hb⟩)
    exact hreach.lift Subtype.val (fun x y hxy => ⟨x.2, y.2, hxy⟩)
  · rintro h ⟨a, ha⟩ ⟨b, hb⟩
    have hreach := h a ha b hb
    clear h
    induction hreach with
    | refl => exact SimpleGraph.Reachable.refl _
    | tail _ hxy ih =>
      refine (ih hxy.1).trans (SimpleGraph.Adj.reachable ?_)
      exact hxy.2.2

/-- Some vertex separates two others. -/
def Cut (G : SimpleGraph α) (s : Set α) : Prop :=
  ∃ z, ∃ x ∈ s, ∃ y ∈ s, x ≠ z ∧ y ≠ z ∧ ¬ReachIn G {z}ᶜ x y

lemma not_cut (h : ∀ z, (G.induce (s \ {z})).Preconnected) : ¬Cut G s := by
  rintro ⟨z, x, hx, y, hy, hxz, hyz, hnot⟩
  refine hnot ((preconnected_induce_iff.mp (h z) x ⟨hx, hxz⟩ y ⟨hy, hyz⟩).mono ?_)
  exact fun w hw => hw.2

lemma cut_of_exit {z x y : α} (hx : x ∈ s) (hy : y ∈ s) (hxt : x ∈ t) (hyt : y ∉ t) (hyz : y ≠ z)
    (hzt : z ∉ t) (hexit : ∀ a ∈ t, ∀ b, G.Adj a b → b ∈ t ∨ b = z) : Cut G s := by
  refine ⟨z, x, hx, y, hy, fun h => hzt (h ▸ hxt), hyz, fun hreach => hyt ?_⟩
  refine hreach.mem_of_closed hxt (fun a ha b hb hab => ?_)
  exact (hexit a ha b hab).resolve_right hb

end Walks

/-! ## Branches below a vertex -/

section Branches

variable {α : Type*} (G : SimpleGraph α)

/-- What the search knows about the vertices `B` it found through one neighbour of `v`, when `D` was
known before `v`. -/
structure Branch (v : α) (D B : Set α) : Prop where
  avoids : v ∉ B
  connected : ∃ c ∈ B, G.Adj v c ∧ ∀ x ∈ B, ReachIn G B x c
  closed : ∀ x ∈ B, ∀ y, G.Adj x y → y ∈ B ∨ y = v ∨ y ∈ D
  robust : ∀ z ∈ B, ∀ x ∈ B, x ≠ z →
    ∃ y, ReachIn G (B \ {z}) x y ∧ ∃ w, (w = v ∨ w ∈ D) ∧ G.Adj y w

def subtree (v : α) (branches : List (Set α)) : Set α := {x | x = v ∨ ∃ B ∈ branches, x ∈ B}

variable {G} {v p : α} {D : Set α} {branches : List (Set α)}

variable {x : α}

lemma mem_subtree : x ∈ subtree v branches ↔ x = v ∨ ∃ B ∈ branches, x ∈ B := Iff.rfl

lemma self_mem_subtree : v ∈ subtree v branches := Or.inl rfl

variable {B : Set α}

lemma subset_subtree (hB : B ∈ branches) : B ⊆ subtree v branches :=
  fun _ hx => Or.inr ⟨B, hB, hx⟩

lemma Branch.reach_top (h : Branch G v D B) (hx : x ∈ B) : ∃ c ∈ B, G.Adj c v ∧ ReachIn G B x c := by
  obtain ⟨c, hc, hadj, hreach⟩ := h.connected
  exact ⟨c, hc, hadj.symm, hreach x hx⟩

lemma Branch.reach_root {s : Set α} (h : Branch G v D B) (hs : B ⊆ s) (hv : v ∈ s) (hx : x ∈ B) :
    ReachIn G s x v := by
  obtain ⟨c, hc, hadj, hreach⟩ := h.reach_top hx
  exact (hreach.mono hs).trans (reachIn_of_adj (hs hc) hv hadj)

lemma subtree_connected (hbranch : ∀ B ∈ branches, Branch G v D B) :
    ∀ x ∈ subtree v branches, ReachIn G (subtree v branches) x v := by
  rintro x (rfl | ⟨B, hB, hx⟩)
  · exact .refl
  · exact (hbranch B hB).reach_root (subset_subtree hB) self_mem_subtree hx

lemma notMem_of_disjoint {B' : Set α} (hdisjoint : branches.Pairwise Disjoint) (hB : B ∈ branches)
    (hB' : B' ∈ branches) (hne : B ≠ B') {z : α} (hz : z ∈ B) : z ∉ B' := by
  have : Std.Symm (Disjoint : Set α → Set α → Prop) := ⟨fun _ _ h => h.symm⟩
  exact Set.disjoint_left.mp (hdisjoint.forall hB hB' hne) hz

section

variable (hbranch : ∀ B ∈ branches, Branch G v D B) (hdisjoint : branches.Pairwise Disjoint)
include hbranch hdisjoint

lemma subtree_reach_of_mem_branch {z : α} (hB : B ∈ branches) (hz : z ∈ B)
    (hx : x ∈ subtree v branches) (hxz : x ≠ z) :
    ReachIn G (subtree v branches \ {z}) x v ∨
      ∃ y, ReachIn G (subtree v branches \ {z}) x y ∧ ∃ w ∈ D, G.Adj y w := by
  have hvz : v ≠ z := fun h => (hbranch B hB).avoids (h ▸ hz)
  have hv : v ∈ subtree v branches \ {z} := ⟨self_mem_subtree, hvz⟩
  rcases hx with rfl | ⟨B', hB', hx⟩
  · exact Or.inl .refl
  by_cases hsame : B = B'
  · subst hsame
    have hsub : B \ {z} ⊆ subtree v branches \ {z} := fun y hy => ⟨subset_subtree hB hy.1, hy.2⟩
    obtain ⟨y, hreach, w, hw, hadj⟩ := (hbranch B hB).robust z hz x hx hxz
    rcases hw with rfl | hw
    · have hy := hsub (hreach.mem ⟨hx, hxz⟩)
      exact Or.inl ((hreach.mono hsub).trans (reachIn_of_adj hy hv hadj))
    · exact Or.inr ⟨y, hreach.mono hsub, w, hw, hadj⟩
  · have hsub : B' ⊆ subtree v branches \ {z} := by
      intro y hy
      refine ⟨subset_subtree hB' hy, ?_⟩
      rintro rfl
      exact notMem_of_disjoint hdisjoint hB hB' hsame hz hy
    exact Or.inl ((hbranch B' hB').reach_root hsub hv hx)

lemma subtree_robust
    (hescape : ∀ B ∈ branches, ∃ x ∈ B, ∃ w ∈ D, G.Adj x w) (hp : p ∈ D) (hvp : G.Adj v p) :
    ∀ z ∈ subtree v branches, ∀ x ∈ subtree v branches, x ≠ z →
      ∃ y, ReachIn G (subtree v branches \ {z}) x y ∧ ∃ w ∈ D, G.Adj y w := by
  rintro z (rfl | ⟨B, hB, hz⟩) x hx hxz
  · -- without `v` every branch has its own way out
    obtain rfl | ⟨B, hB, hxB⟩ := hx
    · exact absurd rfl hxz
    obtain ⟨y, hy, w, hw, hadj⟩ := hescape B hB
    obtain ⟨c, -, -, hreach⟩ := (hbranch B hB).connected
    have hsub : B ⊆ subtree z branches \ {z} := by
      intro b hb
      refine ⟨subset_subtree hB hb, ?_⟩
      rintro rfl
      exact (hbranch B hB).avoids hb
    exact ⟨y, ((hreach x hxB).trans (hreach y hy).symm).mono hsub, w, hw, hadj⟩
  · rcases subtree_reach_of_mem_branch hbranch hdisjoint hB hz hx hxz with hreach | hout
    · exact ⟨v, hreach, p, hp, hvp⟩
    · exact hout

end

lemma subtree_robust_root (hbranch : ∀ B ∈ branches, Branch G v ∅ B)
    (hdisjoint : branches.Pairwise Disjoint) (hlength : branches.length ≤ 1) (z : α) :
    ∀ x ∈ subtree v branches \ {z}, ∀ y ∈ subtree v branches \ {z},
      ReachIn G (subtree v branches \ {z}) x y := by
  by_cases hz : ∃ B ∈ branches, z ∈ B
  · obtain ⟨B, hB, hz⟩ := hz
    have hreach : ∀ x ∈ subtree v branches \ {z}, ReachIn G (subtree v branches \ {z}) x v := by
      rintro x ⟨hx, hxz⟩
      rcases subtree_reach_of_mem_branch hbranch hdisjoint hB hz hx hxz with h | ⟨_, _, w, hw, _⟩
      · exact h
      · exact absurd hw (Set.notMem_empty w)
    exact fun x hx y hy => (hreach x hx).trans (hreach y hy).symm
  by_cases hzv : z = v
  · subst hzv
    -- what is left is the only branch
    rintro x ⟨hx, hxz⟩ y ⟨hy, hyz⟩
    obtain ⟨B, hB, hxB⟩ := hx.resolve_left hxz
    obtain ⟨B', hB', hyB⟩ := hy.resolve_left hyz
    obtain rfl : B = B' := by
      match branches, hlength, hB, hB' with
      | [b], _, hB, hB' => rw [mem_singleton.mp hB, mem_singleton.mp hB']
    obtain ⟨c, -, -, hreach⟩ := (hbranch B hB).connected
    have hsub : B ⊆ subtree z branches \ {z} := by
      intro b hb
      refine ⟨subset_subtree hB hb, ?_⟩
      rintro rfl
      exact (hbranch B hB).avoids hb
    exact ((hreach x hxB).trans (hreach y hyB).symm).mono hsub
  · have hall : subtree v branches \ {z} = subtree v branches := by
      refine Set.sdiff_singleton_eq_self (fun hmem => ?_)
      exact hmem.elim hzv hz
    rw [hall]
    exact fun x hx y hy => (subtree_connected hbranch x hx).trans (subtree_connected hbranch y hy).symm

end Branches

/-! ## The search -/

section Search

variable {α : Type*} [Ord α] [DecidableEq α]

structure Marks (α : Type*) [Ord α] where
  discovery : TreeMap α ℕ
  low : TreeMap α ℕ
  time : ℕ

def Marks.empty : Marks α := ⟨∅, ∅, 0⟩

def Marks.enter (m : Marks α) (node : α) : Marks α where
  discovery := m.discovery.insert node m.time
  low := m.low.insert node m.time
  time := m.time + 1

def Marks.lower (m : Marks α) (node : α) (bound : ℕ) : Marks α :=
  { m with low := m.low.modify node (fun nodeLow => min nodeLow bound) }

/-- The loop over the neighbours of one vertex; `true` stops the whole search. -/
def scan (visit : α → Marks α → Bool × Marks α) (node : α) (parent : Option α) (discoveredAt : ℕ) :
    List α → ℕ → Marks α → Bool × Marks α
  | [], childCount, m => (parent.isNone && decide (1 < childCount), m)
  | neighbor :: rest, childCount, m =>
    if parent = some neighbor then scan visit node parent discoveredAt rest childCount m
    else match m.discovery[neighbor]? with
      | some neighborDiscovery =>
        scan visit node parent discoveredAt rest childCount (m.lower node neighborDiscovery)
      | none =>
        match visit neighbor m with
        | (true, m) => (true, m)
        | (false, m) =>
          let neighborLow := m.low[neighbor]?.getD discoveredAt
          if parent.isSome && decide (discoveredAt ≤ neighborLow) then (true, m)
          else scan visit node parent discoveredAt rest (childCount + 1)
            (m.lower node neighborLow)

/-- The search below `node`.  The recursion is at most as deep as there are vertices, and `fuel`
counts them. -/
def search (neighbors : α → List α) : ℕ → α → Option α → Marks α → Bool × Marks α
  | 0, _, _, m => (false, m)
  | fuel + 1, node, parent, m =>
    scan (fun neighbor m => search neighbors fuel neighbor (some node) m) node parent m.time
      (neighbors node) 0 (m.enter node)

end Search

/-! ## What the marks record -/

section Invariant

variable {α : Type*} [Ord α]

def Marks.Timed (m : Marks α) : Prop := ∀ (x : α) (d : ℕ), m.discovery[x]? = some d → d < m.time

/-- Between `m` and `m'` exactly the vertices in `N` were numbered, `v` among them. -/
structure Grown (v : α) (m m' : Marks α) (N : Set α) : Prop where
  fresh : ∀ x ∈ N, x ∉ m.discovery
  seen : ∀ x, x ∈ m'.discovery ↔ x ∈ m.discovery ∨ x ∈ N
  kept : ∀ x ∈ m.discovery, m'.discovery[x]? = m.discovery[x]? ∧ m'.low[x]? = m.low[x]?
  timed : m'.Timed
  first : m'.discovery[v]? = some m.time
  later : ∀ x ∈ N, x ≠ v → ∀ d, m'.discovery[x]? = some d → m.time < d

/-- The low link `l` of `v`: no edge out of the part `N` below `v` leads to a smaller number, save
for the edges in `skipped`, and one leads to it. -/
structure IsLow (G : SimpleGraph α) (m : Marks α) (N : Set α) (skipped : α → α → Prop) (l : ℕ) :
    Prop where
  le : l ≤ m.time
  least : ∀ x ∈ N, ∀ w d, G.Adj x w → m.discovery[w]? = some d → ¬skipped x w → l ≤ d
  attained : l = m.time ∨ ∃ x ∈ N, ∃ w, G.Adj x w ∧ m.discovery[w]? = some l

structure Visited (G : SimpleGraph α) (v : α) (parent : Option α) (m m' : Marks α) (N : Set α) :
    Prop extends Grown v m m' N where
  mem : v ∈ N
  closed : ∀ x ∈ N, ∀ y, G.Adj x y → y ∈ N ∨ y ∈ m.discovery
  connected : ∀ x ∈ N, ReachIn G N x v
  low : ∃ l, m'.low[v]? = some l ∧ IsLow G m N (fun x w => x = v ∧ parent = some w) l
  robust : parent.isSome → ∀ z ∈ N, ∀ x ∈ N, x ≠ z →
    ∃ y, ReachIn G (N \ {z}) x y ∧ ∃ w ∈ m.discovery, G.Adj y w

/-- The loop over the neighbours of `v`, entered with the marks `m`, after the neighbours in
`done`. -/
structure Scanning (G : SimpleGraph α) (v : α) (parent : Option α) (m m' : Marks α)
    (done : List α) (branches : List (Set α)) : Prop extends
    Grown v m m' (subtree v branches) where
  branch : ∀ B ∈ branches, Branch G v {x | x ∈ m.discovery} B
  disjoint : branches.Pairwise Disjoint
  escape : parent.isSome → ∀ B ∈ branches, ∃ x ∈ B, ∃ w ∈ m.discovery, G.Adj x w
  scanned : ∀ y ∈ done, y ∈ m'.discovery
  low : ∃ l, m'.low[v]? = some l ∧
    IsLow G m (subtree v branches) (fun x w => x = v ∧ (w ∈ done → parent = some w)) l

end Invariant

section Proofs

set_option linter.unusedSectionVars false

variable {α : Type*} [Ord α] [Std.TransOrd α] [Std.LawfulEqOrd α] {G : SimpleGraph α} {v : α} {parent : Option α} {m m₁ m' : Marks α} {done : List α}
  {branches : List (Set α)} {N : Set α}

lemma Grown.time_lt (h : Grown v m m' N) : m.time < m'.time := h.timed v _ h.first

lemma compare_ne {a b : α} (h : a ≠ b) : compare a b ≠ .eq :=
  fun heq => h (Std.LawfulEqOrd.eq_of_compare heq)

lemma getElem?_insert_of_ne {β : Type*} {t : TreeMap α β} {a b : α} {x : β} (h : a ≠ b) :
    (t.insert a x)[b]? = t[b]? := by
  rw [TreeMap.getElem?_insert, if_neg (compare_ne h)]

lemma scanning_enter (hm : m.Timed) (hv : v ∉ m.discovery) :
    Scanning G v parent m (m.enter v) [] [] := by
  have hne : ∀ x ∈ m.discovery, v ≠ x := by
    rintro x hx rfl
    exact hv hx
  have hsub : ∀ x, x ∈ subtree v [] ↔ x = v := by simp [mem_subtree]
  refine { fresh := ?_, seen := ?_, kept := ?_, timed := ?_, first := ?_, later := ?_,
           branch := by simp, disjoint := .nil, escape := by simp, scanned := by simp, low := ?_ }
  · intro x hx
    rwa [(hsub x).mp hx]
  · intro x
    rw [hsub, Marks.enter, TreeMap.mem_insert, Std.LawfulEqOrd.compare_eq_iff_eq, eq_comm,
      or_comm]
  · intro x hx
    exact ⟨getElem?_insert_of_ne (hne x hx), getElem?_insert_of_ne (hne x hx)⟩
  · intro x d hd
    rcases eq_or_ne v x with rfl | hvx
    · rw [Marks.enter, TreeMap.getElem?_insert_self] at hd
      obtain rfl : m.time = d := Option.some.inj hd
      exact Nat.lt_succ_self _
    · rw [Marks.enter, getElem?_insert_of_ne hvx] at hd
      exact (hm x d hd).trans (Nat.lt_succ_self _)
  · exact TreeMap.getElem?_insert_self
  · intro x hx hxv
    exact absurd ((hsub x).mp hx) hxv
  · refine ⟨m.time, TreeMap.getElem?_insert_self, le_refl _, ?_, Or.inl rfl⟩
    intro x hx w d _ _ hskip
    exact absurd ⟨(hsub x).mp hx, by simp⟩ hskip

lemma getElem?_lower_self {l b : ℕ} (h : m.low[v]? = some l) :
    (m.lower v b).low[v]? = some (min l b) := by
  rw [Marks.lower, TreeMap.getElem?_modify, if_pos Std.ReflCmp.compare_self, h]
  rfl

variable {x : α}

lemma getElem?_lower_of_ne {b : ℕ} (h : v ≠ x) : (m.lower v b).low[x]? = m.low[x]? := by
  rw [Marks.lower, TreeMap.getElem?_modify, if_neg (compare_ne h)]

lemma Grown.lower {b : ℕ} (h : Grown v m m' N) (hv : v ∈ N) : Grown v m (m'.lower v b) N := by
  refine ⟨h.fresh, h.seen, fun x hx => ⟨(h.kept x hx).1, ?_⟩, h.timed, h.first, h.later⟩
  rw [getElem?_lower_of_ne (by rintro rfl; exact h.fresh _ hv hx), (h.kept x hx).2]

lemma IsLow.lower {N' : Set α} {skipped skipped' : α → α → Prop} {l b : ℕ}
    (h : IsLow G m N skipped l) (hsub : N ⊆ N')
    (hleast : ∀ x ∈ N', ∀ w d, G.Adj x w → m.discovery[w]? = some d → ¬skipped' x w →
      x ∈ N ∧ ¬skipped x w ∨ b ≤ d)
    (hattained : m.time ≤ b ∨ ∃ x ∈ N', ∃ w, G.Adj x w ∧ m.discovery[w]? = some b) :
    IsLow G m N' skipped' (min l b) := by
  refine ⟨(min_le_left _ _).trans h.le, ?_, ?_⟩
  · intro x hx w d hadj hd hskip
    rcases hleast x hx w d hadj hd hskip with ⟨hx, hskip⟩ | hb
    · exact (min_le_left _ _).trans (h.least x hx w d hadj hd hskip)
    · exact (min_le_right _ _).trans hb
  · rcases le_total l b with hlb | hbl
    · rw [min_eq_left hlb]
      exact h.attained.imp id (fun ⟨x, hx, hw⟩ => ⟨x, hsub hx, hw⟩)
    · rw [min_eq_right hbl]
      exact hattained.imp (fun htime => le_antisymm (hbl.trans h.le) htime) id

variable {n : α}

section

variable (h : Scanning G v parent m m' done branches)
include h

lemma Scanning.skip (hn : parent = some n)
    (hmem : n ∈ m.discovery) : Scanning G v parent m m' (done ++ [n]) branches := by
  obtain ⟨l, hl, hlow⟩ := h.low
  refine { h with scanned := ?_, low := ⟨l, hl, hlow.le, ?_, hlow.attained⟩ }
  · intro y hy
    rcases mem_append.mp hy with hy | hy
    · exact h.scanned y hy
    · rw [mem_singleton.mp hy]
      exact (h.seen n).mpr (Or.inl hmem)
  · intro x hx w d hadj hd hskip
    refine hlow.least x hx w d hadj hd (fun ⟨hxv, hdone⟩ => hskip ⟨hxv, fun hw => ?_⟩)
    rcases mem_append.mp hw with hw | hw
    · exact hdone hw
    · rw [mem_singleton.mp hw, hn]

lemma Scanning.known {d : ℕ} (hadj : G.Adj v n) (hd : m'.discovery[n]? = some d) :
    Scanning G v parent m (m'.lower v d) (done ++ [n]) branches := by
  obtain ⟨l, hl, hlow⟩ := h.low
  have hn : n ∈ m'.discovery := mem_of_getElem? hd
  refine { h.toGrown.lower self_mem_subtree with
           branch := h.branch, disjoint := h.disjoint, escape := h.escape, scanned := ?_,
           low := ⟨min l d, getElem?_lower_self hl, hlow.lower subset_rfl ?_ ?_⟩ }
  · intro y hy
    rcases mem_append.mp hy with hy | hy
    · exact h.scanned y hy
    · rw [mem_singleton.mp hy]
      exact hn
  · intro x hx w d' hxw hw hskip
    by_cases hwn : w = n
    · subst hwn
      right
      rw [(h.kept w (mem_of_getElem? hw)).1] at hd
      exact (Option.some.inj (hd.symm.trans hw)).le
    · refine Or.inl ⟨hx, fun ⟨hxv, hdone⟩ => hskip ⟨hxv, fun hmem => hdone ?_⟩⟩
      simpa [hwn] using hmem
  · rcases (h.seen n).mp hn with hold | hnew
    · rw [(h.kept n hold).1] at hd
      exact Or.inr ⟨v, self_mem_subtree, n, hadj, hd⟩
    · exact Or.inl (h.later n hnew hadj.ne' d hd).le

lemma Scanning.not_adj_branch {B : Set α} {y : α}
    (hB : B ∈ branches) (hy : y ∈ B) (hx : x ∉ m'.discovery) : ¬G.Adj x y := by
  intro hadj
  rcases (h.branch B hB).closed y hy x hadj.symm with hx' | rfl | hx'
  · exact hx ((h.seen x).mpr (Or.inr (subset_subtree hB hx')))
  · exact hx (mem_of_getElem? h.first)
  · exact hx ((h.seen x).mpr (Or.inl hx'))

lemma Scanning.known_cases {w : α} (hx : x ∉ m'.discovery) (hw : w ∈ m'.discovery) (hadj : G.Adj x w) :
    w = v ∨ w ∈ m.discovery := by
  rcases (h.seen w).mp hw with hw | rfl | ⟨B, hB, hw⟩
  · exact Or.inr hw
  · exact Or.inl rfl
  · exact absurd hadj (h.not_adj_branch hB hw hx)

lemma Scanning.branch_of_visited (hadj : G.Adj v n)
    (hvisit : Visited G n (some v) m' m₁ N) : Branch G v {x | x ∈ m.discovery} N := by
  refine ⟨fun hv => hvisit.fresh v hv (mem_of_getElem? h.first),
    ⟨n, hvisit.mem, hadj, hvisit.connected⟩, ?_, ?_⟩
  · intro x hx y hxy
    refine (hvisit.closed x hx y hxy).imp id (fun hy => ?_)
    exact h.known_cases (hvisit.fresh x hx) hy hxy
  · intro z hz x hx hxz
    obtain ⟨y, hreach, w, hw, hyw⟩ := hvisit.robust rfl z hz x hx hxz
    have hy : y ∈ N \ {z} := hreach.mem ⟨hx, hxz⟩
    exact ⟨y, hreach, w, h.known_cases (hvisit.fresh y hy.1) hw hyw, hyw⟩

end

lemma mem_subtree_append : x ∈ subtree v (branches ++ [N]) ↔ x ∈ subtree v branches ∨ x ∈ N := by
  simp only [mem_subtree, mem_append, mem_singleton, or_and_right, exists_or,
    exists_eq_left, or_assoc]

section

variable (h : Scanning G v parent m m' done branches)
include h

lemma Scanning.grown_visited
    (hvisit : Visited G n (some v) m' m₁ N) : Grown v m m₁ (subtree v (branches ++ [N])) := by
  have hkeep : ∀ x ∈ m.discovery, x ∈ m'.discovery := fun x hx => (h.seen x).mpr (Or.inl hx)
  refine ⟨?_, ?_, ?_, hvisit.timed, ?_, ?_⟩
  · intro x hx
    rcases mem_subtree_append.mp hx with hx | hx
    · exact h.fresh x hx
    · exact fun hmem => hvisit.fresh x hx (hkeep x hmem)
  · intro x
    rw [hvisit.seen, h.seen, mem_subtree_append, or_assoc]
  · intro x hx
    obtain ⟨hdiscovery, hlow⟩ := hvisit.kept x (hkeep x hx)
    exact ⟨hdiscovery.trans (h.kept x hx).1, hlow.trans (h.kept x hx).2⟩
  · rw [(hvisit.kept v (mem_of_getElem? h.first)).1, h.first]
  · intro x hx hxv d hd
    rcases mem_subtree_append.mp hx with hx | hx
    · rw [(hvisit.kept x ((h.seen x).mpr (Or.inr hx))).1] at hd
      exact h.later x hx hxv d hd
    · by_cases hxn : x = n
      · rw [hxn, hvisit.first] at hd
        exact Option.some.inj hd ▸ h.time_lt
      · exact h.time_lt.trans (hvisit.later x hx hxn d hd)

lemma Scanning.low_cases {b : ℕ} (hvisit : Visited G n (some v) m' m₁ N)
    (hb : IsLow G m' N (fun x w => x = n ∧ some v = some w) b) :
    m.time ≤ b ∨ ∃ x ∈ N, ∃ w, G.Adj x w ∧ m.discovery[w]? = some b := by
  rcases hb.attained with rfl | ⟨x, hx, w, hadj, hw⟩
  · exact Or.inl h.time_lt.le
  · rcases h.known_cases (hvisit.fresh x hx) (mem_of_getElem? hw) hadj with rfl | hmem
    · exact Or.inl (Option.some.inj (h.first.symm.trans hw)).le
    · exact Or.inr ⟨x, hx, w, hadj, (h.kept w hmem).1 ▸ hw⟩

lemma Scanning.visited {b : ℕ} (hadj : G.Adj v n) (hvisit : Visited G n (some v) m' m₁ N)
    (hb : IsLow G m' N (fun x w => x = n ∧ some v = some w) b) (hescape : parent.isSome → b < m.time) :
    Scanning G v parent m (m₁.lower v b) (done ++ [n]) (branches ++ [N]) := by
  obtain ⟨l, hl, hlow⟩ := h.low
  have hvm : v ∈ m'.discovery := mem_of_getElem? h.first
  have hv : v ∉ m.discovery := h.fresh v self_mem_subtree
  refine { (h.grown_visited hvisit).lower self_mem_subtree with
           branch := ?_, disjoint := ?_, escape := ?_, scanned := ?_,
           low := ⟨min l b, getElem?_lower_self ((hvisit.kept v hvm).2.trans hl),
             hlow.lower (fun x hx => mem_subtree_append.mpr (Or.inl hx)) ?_ ?_⟩ }
  · intro B hB
    rcases mem_append.mp hB with hB | hB
    · exact h.branch B hB
    · exact mem_singleton.mp hB ▸ h.branch_of_visited hadj hvisit
  · refine pairwise_append.mpr ⟨h.disjoint, pairwise_singleton _ _, fun B hB B' hB' => ?_⟩
    rw [mem_singleton.mp hB', Set.disjoint_left]
    exact fun x hx hxN => hvisit.fresh x hxN ((h.seen x).mpr (Or.inr (subset_subtree hB hx)))
  · intro hsome B hB
    rcases mem_append.mp hB with hB | hB
    · exact h.escape hsome B hB
    · rw [mem_singleton.mp hB]
      rcases h.low_cases hvisit hb with htime | ⟨x, hx, w, hxw, hw⟩
      · exact absurd (hescape hsome) htime.not_gt
      · exact ⟨x, hx, w, mem_of_getElem? hw, hxw⟩
  · intro y hy
    refine (hvisit.seen y).mpr ?_
    rcases mem_append.mp hy with hy | hy
    · exact Or.inl (h.scanned y hy)
    · exact Or.inr (mem_singleton.mp hy ▸ hvisit.mem)
  · intro x hx w d hxw hw hskip
    have hwm : w ∈ m.discovery := mem_of_getElem? hw
    rcases mem_subtree_append.mp hx with hx | hx
    · refine Or.inl ⟨hx, fun ⟨hxv, hdone⟩ => hskip ⟨hxv, fun hmem => ?_⟩⟩
      rcases mem_append.mp hmem with hmem | hmem
      · exact hdone hmem
      · refine absurd ((h.seen w).mpr (Or.inl hwm)) ?_
        rw [mem_singleton.mp hmem]
        exact hvisit.fresh n hvisit.mem
    · refine Or.inr (hb.least x hx w d hxw ((h.kept w hwm).1.trans hw) ?_)
      rintro ⟨-, heq⟩
      exact hv (Option.some.inj heq ▸ hwm)
  · refine (h.low_cases hvisit hb).imp id (fun ⟨x, hx, hw⟩ => ⟨x, ?_, hw⟩)
    exact mem_subtree_append.mpr (Or.inr hx)

lemma Scanning.finish (hdone : ∀ y, G.Adj v y → y ∈ done)
    (hparent : ∀ p, parent = some p → p ∈ m.discovery ∧ G.Adj v p) :
    Visited G v parent m m' (subtree v branches) := by
  obtain ⟨l, hl, hlow⟩ := h.low
  refine { h.toGrown with
           mem := self_mem_subtree, closed := ?_, connected := subtree_connected h.branch,
           low := ⟨l, hl, hlow.le, ?_, hlow.attained⟩, robust := ?_ }
  · rintro x (rfl | ⟨B, hB, hx⟩) y hxy
    · exact ((h.seen y).mp (h.scanned y (hdone y hxy))).symm
    · rcases (h.branch B hB).closed x hx y hxy with hy | rfl | hy
      · exact Or.inl (subset_subtree hB hy)
      · exact Or.inl self_mem_subtree
      · exact Or.inr hy
  · intro x hx w d hxw hw hskip
    refine hlow.least x hx w d hxw hw ?_
    rintro ⟨rfl, himp⟩
    exact hskip ⟨rfl, himp (hdone w hxw)⟩
  · intro hsome
    obtain ⟨p, rfl⟩ := Option.isSome_iff_exists.mp hsome
    obtain ⟨hp, hvp⟩ := hparent p rfl
    exact subtree_robust h.branch h.disjoint (h.escape rfl) hp hvp

lemma Scanning.cut_of_low {p : α} {b : ℕ} {s : Set α}
    (hm : m.Timed) (hadj : G.Adj v n) (hvisit : Visited G n (some v) m' m₁ N)
    (hb : IsLow G m' N (fun x w => x = n ∧ some v = some w) b) (hle : m.time ≤ b)
    (hp : p ∈ m.discovery) (hps : p ∈ s) (hns : n ∈ s) : Cut G s := by
  have hbranch := h.branch_of_visited hadj hvisit
  have hv : v ∉ m.discovery := h.fresh v self_mem_subtree
  have hpN : p ∉ N := fun hmem => hvisit.fresh p hmem ((h.seen p).mpr (Or.inl hp))
  have hpv : p ≠ v := by
    rintro rfl
    exact hv hp
  refine cut_of_exit hns hps hvisit.mem hpN hpv hbranch.avoids ?_
  intro x hx w hxw
  rcases hbranch.closed x hx w hxw with hw | hw | hw
  · exact Or.inl hw
  · exact Or.inr hw
  · obtain ⟨d, hd⟩ := mem_iff_exists.mp hw
    have hbd : b ≤ d := by
      refine hb.least x hx w d hxw ((h.kept w hw).1.trans hd) ?_
      rintro ⟨-, heq⟩
      exact hv (Option.some.inj heq ▸ hw)
    have := hm w d hd
    omega

lemma Scanning.cut_of_root {s : Set α} (hempty : ∀ x, x ∉ m.discovery) (htwo : 1 < branches.length)
    (hs : ∀ x, G.Adj v x → x ∈ s) : Cut G s := by
  obtain ⟨B, B', rest, rfl⟩ : ∃ B B' rest, branches = B :: B' :: rest := by
    match branches, htwo with
    | B :: B' :: rest, _ => exact ⟨B, B', rest, rfl⟩
  have hB : B ∈ B :: B' :: rest := by simp
  have hB' : B' ∈ B :: B' :: rest := by simp
  obtain ⟨c, hc, hvc, -⟩ := (h.branch B hB).connected
  obtain ⟨c', hc', hvc', -⟩ := (h.branch B' hB').connected
  have hapart : Disjoint B B' := (pairwise_cons.mp h.disjoint).1 B' (by simp)
  refine cut_of_exit (hs c hvc) (hs c' hvc') hc (Set.disjoint_right.mp hapart hc') hvc'.ne'
    (h.branch B hB).avoids ?_
  intro x hx y hxy
  rcases (h.branch B hB).closed x hx y hxy with hy | hy | hy
  · exact Or.inl hy
  · exact Or.inr hy
  · exact absurd hy (hempty y)

end

/-! ## The whole search -/

variable [DecidableEq α]

/-- What a loop, or a call, for `v` returns: a cut, or the branches below `v`. -/
structure Returned (G : SimpleGraph α) (s : Set α) (v : α) (parent : Option α) (m : Marks α)
    (scanned : List α) (result : Bool × Marks α) : Prop where
  stopped : result.1 = true → Cut G s
  finished : result.1 = false → ∃ branches, Scanning G v parent m result.2 scanned branches ∧
    (parent = none → branches.length ≤ 1)

/-- What the loop for `v`, entered with the marks `m`, may assume. -/
structure Entered (G : SimpleGraph α) (s : Set α) (v : α) (parent : Option α) (m : Marks α) :
    Prop where
  timed : m.Timed
  fresh : v ∉ m.discovery
  inside : v ∈ s
  known : ∀ x ∈ m.discovery, x ∈ s
  parent_known : ∀ p, parent = some p → p ∈ m.discovery ∧ G.Adj v p
  root : parent = none → ∀ x, x ∉ m.discovery

variable {s : Set α} {visit : α → Marks α → Bool × Marks α}

lemma Scanning.known_inside (h : Scanning G v parent m m' done branches)
    (henter : Entered G s v parent m) (hs : ∀ x ∈ s, ∀ y, G.Adj x y → y ∈ s) :
    ∀ x ∈ m'.discovery, x ∈ s := by
  intro x hx
  rcases (h.seen x).mp hx with hx | hx
  · exact henter.known x hx
  · have hreach := (subtree_connected h.branch x hx).symm
    exact hreach.mem_of_closed henter.inside (fun a ha b _ hab => hs a ha b hab)

theorem scan_spec (hs : ∀ x ∈ s, ∀ y, G.Adj x y → y ∈ s) (henter : Entered G s v parent m)
    (hvisit : ∀ n m', (∀ x ∈ m.discovery, x ∈ m'.discovery) → v ∈ m'.discovery →
      Entered G s n (some v) m' → ((visit n m').1 = true → Cut G s) ∧
      ((visit n m').1 = false → ∃ N, Visited G n (some v) m' (visit n m').2 N))
    (rest : List α) (hrest : ∀ n ∈ rest, G.Adj v n) (hscan : Scanning G v parent m m' done branches) :
    Returned G s v parent m (done ++ rest) (scan visit v parent m.time rest branches.length m') := by
  induction rest generalizing done branches m' with
  | nil =>
    rw [scan]
    refine ⟨fun hstop => ?_, fun hgo => ⟨branches, by simpa using hscan, ?_⟩⟩
    · simp only [Bool.and_eq_true, Option.isNone_iff_eq_none, decide_eq_true_eq] at hstop
      exact hscan.cut_of_root (henter.root hstop.1) hstop.2 (hs v henter.inside)
    · rintro rfl
      simpa using hgo
  | cons n rest ih =>
    have hadj : G.Adj v n := hrest n (by simp)
    have hrest : ∀ n ∈ rest, G.Adj v n := fun n hn => hrest n (by simp [hn])
    rw [scan, show done ++ n :: rest = (done ++ [n]) ++ rest by simp]
    by_cases hparent : parent = some n
    · rw [if_pos hparent]
      exact ih hrest (hscan.skip hparent (henter.parent_known n hparent).1)
    rw [if_neg hparent]
    rcases hn : m'.discovery[n]? with _ | d
    · have hfresh : n ∉ m'.discovery := by
        intro hmem
        obtain ⟨d, hd⟩ := mem_iff_exists.mp hmem
        rw [hn] at hd
        cases hd
      have hentered : Entered G s n (some v) m' :=
        { timed := hscan.timed
          fresh := hfresh
          inside := hs v henter.inside n hadj
          known := hscan.known_inside henter hs
          parent_known := by
            rintro p hp
            obtain rfl : v = p := Option.some.inj hp
            exact ⟨mem_of_getElem? hscan.first, hadj.symm⟩
          root := by simp }
      obtain ⟨hcut, hgo⟩ := hvisit n m' (fun x hx => (hscan.seen x).mpr (Or.inl hx))
        (mem_of_getElem? hscan.first) hentered
      rcases hresult : visit n m' with ⟨stop, m₁⟩
      rw [hresult] at hcut hgo
      cases stop with
      | true => exact ⟨fun _ => hcut rfl, by simp⟩
      | false =>
        obtain ⟨N, hvisited⟩ := hgo rfl
        obtain ⟨b, hbget, hb⟩ := hvisited.low
        simp only [hbget, Option.getD_some]
        by_cases hstop : (parent.isSome && decide (m.time ≤ b)) = true
        · rw [if_pos hstop]
          refine ⟨fun _ => ?_, by simp⟩
          simp only [Bool.and_eq_true, decide_eq_true_eq] at hstop
          obtain ⟨p, hp⟩ := Option.isSome_iff_exists.mp hstop.1
          have hpm := (henter.parent_known p hp).1
          exact hscan.cut_of_low henter.timed hadj hvisited hb hstop.2 hpm (henter.known p hpm)
            hentered.inside
        · rw [if_neg hstop]
          have hlow : parent.isSome → b < m.time := by
            intro hsome
            simpa [hsome] using hstop
          have hnext := ih hrest (hscan.visited hadj hvisited hb hlow)
          simpa using hnext
    · exact ih hrest (hscan.known hadj hn)

theorem search_spec {neighbors : α → List α} {all : Finset α}
    (hneighbors : ∀ a b, b ∈ neighbors a ↔ G.Adj a b)
    (hall : ∀ x ∈ all, ∀ y, G.Adj x y → y ∈ all) (fuel : ℕ)
    (henter : Entered G all v parent m) (hfuel : (unlabelled all m.discovery).card ≤ fuel) :
    Returned G all v parent m (neighbors v) (search neighbors fuel v parent m) := by
  induction fuel generalizing v parent m with
  | zero =>
    have hmem : v ∈ unlabelled all m.discovery :=
      Finset.mem_filter.mpr ⟨henter.inside, henter.fresh⟩
    have := Finset.card_pos.mpr ⟨v, hmem⟩
    omega
  | succ fuel ih =>
    rw [search]
    refine scan_spec hall henter ?_ (neighbors v) (fun n hn => (hneighbors v n).mp hn)
      (scanning_enter henter.timed henter.fresh)
    intro n m' hsub hv hentered
    have hless : (unlabelled all m'.discovery).card < (unlabelled all m.discovery).card := by
      refine Finset.card_lt_card ⟨fun x hx => ?_, fun hback => ?_⟩
      · obtain ⟨hxall, hx⟩ := Finset.mem_filter.mp hx
        exact Finset.mem_filter.mpr ⟨hxall, fun hmem => hx (hsub x hmem)⟩
      · have hmem := hback (Finset.mem_filter.mpr ⟨henter.inside, henter.fresh⟩)
        exact (Finset.mem_filter.mp hmem).2 hv
    have hcall := ih hentered (by omega)
    refine ⟨hcall.stopped, fun hgo => ?_⟩
    obtain ⟨branches, hscan, -⟩ := hcall.finished hgo
    refine ⟨_, hscan.finish (fun y hy => (hneighbors n y).mpr hy) hentered.parent_known⟩

section Root

variable {neighbors : α → List α} {all : Finset α} {root : α} {fuel : ℕ}
  (hneighbors : ∀ a b, b ∈ neighbors a ↔ G.Adj a b) (hall : ∀ x ∈ all, ∀ y, G.Adj x y → y ∈ all)
  (hroot : root ∈ all) (hfuel : all.card ≤ fuel)

include hneighbors hall hroot hfuel

lemma search_root : Returned G all root none Marks.empty (neighbors root)
    (search neighbors fuel root none Marks.empty) := by
  have hnone : ∀ x, x ∉ (Marks.empty : Marks α).discovery := by simp [Marks.empty]
  refine search_spec hneighbors hall fuel ⟨?_, hnone root, hroot, ?_, ?_, fun _ => hnone⟩ ?_
  · intro x d hd
    exact absurd (mem_of_getElem? hd) (hnone x)
  · exact fun x hx => absurd hx (hnone x)
  · simp
  · exact (Finset.card_filter_le _ _).trans hfuel

theorem search_true (hstop : (search neighbors fuel root none Marks.empty).1 = true) : Cut G all :=
  (search_root hneighbors hall hroot hfuel).stopped hstop

theorem search_false (hgo : (search neighbors fuel root none Marks.empty).1 = false) :
    let seen := {x | x ∈ (search neighbors fuel root none Marks.empty).2.discovery}
    (∀ x, x ∈ seen ↔ Relation.ReflTransGen G.Adj root x) ∧
      ∀ z, (G.induce (seen \ {z})).Preconnected := by
  obtain ⟨branches, hscan, hlength⟩ :=
    (search_root hneighbors hall hroot hfuel).finished hgo
  have hnone : ∀ x, x ∉ (Marks.empty : Marks α).discovery := by simp [Marks.empty]
  have hseen : ∀ x, x ∈ (search neighbors fuel root none Marks.empty).2.discovery ↔
      x ∈ subtree root branches := by
    intro x
    rw [hscan.seen, or_iff_right (hnone x)]
  have hvisited := hscan.finish (fun y hy => (hneighbors root y).mpr hy) (by simp)
  have hbranch : ∀ B ∈ branches, Branch G root ∅ B := by
    have hempty : {x | x ∈ (Marks.empty : Marks α).discovery} = ∅ :=
      Set.eq_empty_of_forall_notMem hnone
    exact hempty ▸ hscan.branch
  intro seen
  have hset : seen = subtree root branches := Set.ext hseen
  rw [hset]
  refine ⟨fun x => ⟨fun hx => ?_, fun hreach => ?_⟩, fun z => ?_⟩
  · exact (hvisited.connected x hx).symm.lift id (fun _ _ h => h.2.2)
  · induction hreach with
    | refl => exact hvisited.mem
    | tail _ hbc ih => exact (hvisited.closed _ ih _ hbc).resolve_right (hnone _)
  · exact preconnected_induce_iff.mpr
      (subtree_robust_root hbranch hscan.disjoint (hlength rfl) z)

end Root

end Proofs

end LowLink
