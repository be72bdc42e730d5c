import HeteroNetwork.Lib.OrderedMap

/-!
# Breadth-first search with labels

One loop covers the searches that differ in what they write into a vertex: a distance, a predecessor, the
first hop of a route.  A ghost `depth` is the number of rounds after which a vertex was labelled.
-/

namespace Search

open OrderedMap List
open Std (LawfulEqOrd ReflCmp TransOrd TreeMap)

inductive Steps {α : Type*} (r : α → α → Prop) : ℕ → α → α → Prop
  | refl (a : α) : Steps r 0 a a
  | tail {n : ℕ} {a b c : α} : Steps r n a b → r b c → Steps r (n + 1) a c

lemma exists_steps_iff {α : Type*} {r : α → α → Prop} {a b : α} :
    (∃ n, Steps r n a b) ↔ Relation.ReflTransGen r a b := by
  constructor
  · rintro ⟨n, h⟩
    induction h with
    | refl a => exact .refl
    | tail _ hbc ih => exact ih.tail hbc
  · intro h
    induction h with
    | refl => exact ⟨0, .refl a⟩
    | tail _ hbc ih =>
      obtain ⟨n, hn⟩ := ih
      exact ⟨n + 1, hn.tail hbc⟩

/-! ## Walks of a graph -/

section Walks

variable {α : Type*} {G : SimpleGraph α} {a b : α} {n d : ℕ}

lemma steps_adj_iff : Steps G.Adj n a b ↔ ∃ w : G.Walk a b, w.length = n := by
  constructor
  · intro h
    induction h with
    | refl a => exact ⟨.nil, rfl⟩
    | tail _ hbc ih =>
      obtain ⟨w, rfl⟩ := ih
      exact ⟨w.concat hbc, SimpleGraph.Walk.length_concat _ _⟩
  · rintro ⟨w, rfl⟩
    induction w using SimpleGraph.Walk.concatRec with
    | Hnil => exact .refl _
    | Hconcat w hadj ih =>
      rw [SimpleGraph.Walk.length_concat]
      exact ih.tail hadj

lemma shortest_iff_dist : (Steps G.Adj d a b ∧ ∀ n, Steps G.Adj n a b → d ≤ n) ↔
    G.Reachable a b ∧ G.dist a b = d := by
  simp only [steps_adj_iff]
  constructor
  · rintro ⟨⟨w, rfl⟩, hmin⟩
    obtain ⟨v, hv⟩ := SimpleGraph.Reachable.exists_walk_length_eq_dist ⟨w⟩
    exact ⟨⟨w⟩, le_antisymm (SimpleGraph.dist_le w) (hv ▸ hmin _ ⟨v, rfl⟩)⟩
  · rintro ⟨hreach, rfl⟩
    refine ⟨hreach.exists_walk_length_eq_dist, ?_⟩
    rintro n ⟨w, rfl⟩
    exact SimpleGraph.dist_le w

end Walks

variable {α L : Type*} [Ord α]

structure State (α L : Type*) [Ord α] where
  labels : TreeMap α L
  queue : List α
  found : Bool

def scan (goal : α → Bool) : List (α × L) → State α L → State α L
  | [], s => s
  | (b, l) :: rest, s =>
    if s.labels.contains b then scan goal rest s
    else if goal b then { s with labels := s.labels.insert b l, found := true }
    else scan goal rest { s with labels := s.labels.insert b l, queue := s.queue ++ [b] }

def loop (goal : α → Bool) (expand : α → L → List (α × L)) : ℕ → State α L → State α L
  | 0, s => s
  | fuel + 1, s =>
    if s.found then s
    else match s.queue with
      | [] => s
      | a :: rest =>
        match s.labels[a]? with
        | none => loop goal expand fuel { s with queue := rest }
        | some l => loop goal expand fuel (scan goal (expand a l) { s with queue := rest })

def start (seeds : List (α × L)) : State α L where
  labels := TreeMap.ofList seeds
  queue := seeds.map Prod.fst
  found := false

variable [TransOrd α]

variable [LawfulEqOrd α]

variable {r : α → α → Prop} {labels : TreeMap α L} {p : α × L} {fuel : ℕ} {m : TreeMap α L} {all : Finset α}

lemma getElem?_insert_eq_some {a b : α} {l x : L} (hb : b ∉ m) :
    (m.insert b l)[a]? = some x ↔ m[a]? = some x ∨ (a, x) = (b, l) := by
  rw [TreeMap.getElem?_insert]
  by_cases hab : b = a
  · subst hab
    rw [if_pos ReflCmp.compare_self]
    have hnone : ¬m[b]? = some x := fun h => hb (mem_of_getElem? h)
    simp [hnone, eq_comm]
  · rw [if_neg (fun h => hab (LawfulEqOrd.eq_of_compare h))]
    simp [Ne.symm hab]

/-- What a scan does: it labels the first occurrence of every new target, and queues them up to a
goal. -/
structure Scanned (goal : α → Bool) (targets : List (α × L)) (s s' : State α L)
    (new : List (α × L)) : Prop where
  sub : ∀ p ∈ new, p ∈ targets
  nodup : (new.map Prod.fst).Nodup
  fresh : ∀ p ∈ new, p.1 ∉ s.labels
  labels : ∀ b l, s'.labels[b]? = some l ↔ s.labels[b]? = some l ∨ (b, l) ∈ new
  stop : (s'.found = false ∧ s'.queue = s.queue ++ new.map Prod.fst ∧
      (∀ p ∈ new, goal p.1 = false) ∧ ∀ p ∈ targets, p.1 ∈ s'.labels) ∨
    (s'.found = true ∧ ∃ p ∈ new, goal p.1 = true)

lemma exists_scanned (goal : α → Bool) (targets : List (α × L)) (s : State α L)
    (hs : s.found = false) : ∃ new, Scanned goal targets s (scan goal targets s) new := by
  induction targets generalizing s with
  | nil => exact ⟨[], by simp, by simp, by simp, by simp [scan], Or.inl ⟨hs, by simp [scan]⟩⟩
  | cons target rest ih =>
    obtain ⟨b, l⟩ := target
    rw [scan]
    by_cases hb : b ∈ s.labels
    · rw [if_pos (TreeMap.contains_iff_mem.mpr hb)]
      obtain ⟨new, h⟩ := ih s hs
      refine ⟨new, fun p hp => mem_cons_of_mem _ (h.sub p hp), h.nodup, h.fresh, h.labels,
        h.stop.imp (fun ⟨hfound, hqueue, hgoal, hall⟩ => ⟨hfound, hqueue, hgoal, ?_⟩) id⟩
      rintro p (_ | ⟨_, hp⟩)
      · obtain ⟨x, hx⟩ := mem_iff_exists.mp hb
        exact mem_of_getElem? ((h.labels b x).mpr (Or.inl hx))
      · exact hall p hp
    · rw [if_neg (fun h => hb (TreeMap.contains_iff_mem.mp h))]
      by_cases hgoal : goal b = true
      · rw [if_pos hgoal]
        refine ⟨[(b, l)], by simp, by simp, by simpa using hb, ?_,
          Or.inr ⟨rfl, (b, l), by simp, hgoal⟩⟩
        intro a x
        rw [getElem?_insert_eq_some hb, mem_singleton]
      · rw [if_neg hgoal]
        obtain ⟨new, h⟩ := ih { s with labels := s.labels.insert b l, queue := s.queue ++ [b] } hs
        have hfresh : ∀ p ∈ new, p.1 ∉ s.labels ∧ p.1 ≠ b := by
          intro p hp
          have hp := h.fresh p hp
          rw [TreeMap.mem_insert, not_or] at hp
          exact ⟨hp.2, fun heq => hp.1 (heq ▸ ReflCmp.compare_self)⟩
        refine ⟨(b, l) :: new, ?_, ?_, ?_, ?_, ?_⟩
        · rintro p (_ | ⟨_, hp⟩)
          · exact mem_cons_self
          · exact mem_cons_of_mem _ (h.sub p hp)
        · rw [map_cons, nodup_cons]
          refine ⟨fun hmem => ?_, h.nodup⟩
          obtain ⟨p, hp, heq⟩ := mem_map.mp hmem
          exact (hfresh p hp).2 heq
        · rintro p (_ | ⟨_, hp⟩)
          · exact hb
          · exact (hfresh p hp).1
        · intro a x
          rw [h.labels, getElem?_insert_eq_some hb, mem_cons, or_assoc]
        · refine h.stop.imp ?_ ?_
          · rintro ⟨hfound, hqueue, hnone, hall⟩
            refine ⟨hfound, by rw [hqueue]; simp, ?_, ?_⟩
            · rintro p (_ | ⟨_, hp⟩)
              · simpa using hgoal
              · exact hnone p hp
            · rintro p (_ | ⟨_, hp⟩)
              · refine mem_of_getElem? ((h.labels b l).mpr (Or.inl ?_))
                exact TreeMap.getElem?_insert_self
              · exact hall p hp
          · rintro ⟨hfound, p, hp, hpgoal⟩
            exact ⟨hfound, p, mem_cons_of_mem _ hp, hpgoal⟩

/-! ## What has been found -/

/-- Every label comes from a seed or from the expansion of a labelled vertex one round earlier. -/
structure Rooted (expand : α → L → List (α × L)) (seeds : List (α × L)) (depth : α → ℕ)
    (labels : TreeMap α L) : Prop where
  seeded : ∀ p ∈ seeds, labels[p.1]? = some p.2 ∧ depth p.1 = 0
  origin : ∀ b l, labels[b]? = some l → (b, l) ∈ seeds ∨
    ∃ a l', labels[a]? = some l' ∧ (b, l) ∈ expand a l' ∧ depth b = depth a + 1

/-- The invariant of the loop: what left the queue is expanded, and the queue holds the vertices of
the round being worked on followed by those of the next. -/
structure Explored (expand : α → L → List (α × L)) (seeds : List (α × L)) (depth : α → ℕ)
    (s : State α L) : Prop where
  rooted : Rooted expand seeds depth s.labels
  queued : ∀ a ∈ s.queue, a ∈ s.labels
  closed : ∀ a l, s.labels[a]? = some l → a ∉ s.queue →
    ∀ p ∈ expand a l, p.1 ∈ s.labels ∧ depth p.1 ≤ depth a + 1
  ordered : s.queue.Pairwise (fun a b => depth a ≤ depth b)
  level : ∀ a ∈ s.queue.head?, ∀ b ∈ s.labels, depth b ≤ depth a + 1

/-- The search stopped at the goal `g`: all earlier rounds but the last are expanded. -/
structure Reached (goal : α → Bool) (expand : α → L → List (α × L)) (seeds : List (α × L))
    (depth : α → ℕ) (labels : TreeMap α L) (g : α) : Prop where
  rooted : Rooted expand seeds depth labels
  goal : goal g = true
  labelled : g ∈ labels
  closed : ∀ a l, labels[a]? = some l → depth a + 1 < depth g →
    ∀ p ∈ expand a l, p.1 ∈ labels ∧ depth p.1 ≤ depth a + 1

variable {goal : α → Bool} {expand : α → L → List (α × L)} {seeds : List (α × L)}
  {depth : α → ℕ} {s s' : State α L} {new : List (α × L)}

lemma explored_start (hnodup : (seeds.map Prod.fst).Nodup) :
    Explored expand seeds (fun _ => 0) (start seeds) := by
  have hlabels : ∀ b l, (start seeds).labels[b]? = some l ↔ (b, l) ∈ seeds :=
    fun b l => getElem?_ofList hnodup
  refine ⟨⟨fun p hp => ⟨(hlabels p.1 p.2).mpr hp, rfl⟩, fun b l h => Or.inl ((hlabels b l).mp h)⟩,
    ?_, ?_, ?_, ?_⟩
  · intro a ha
    obtain ⟨p, hp, rfl⟩ := mem_map.mp ha
    exact mem_of_getElem? ((hlabels p.1 p.2).mpr hp)
  · intro a l ha hqueue
    exact absurd (mem_map_of_mem ((hlabels a l).mp ha)) hqueue
  · exact pairwise_of_forall (fun _ _ => le_refl _)
  · intro a _ b _
    exact Nat.zero_le _

/-- The depths after the vertices in `new` were labelled from `a`. -/
def deepen (depth : α → ℕ) (a : α) (new : List (α × L)) (b : α) : ℕ :=
  if (new.map Prod.fst).any (fun c => compare c b == .eq) then depth a + 1 else depth b

omit [TransOrd α] in
lemma deepen_of_mem {a : α} (hp : p ∈ new) : deepen depth a new p.1 = depth a + 1 := by
  refine if_pos (any_eq_true.mpr ⟨p.1, mem_map_of_mem hp, ?_⟩)
  simp [ReflCmp.compare_self]

omit [TransOrd α] in
lemma deepen_of_fresh {a b : α} (hfresh : ∀ p ∈ new, p.1 ∉ m) (hb : b ∈ m) :
    deepen depth a new b = depth b := by
  refine if_neg (fun hany => ?_)
  obtain ⟨c, hc, heq⟩ := any_eq_true.mp hany
  obtain ⟨p, hp, rfl⟩ := mem_map.mp hc
  have hpb : p.1 = b := LawfulEqOrd.eq_of_compare (by simpa using heq)
  exact hfresh p hp (hpb ▸ hb)

lemma Rooted.scanned {a : α} {l : L} {rest : List α} (hrooted : Rooted expand seeds depth s.labels)
    (ha : s.labels[a]? = some l) (hscan : Scanned goal (expand a l) { s with queue := rest } s' new) :
    Rooted expand seeds (deepen depth a new) s'.labels := by
  have hold : ∀ b ∈ s.labels, deepen depth a new b = depth b :=
    fun b hb => deepen_of_fresh hscan.fresh hb
  refine ⟨fun p hp => ?_, fun b x hb => ?_⟩
  · obtain ⟨hlabel, hdepth⟩ := hrooted.seeded p hp
    exact ⟨(hscan.labels _ _).mpr (Or.inl hlabel), by rw [hold _ (mem_of_getElem? hlabel), hdepth]⟩
  · rcases (hscan.labels b x).mp hb with hb | hb
    · refine (hrooted.origin b x hb).imp id (fun ⟨c, y, hc, hmem, hdepth⟩ => ?_)
      refine ⟨c, y, (hscan.labels c y).mpr (Or.inl hc), hmem, ?_⟩
      rw [hold b (mem_of_getElem? hb), hold c (mem_of_getElem? hc), hdepth]
    · refine Or.inr ⟨a, l, (hscan.labels a l).mpr (Or.inl ha), hscan.sub _ hb, ?_⟩
      rw [deepen_of_mem hb, hold a (mem_of_getElem? ha)]

section

variable {a : α} {l : L} {rest : List α} (hexp : Explored expand seeds depth s)
    (hqueue : s.queue = a :: rest) (ha : s.labels[a]? = some l)
    (hscan : Scanned goal (expand a l) { s with queue := rest } s' new)
include hexp hqueue ha hscan

lemma Explored.scanned (hnext : s'.queue = rest ++ new.map Prod.fst)
    (hall : ∀ p ∈ expand a l, p.1 ∈ s'.labels) : Explored expand seeds (deepen depth a new) s' := by
  have hold : ∀ b ∈ s.labels, deepen depth a new b = depth b :=
    fun b hb => deepen_of_fresh hscan.fresh hb
  have hamem : a ∈ s.labels := mem_of_getElem? ha
  have hrest : ∀ b ∈ rest, b ∈ s.labels := fun b hb => hexp.queued b (by simp [hqueue, hb])
  have hlevel : ∀ b ∈ s.labels, depth b ≤ depth a + 1 := hexp.level a (by simp [hqueue])
  have hkeep : ∀ b ∈ s.labels, b ∈ s'.labels := by
    intro b hb
    obtain ⟨x, hx⟩ := mem_iff_exists.mp hb
    exact mem_of_getElem? ((hscan.labels b x).mpr (Or.inl hx))
  have hbound : ∀ b ∈ s'.labels, deepen depth a new b ≤ depth a + 1 := by
    intro b hb
    obtain ⟨x, hx⟩ := mem_iff_exists.mp hb
    rcases (hscan.labels b x).mp hx with hx | hx
    · rw [hold b (mem_of_getElem? hx)]
      exact hlevel b (mem_of_getElem? hx)
    · exact (deepen_of_mem hx).le
  have hord := hexp.ordered
  rw [hqueue, pairwise_cons] at hord
  refine ⟨hexp.rooted.scanned ha hscan, ?_, ?_, ?_, ?_⟩
  · intro b hb
    rw [hnext, mem_append] at hb
    rcases hb with hb | hb
    · exact hkeep b (hrest b hb)
    · obtain ⟨p, hp, rfl⟩ := mem_map.mp hb
      exact mem_of_getElem? ((hscan.labels p.1 p.2).mpr (Or.inr hp))
  · intro b x hb hbqueue p hp
    rw [hnext, mem_append, not_or] at hbqueue
    rcases (hscan.labels b x).mp hb with hb | hb
    · by_cases hba : b = a
      · -- the vertex just expanded
        subst hba
        obtain rfl : l = x := Option.some.inj (ha.symm.trans hb)
        exact ⟨hall p hp, by rw [hold b hamem]; exact hbound _ (hall p hp)⟩
      · obtain ⟨hmem, hdepth⟩ := hexp.closed b x hb (by simp [hqueue, hba, hbqueue.1]) p hp
        exact ⟨hkeep _ hmem, by rwa [hold _ hmem, hold b (mem_of_getElem? hb)]⟩
    · exact absurd (mem_map_of_mem hb) hbqueue.2
  · rw [hnext, pairwise_append]
    refine ⟨hord.2.imp_of_mem (fun hb hc h => ?_), pairwise_of_forall_mem_list ?_, ?_⟩
    · rwa [hold _ (hrest _ hb), hold _ (hrest _ hc)]
    · intro b hb c hc
      obtain ⟨p, hp, rfl⟩ := mem_map.mp hb
      obtain ⟨q, hq, rfl⟩ := mem_map.mp hc
      rw [deepen_of_mem hp, deepen_of_mem hq]
    · intro b hb c hc
      obtain ⟨q, hq, rfl⟩ := mem_map.mp hc
      rw [deepen_of_mem hq]
      exact hbound b (hkeep b (hrest b hb))
  · -- the next head is a vertex of this round or, after the last one, of the next
    intro h hh b hb
    rw [hnext] at hh
    have hhmem := mem_of_mem_head? hh
    rcases mem_append.mp hhmem with hh | hh
    · rw [hold h (hrest h hh)]
      exact (hbound b hb).trans (Nat.add_le_add_right (hord.1 h hh) 1)
    · obtain ⟨p, hp, rfl⟩ := mem_map.mp hh
      rw [deepen_of_mem hp]
      exact (hbound b hb).trans (Nat.le_succ _)

lemma Explored.reached {p : α × L} (hp : p ∈ new) (hgoal : goal p.1 = true) :
    Reached goal expand seeds (deepen depth a new) s'.labels p.1 := by
  have hold : ∀ b ∈ s.labels, deepen depth a new b = depth b :=
    fun b hb => deepen_of_fresh hscan.fresh hb
  have hord := hexp.ordered
  rw [hqueue, pairwise_cons] at hord
  refine ⟨hexp.rooted.scanned ha hscan, hgoal,
    mem_of_getElem? ((hscan.labels p.1 p.2).mpr (Or.inr hp)), ?_⟩
  intro b x hb hdepth q hq
  rw [deepen_of_mem hp] at hdepth
  rcases (hscan.labels b x).mp hb with hb | hb
  · rw [hold b (mem_of_getElem? hb)] at hdepth ⊢
    -- vertices still queued are at least as deep as the one just expanded
    have hdone : b ∉ s.queue := by
      rw [hqueue]
      rintro (_ | ⟨_, hmem⟩)
      · omega
      · have := hord.1 b hmem
        omega
    obtain ⟨hmem, hle⟩ := hexp.closed b x hb hdone q hq
    obtain ⟨y, hy⟩ := mem_iff_exists.mp hmem
    exact ⟨mem_of_getElem? ((hscan.labels q.1 y).mpr (Or.inl hy)), by rwa [hold q.1 hmem]⟩
  · rw [deepen_of_mem hb] at hdepth
    omega

end

/-! ## The whole search -/

structure Complete (expand : α → L → List (α × L)) (seeds : List (α × L)) (depth : α → ℕ)
    (labels : TreeMap α L) : Prop where
  rooted : Rooted expand seeds depth labels
  closed : ∀ a l, labels[a]? = some l → ∀ p ∈ expand a l, p.1 ∈ labels ∧ depth p.1 ≤ depth a + 1

/-- How a search ends: it ran dry without meeting a goal, or it stopped at one. -/
inductive Outcome (goal : α → Bool) (expand : α → L → List (α × L)) (seeds : List (α × L))
    (s : State α L) : Prop
  | dry (depth : α → ℕ) (hfound : s.found = false) (hcomplete : Complete expand seeds depth s.labels)
      (hnone : ∀ b ∈ s.labels, goal b = true → b ∈ seeds.map Prod.fst) :
      Outcome goal expand seeds s
  | met (depth : α → ℕ) (g : α) (hfound : s.found = true)
      (hreached : Reached goal expand seeds depth s.labels g) : Outcome goal expand seeds s

def unlabelled (all : Finset α) (labels : TreeMap α L) : Finset α :=
  all.filter (fun b => ¬b ∈ labels)

omit [LawfulEqOrd α] in
lemma Scanned.card_unlabelled {targets : List (α × L)} (hscan : Scanned goal targets s s' new)
    (htargets : ∀ p ∈ targets, p.1 ∈ all) :
    (unlabelled all s'.labels).card + new.length ≤ (unlabelled all s.labels).card := by
  classical
  have hlength : (new.map Prod.fst).toFinset.card = new.length := by
    rw [toFinset_card_of_nodup hscan.nodup, length_map]
  have hkeep : ∀ b, b ∈ s.labels → b ∈ s'.labels := by
    intro b hb
    obtain ⟨x, hx⟩ := mem_iff_exists.mp hb
    exact mem_of_getElem? ((hscan.labels b x).mpr (Or.inl hx))
  have hdisjoint : Disjoint (unlabelled all s'.labels) (new.map Prod.fst).toFinset := by
    rw [Finset.disjoint_left]
    intro b hb hnew
    obtain ⟨p, hp, rfl⟩ := mem_map.mp (mem_toFinset.mp hnew)
    exact (Finset.mem_filter.mp hb).2 (mem_of_getElem? ((hscan.labels p.1 p.2).mpr (Or.inr hp)))
  rw [← hlength, ← Finset.card_union_of_disjoint hdisjoint]
  refine Finset.card_le_card (Finset.union_subset ?_ ?_)
  · intro b hb
    obtain ⟨hall, hnot⟩ := Finset.mem_filter.mp hb
    exact Finset.mem_filter.mpr ⟨hall, fun h => hnot (hkeep b h)⟩
  · intro b hb
    obtain ⟨p, hp, rfl⟩ := mem_map.mp (mem_toFinset.mp hb)
    exact Finset.mem_filter.mpr ⟨htargets p (hscan.sub p hp), hscan.fresh p hp⟩

theorem loop_spec (hexpand : ∀ a ∈ all, ∀ l, ∀ p ∈ expand a l, p.1 ∈ all)
    (fuel : ℕ) (hexp : Explored expand seeds depth s) (hfound : s.found = false)
    (hall : ∀ b ∈ s.labels, b ∈ all) (hnone : ∀ b ∈ s.labels, goal b = true → b ∈ seeds.map Prod.fst)
    (hfuel : s.queue.length + (unlabelled all s.labels).card ≤ fuel) :
    Outcome goal expand seeds (loop goal expand fuel s) := by
  induction fuel generalizing s depth with
  | zero =>
    have hempty : s.queue = [] := length_eq_zero_iff.mp (by omega)
    exact .dry depth hfound ⟨hexp.rooted, fun a l ha => hexp.closed a l ha (by simp [hempty])⟩ hnone
  | succ fuel ih =>
    rw [loop, if_neg (by simp [hfound])]
    rcases hqueue : s.queue with _ | ⟨a, rest⟩
    · exact .dry depth hfound
        ⟨hexp.rooted, fun a l ha => hexp.closed a l ha (by simp [hqueue])⟩ hnone
    · obtain ⟨l, ha⟩ := mem_iff_exists.mp (hexp.queued a (by simp [hqueue]))
      simp only [ha]
      obtain ⟨new, hscan⟩ :=
        exists_scanned goal (expand a l) { s with queue := rest } hfound
      have htargets := hexpand a (hall a (mem_of_getElem? ha)) l
      rcases hscan.stop with ⟨hfound', hnext, hnogoal, hlabelled⟩ | ⟨hfound', p, hp, hgoal⟩
      · refine ih (hexp.scanned hqueue ha hscan hnext hlabelled) hfound' ?_ ?_ ?_
        · intro b hb
          obtain ⟨x, hx⟩ := mem_iff_exists.mp hb
          rcases (hscan.labels b x).mp hx with hx | hx
          · exact hall b (mem_of_getElem? hx)
          · exact htargets _ (hscan.sub _ hx)
        · intro b hb hgoal
          obtain ⟨x, hx⟩ := mem_iff_exists.mp hb
          rcases (hscan.labels b x).mp hx with hx | hx
          · exact hnone b (mem_of_getElem? hx) hgoal
          · exact absurd hgoal (by simp [hnogoal _ hx])
        · have hspent := hscan.card_unlabelled htargets
          simp only [hqueue, length_cons] at hfuel hspent
          rw [hnext, length_append, length_map]
          dsimp only
          omega
      · refine .met (deepen depth a new) p.1 ?_ ?_
        · cases fuel <;> simp [loop, hfound']
        · have hstay : loop goal expand fuel (scan goal (expand a l) { s with queue := rest })
              = scan goal (expand a l) { s with queue := rest } := by
            cases fuel <;> simp [loop, hfound']
          rw [hstay]
          exact hexp.reached hqueue ha hscan hp hgoal

variable (goal expand seeds) in
theorem search_spec (all : Finset α) (hexpand : ∀ a ∈ all, ∀ l, ∀ p ∈ expand a l, p.1 ∈ all)
    (hnodup : (seeds.map Prod.fst).Nodup) (hseeds : ∀ p ∈ seeds, p.1 ∈ all)
    (hfuel : all.card ≤ fuel) : Outcome goal expand seeds (loop goal expand fuel (start seeds)) := by
  have hlabels : ∀ b, b ∈ (start seeds).labels ↔ b ∈ seeds.map Prod.fst := by
    intro b
    rw [mem_iff_exists]
    constructor
    · rintro ⟨l, hl⟩
      exact mem_map_of_mem (f := Prod.fst) ((getElem?_ofList hnodup).mp hl)
    · intro hb
      obtain ⟨p, hp, rfl⟩ := mem_map.mp hb
      exact ⟨p.2, (getElem?_ofList hnodup).mpr hp⟩
  refine loop_spec hexpand fuel (explored_start hnodup) rfl ?_ (fun b hb _ => (hlabels b).mp hb) ?_
  · intro b hb
    obtain ⟨p, hp, rfl⟩ := mem_map.mp ((hlabels b).mp hb)
    exact hseeds p hp
  · classical
    have hsplit : (unlabelled all (start seeds).labels) = all \ (seeds.map Prod.fst).toFinset := by
      ext b
      simp [unlabelled, hlabels]
    have hsub : (seeds.map Prod.fst).toFinset ⊆ all := by
      intro b hb
      obtain ⟨p, hp, rfl⟩ := mem_map.mp (mem_toFinset.mp hb)
      exact hseeds p hp
    have hcard := Finset.card_sdiff_add_card_eq_card hsub
    rw [toFinset_card_of_nodup hnodup] at hcard
    rw [hsplit]
    show (seeds.map Prod.fst).length + _ ≤ fuel
    omega

variable (expand seeds) in
theorem search_all (all : Finset α) (hexpand : ∀ a ∈ all, ∀ l, ∀ p ∈ expand a l, p.1 ∈ all)
    (hnodup : (seeds.map Prod.fst).Nodup) (hseeds : ∀ p ∈ seeds, p.1 ∈ all) (hfuel : all.card ≤ fuel) :
    ∃ depth, Complete expand seeds depth (loop (fun _ => false) expand fuel (start seeds)).labels := by
  cases search_spec (fun _ => false) expand seeds all hexpand hnodup hseeds hfuel with
  | dry depth _ hcomplete _ => exact ⟨depth, hcomplete⟩
  | met depth g _ hreached => exact absurd hreached.goal (by simp)

/-! ## Labels, walks and depths -/

omit [TransOrd α] [LawfulEqOrd α] in
theorem Rooted.label_induction (h : Rooted expand seeds depth labels)
    (P : α → L → ℕ → Prop) (hseed : ∀ p ∈ seeds, P p.1 p.2 0)
    (hstep : ∀ a l n, labels[a]? = some l → P a l n → ∀ p ∈ expand a l, P p.1 p.2 (n + 1)) :
    ∀ b l, labels[b]? = some l → P b l (depth b) := by
  -- induction on the round in which `b` was labelled
  have hdepth : ∀ n b l, depth b = n → labels[b]? = some l → P b l n := by
    intro n
    induction n with
    | zero =>
      intro b l hb hl
      rcases h.origin b l hl with hseeds | ⟨a, l', -, -, ha⟩
      · exact hseed (b, l) hseeds
      · omega
    | succ n ih =>
      intro b l hb hl
      rcases h.origin b l hl with hseeds | ⟨a, l', ha, hmem, hab⟩
      · have := (h.seeded _ hseeds).2
        simp only at this
        omega
      · exact hstep a l' n ha (ih a l' (by omega) ha) (b, l) hmem
  intro b l hl
  exact hdepth (depth b) b l rfl hl

omit [LawfulEqOrd α] in
theorem Rooted.steps (h : Rooted expand seeds depth labels)
    (hr : ∀ a l, labels[a]? = some l → ∀ p ∈ expand a l, r a p.1) {b : α} (hb : b ∈ labels) :
    ∃ p ∈ seeds, Steps r (depth b) p.1 b := by
  obtain ⟨l, hl⟩ := mem_iff_exists.mp hb
  refine h.label_induction (fun b _ n => ∃ p ∈ seeds, Steps r n p.1 b)
    (fun p hp => ⟨p, hp, .refl _⟩) ?_ b l hl
  rintro a l' n ha ⟨p, hp, hsteps⟩ q hq
  exact ⟨p, hp, hsteps.tail (hr a l' ha q hq)⟩

omit [LawfulEqOrd α] in
lemma Rooted.labelled_along {bound : ℕ} (h : Rooted expand seeds depth labels)
    (hclosed : ∀ a l, labels[a]? = some l → depth a + 1 < bound →
      ∀ p ∈ expand a l, p.1 ∈ labels ∧ depth p.1 ≤ depth a + 1)
    (hr : ∀ a l b, labels[a]? = some l → r a b → ∃ l', (b, l') ∈ expand a l) {n : ℕ}
    {b : α} (hp : p ∈ seeds) (hn : n < bound) (hsteps : Steps r n p.1 b) :
    b ∈ labels ∧ depth b ≤ n := by
  generalize hstart : p.1 = start at hsteps
  induction hsteps with
  | refl a =>
    subst hstart
    obtain ⟨hlabel, hzero⟩ := h.seeded p hp
    exact ⟨mem_of_getElem? hlabel, hzero.le⟩
  | @tail n a b c _ hbc ih =>
    obtain ⟨hb, hdepth⟩ := ih (by omega) hstart
    obtain ⟨l, hl⟩ := mem_iff_exists.mp hb
    obtain ⟨l', hmem⟩ := hr b l c hl hbc
    obtain ⟨hc, hle⟩ := hclosed b l hl (by omega) (c, l') hmem
    exact ⟨hc, hle.trans (Nat.add_le_add_right hdepth 1)⟩

omit [LawfulEqOrd α] in
theorem Complete.depth_le (h : Complete expand seeds depth labels)
    (hr : ∀ a l b, labels[a]? = some l → r a b → ∃ l', (b, l') ∈ expand a l) {n : ℕ}
    {b : α} (hp : p ∈ seeds) (hsteps : Steps r n p.1 b) : b ∈ labels ∧ depth b ≤ n :=
  h.rooted.labelled_along (fun a l ha _ => h.closed a l ha) hr hp (Nat.lt_succ_self n) hsteps

omit [LawfulEqOrd α] in
theorem Reached.depth_le {g : α} (h : Reached goal expand seeds depth labels g)
    (hr : ∀ a l b, labels[a]? = some l → r a b → ∃ l', (b, l') ∈ expand a l) {n : ℕ}
    (hp : p ∈ seeds) (hsteps : Steps r n p.1 g) : depth g ≤ n := by
  by_contra hlt
  have hearly := h.rooted.labelled_along h.closed hr hp (Nat.lt_of_not_le hlt) hsteps
  exact hlt hearly.2

variable (expand seeds) in
theorem mem_search_all (hr : ∀ a l b, (∃ l', (b, l') ∈ expand a l) ↔ r a b)
    (all : Finset α) (hall : ∀ a ∈ all, ∀ b, r a b → b ∈ all)
    (hnodup : (seeds.map Prod.fst).Nodup) (hseeds : ∀ p ∈ seeds, p.1 ∈ all)
    (hfuel : all.card ≤ fuel) (b : α) :
    b ∈ (loop (fun _ => false) expand fuel (start seeds)).labels ↔
      ∃ p ∈ seeds, Relation.ReflTransGen r p.1 b := by
  have hexpand : ∀ a ∈ all, ∀ l, ∀ p ∈ expand a l, p.1 ∈ all :=
    fun a ha l p hp => hall a ha p.1 ((hr a l p.1).mp ⟨p.2, hp⟩)
  obtain ⟨depth, hcomplete⟩ := search_all expand seeds all hexpand hnodup hseeds hfuel
  constructor
  · intro hb
    obtain ⟨p, hp, hsteps⟩ := hcomplete.rooted.steps (fun a l _ q hq => (hr a l q.1).mp ⟨q.2, hq⟩) hb
    exact ⟨p, hp, exists_steps_iff.mp ⟨_, hsteps⟩⟩
  · rintro ⟨p, hp, hreach⟩
    obtain ⟨n, hsteps⟩ := exists_steps_iff.mpr hreach
    exact (hcomplete.depth_le (fun a l b _ hab => (hr a l b).mpr hab) hp hsteps).1

end Search
