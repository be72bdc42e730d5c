import HeteroNetwork.Lib.Search

/-!
# Paths out of a search

The path that `reconstruct` collects from predecessors is a shortest one, and the same for every map that
extends the labels.  A search that stops at a goal has labelled nothing that a full search would label otherwise.
-/

namespace Search

open OrderedMap List Std.TreeMap
open Std (LawfulEqOrd TransOrd TreeMap)

structure Trail {α : Type*} (r : α → α → Prop) (a b : α) (p : List α) : Prop where
  head : p.head? = some a
  last : p.getLast? = some b
  chain : p.IsChain r

namespace Trail

variable {α β : Type*} {r r' : α → α → Prop} {a b c : α} {p : List α} {n : ℕ}

lemma single (a : α) : Trail r a a [a] := ⟨rfl, rfl, .singleton a⟩

lemma ne_nil (h : Trail r a b p) : p ≠ [] := by
  rintro rfl
  cases h.head

lemma concat (h : Trail r a b p) (hbc : r b c) : Trail r a c (p ++ [c]) := by
  refine ⟨?_, getLast?_concat, isChain_append.mpr ⟨h.chain, .singleton c, ?_⟩⟩
  · rw [head?_append_of_ne_nil _ h.ne_nil, h.head]
  · intro x hx y hy
    rw [h.last, Option.mem_some_iff] at hx
    rw [head?_singleton, Option.mem_some_iff] at hy
    rwa [← hx, ← hy]

lemma cons (hab : r a b) (h : Trail r b c p) : Trail r a c (a :: p) := by
  refine ⟨rfl, ?_, isChain_cons.mpr ⟨fun x hx => ?_, h.chain⟩⟩
  · rw [getLast?_cons, h.last]
    rfl
  · rw [h.head, Option.mem_some_iff] at hx
    rwa [← hx]

lemma mono (h : Trail r a b p) (hr : ∀ x ∈ p, ∀ y ∈ p, r x y → r' x y) : Trail r' a b p :=
  ⟨h.head, h.last, h.chain.imp_of_mem_imp fun x y hx hy hxy => hr x hx y hy hxy⟩

lemma map {s : β → β → Prop} (f : α → β) (h : Trail r a b p) (hr : ∀ x y, r x y → s (f x) (f y)) :
    Trail s (f a) (f b) (p.map f) := by
  refine ⟨by rw [head?_map, h.head]; rfl, by rw [getLast?_map, h.last]; rfl, ?_⟩
  exact (isChain_map f).mpr (h.chain.imp hr)

lemma start_mem (h : Trail r a b p) : a ∈ p := mem_of_mem_head? h.head

lemma of_concat (h : Trail r a b (p ++ [c])) :
    c = b ∧ (p = [] ∧ b = a ∨ ∃ d, Trail r a d p ∧ r d b) := by
  obtain rfl : c = b := by simpa using h.last
  refine ⟨rfl, ?_⟩
  by_cases hnil : p = []
  · subst hnil
    exact .inl ⟨rfl, by simpa using h.head⟩
  · right
    obtain ⟨hchain, -, hlink⟩ := isChain_append.mp h.chain
    have hhead := h.head
    rw [head?_append_of_ne_nil _ hnil] at hhead
    have hlast := getLast?_eq_some_getLast hnil
    exact ⟨p.getLast hnil, ⟨hhead, hlast, hchain⟩, hlink _ hlast c (by simp)⟩

lemma forall_mem (h : Trail r a b p) {P : α → Prop} (hstart : P a) (hstep : ∀ x y, r x y → P y) :
    ∀ x ∈ p, P x := by
  induction p using List.reverseRecOn generalizing b with
  | nil => cases h.head
  | append_singleton p c ih =>
    intro x hx
    obtain ⟨rfl, ⟨rfl, rfl⟩ | ⟨d, hinit, hlink⟩⟩ := h.of_concat
    · rwa [mem_singleton.mp hx]
    · rcases mem_append.mp hx with hx | hx
      · exact ih hinit x hx
      · rw [mem_singleton.mp hx]
        exact hstep d c hlink

lemma steps (h : Trail r a b p) : Steps r (p.length - 1) a b := by
  induction p using List.reverseRecOn generalizing b with
  | nil => cases h.head
  | append_singleton p c ih =>
    obtain ⟨rfl, ⟨rfl, rfl⟩ | ⟨d, hinit, hlink⟩⟩ := h.of_concat
    · exact .refl c
    · have hpos := length_pos_iff.mpr hinit.ne_nil
      have hsteps := (ih hinit).tail hlink
      rw [Nat.sub_add_cancel hpos] at hsteps
      simpa using hsteps

end Trail

section Walks

variable {α : Type*} {r : α → α → Prop} {a b : α} {n : ℕ}

lemma Steps.head {c : α} (hab : r a b) (h : Steps r n b c) : Steps r (n + 1) a c := by
  induction h with
  | refl b => exact (Steps.refl a).tail hab
  | tail _ hcd ih => exact (ih hab).tail hcd

lemma Steps.exists_trail (h : Steps r n a b) : ∃ p, Trail r a b p ∧ p.length = n + 1 := by
  induction h with
  | refl a => exact ⟨[a], .single a, rfl⟩
  | tail _ hbc ih =>
    obtain ⟨p, hp, hlength⟩ := ih
    exact ⟨_, hp.concat hbc, by rw [length_append, hlength, length_singleton]⟩

end Walks

/-! ## Back to the source -/

section Reconstruct

variable {α : Type*} [Ord α] [DecidableEq α]

/-- Follow the predecessors back to the source, collecting the vertices on the way. -/
def reconstruct (source : α) (predecessor : TreeMap α α) : ℕ → α → List α → Option (List α)
  | 0, _, _ => none
  | fuel + 1, cursor, path =>
    if cursor = source then some path
    else match predecessor[cursor]? with
      | none => none
      | some previous => reconstruct source predecessor fuel previous (previous :: path)

lemma reconstruct_trail {source b : α} {predecessor : TreeMap α α} {trail : List α}
    (h : Trail (fun x y => predecessor[y]? = some x ∧ y ≠ source) source b trail) {fuel : ℕ}
    (hfuel : trail.length ≤ fuel) (rest : List α) :
    reconstruct source predecessor fuel b (b :: rest) = some (trail ++ rest) := by
  induction trail using List.reverseRecOn generalizing b fuel rest with
  | nil => cases h.head
  | append_singleton trail c ih =>
    rw [length_append, length_singleton] at hfuel
    obtain ⟨fuel, rfl⟩ : ∃ n, fuel = n + 1 := ⟨fuel - 1, by omega⟩
    obtain ⟨rfl, ⟨rfl, rfl⟩ | ⟨d, hinit, hprevious, hne⟩⟩ := h.of_concat
    · simp [reconstruct]
    · rw [reconstruct, if_neg hne, hprevious]
      dsimp only
      rw [ih hinit (by omega) (c :: rest), append_assoc]
      rfl

end Reconstruct

section Predecessors

variable {α L : Type*} [Ord α] [TransOrd α] [LawfulEqOrd α] {goal : α → Bool}
  {expand : α → L → List (α × L)} {pred : L → α} {source : α} {seed : L} {depth : α → ℕ}
  {labels : TreeMap α L}

omit [LawfulEqOrd α] in
lemma Rooted.exists_trail (h : Rooted expand [(source, seed)] depth labels)
    (hpred : ∀ a l, ∀ p ∈ expand a l, pred p.2 = a) {b : α} (hb : b ∈ labels) :
    ∃ trail, trail.length = depth b + 1 ∧
      Trail (fun x y => (∃ l, labels[y]? = some l ∧ pred l = x ∧ ∃ l', (y, l) ∈ expand x l') ∧
        y ≠ source ∧ depth y = depth x + 1) source b trail := by
  have hzero : depth source = 0 := (h.seeded (source, seed) (by simp)).2
  have hdepth : ∀ n, ∀ b ∈ labels, depth b = n → ∃ trail, trail.length = n + 1 ∧
      Trail (fun x y => (∃ l, labels[y]? = some l ∧ pred l = x ∧ ∃ l', (y, l) ∈ expand x l') ∧
        y ≠ source ∧ depth y = depth x + 1) source b trail := by
    intro n
    induction n with
    | zero =>
      intro b hb hdepth
      obtain ⟨l, hl⟩ := mem_iff_exists.mp hb
      rcases h.origin b l hl with hseed | ⟨a, l', -, -, ha⟩
      · obtain ⟨rfl, -⟩ := Prod.mk.inj (mem_singleton.mp hseed)
        exact ⟨[b], rfl, .single b⟩
      · omega
    | succ n ih =>
      intro b hb hdepth
      obtain ⟨l, hl⟩ := mem_iff_exists.mp hb
      have hne : b ≠ source := by
        rintro rfl
        omega
      rcases h.origin b l hl with hseed | ⟨a, l', ha, hmem, hab⟩
      · exact absurd (Prod.mk.inj (mem_singleton.mp hseed)).1 hne
      · obtain ⟨trail, hlength, htrail⟩ := ih a (mem_of_getElem? ha) (by omega)
        refine ⟨trail ++ [b], by simp [hlength], htrail.concat ?_⟩
        exact ⟨⟨l, hl, hpred a l' (b, l) hmem, l', hmem⟩, hne, hab⟩
  exact hdepth (depth b) b hb rfl

omit [TransOrd α] [LawfulEqOrd α] in
lemma Rooted.exists_depth {seeds : List (α × L)} (h : Rooted expand seeds depth labels) {n : ℕ} :
    ∀ b l, labels[b]? = some l → depth b = n → ∀ k ≤ n, ∃ a l', labels[a]? = some l' ∧ depth a = k := by
  induction n with
  | zero =>
    intro b l hb hdepth k hk
    exact ⟨b, l, hb, by omega⟩
  | succ n ih =>
    intro b l hb hdepth k hk
    by_cases hlast : k = n + 1
    · exact ⟨b, l, hb, by omega⟩
    · rcases h.origin b l hb with hseed | ⟨a, l', ha, -, hab⟩
      · have hzero := (h.seeded _ hseed).2
        dsimp only at hzero
        omega
      · exact ih a l' ha (by omega) k (by omega)

omit [LawfulEqOrd α] in
lemma Rooted.depth_lt_card {seeds : List (α × L)} (h : Rooted expand seeds depth labels)
    {all : Finset α} (hall : ∀ a ∈ labels, a ∈ all) {b : α} (hb : b ∈ labels) : depth b < all.card := by
  obtain ⟨l, hl⟩ := mem_iff_exists.mp hb
  have hsub : Finset.range (depth b + 1) ⊆ all.image depth := by
    intro k hk
    rw [Finset.mem_range] at hk
    obtain ⟨a, l', ha, hak⟩ := h.exists_depth b l hl rfl k (by omega)
    exact Finset.mem_image.mpr ⟨a, hall a (mem_of_getElem? ha), hak⟩
  have hcard := (Finset.card_le_card hsub).trans Finset.card_image_le
  rwa [Finset.card_range] at hcard

omit [Ord α] [TransOrd α] [LawfulEqOrd α] in
lemma nodup_of_depth {r : α → α → Prop} (depth : α → ℕ) {a b : α} {trail : List α}
    (h : Trail r a b trail) (hdepth : ∀ x y, r x y → depth x < depth y) : trail.Nodup := by
  have htrans : Trans (fun x y : α => depth x < depth y) (fun x y => depth x < depth y)
      (fun x y => depth x < depth y) := ⟨fun hxy hyz => lt_trans hxy hyz⟩
  have hpairwise := (h.chain.imp fun x y hxy => hdepth x y hxy).pairwise
  exact nodup_iff_pairwise_ne.mpr (hpairwise.imp fun hlt heq => (heq ▸ hlt).false)

lemma length_le_size {m : TreeMap α L} {l : List α} (hnodup : l.Nodup) (hmem : ∀ x ∈ l, x ∈ m) :
    l.length ≤ m.size := by
  rw [← length_keys]
  exact (hnodup.subperm fun x hx => mem_keys.mpr (hmem x hx)).length_le

/-- What a search for one vertex has found: nothing, since there is no walk, or a shortest walk
without repetitions along the labels. -/
inductive Found (expand : α → L → List (α × L)) (pred : L → α) (r : α → α → Prop)
    (source destination : α) (s : State α L) : Prop
  | nothing (hfound : s.found = false) (hunlabelled : destination ∉ s.labels)
      (hclosed : ∀ a ∈ s.labels, ∀ b, r a b → b ∈ s.labels)
      (hnone : ∀ p, ¬Trail r source destination p)
  | path (hfound : s.found = true) (trail : List α) (hnodup : trail.Nodup)
      (hlabelled : ∀ x ∈ trail, x ∈ s.labels)
      (htrail : Trail (fun x y => r x y ∧ y ≠ source ∧
        ∃ l, s.labels[y]? = some l ∧ pred l = x ∧ ∃ l', (y, l) ∈ expand x l')
        source destination trail)
      (hshortest : ∀ p, Trail r source destination p → trail.length ≤ p.length)

variable (goal expand pred source seed) in
/-- **A search for one vertex.** -/
theorem search_path {r : α → α → Prop} {destination : α} (hgoal : ∀ b, goal b = true ↔ b = destination)
    (hr : ∀ a l b, (∃ l', (b, l') ∈ expand a l) ↔ r a b)
    (hpred : ∀ a l, ∀ p ∈ expand a l, pred p.2 = a) (all : Finset α)
    (hall : ∀ a ∈ all, ∀ b, r a b → b ∈ all) (hsource : source ∈ all) {fuel : ℕ}
    (hfuel : all.card ≤ fuel) (hne : source ≠ destination) :
    Found expand pred r source destination (loop goal expand fuel (start [(source, seed)])) := by
  have hexpand : ∀ a ∈ all, ∀ l, ∀ p ∈ expand a l, p.1 ∈ all :=
    fun a ha l p hp => hall a ha p.1 ((hr a l p.1).mp ⟨p.2, hp⟩)
  have hout := search_spec goal expand [(source, seed)] all hexpand (by simp) (by simpa using hsource)
    hfuel
  generalize loop goal expand fuel (start [(source, seed)]) = s at hout
  have hwalk : ∀ a l b, s.labels[a]? = some l → r a b → ∃ l', (b, l') ∈ expand a l :=
    fun a l b _ hab => (hr a l b).mpr hab
  cases hout with
  | dry depth hfound hcomplete hnone =>
    have hunlabelled : destination ∉ s.labels := by
      intro hlabelled
      have hseed := hnone destination hlabelled ((hgoal destination).mpr rfl)
      simp only [map_cons, map_nil, mem_singleton] at hseed
      exact hne hseed.symm
    refine .nothing hfound hunlabelled ?_ fun p hp => hunlabelled ?_
    · intro a ha b hab
      obtain ⟨l, hl⟩ := mem_iff_exists.mp ha
      obtain ⟨l', hmem⟩ := (hr a l b).mpr hab
      exact (hcomplete.closed a l hl _ hmem).1
    · exact (hcomplete.depth_le hwalk (p := (source, seed)) (by simp) hp.steps).1
  | met depth g hfound hreached =>
    obtain rfl : g = destination := (hgoal g).mp hreached.goal
    obtain ⟨trail, hlength, htrail⟩ := hreached.rooted.exists_trail hpred hreached.labelled
    refine .path hfound trail (nodup_of_depth depth htrail fun x y h => ?_) ?_ ?_ ?_
    · exact Nat.lt_of_lt_of_eq (Nat.lt_succ_self _) h.2.2.symm
    · refine htrail.forall_mem
        (mem_of_getElem? (hreached.rooted.seeded (source, seed) (by simp)).1) fun x y hxy => ?_
      obtain ⟨⟨l, hl, -⟩, -⟩ := hxy
      exact mem_of_getElem? hl
    · refine htrail.mono fun x _ y _ hxy => ?_
      obtain ⟨⟨l, hl, hpredl, l', hmem⟩, hsource, -⟩ := hxy
      exact ⟨(hr x l' y).mp ⟨l, hmem⟩, hsource, l, hl, hpredl, l', hmem⟩
    · intro p hp
      have hle := hreached.depth_le hwalk (p := (source, seed)) (by simp) hp.steps
      have hpos := length_pos_iff.mpr hp.ne_nil
      omega

end Predecessors

section Comparison

variable {α L : Type*} [Ord α] [TransOrd α] [LawfulEqOrd α] {goal : α → Bool}
  {expand : α → L → List (α × L)} {a : α} {l : L}

lemma scan_keeps {targets : List (α × L)} {s : State α L} (h : s.labels[a]? = some l) :
    (scan goal targets s).labels[a]? = some l := by
  induction targets generalizing s with
  | nil => exact h
  | cons target rest ih =>
    rw [scan]
    split_ifs with hknown hgoal
    · exact ih h
    · exact (getElem?_insert_eq_some fun hmem => hknown (contains_iff_mem.mpr hmem)).mpr
        (.inl h)
    · refine ih ?_
      exact (getElem?_insert_eq_some fun hmem => hknown (contains_iff_mem.mpr hmem)).mpr
        (.inl h)

lemma loop_keeps {fuel : ℕ} {s : State α L} (h : s.labels[a]? = some l) :
    (loop goal expand fuel s).labels[a]? = some l := by
  induction fuel generalizing s with
  | zero => exact h
  | succ fuel ih =>
    rw [loop]
    split_ifs
    · exact h
    · split
      · exact h
      · split
        · exact ih h
        · exact ih (scan_keeps h)

lemma scan_sub (goal : α → Bool) (targets : List (α × L)) (s : State α L) (hs : s.found = false) :
    ((scan goal targets s).found = false ∧ scan goal targets s = scan (fun _ => false) targets s) ∨
    ((scan goal targets s).found = true ∧ ∀ (a : α) l, (scan goal targets s).labels[a]? = some l →
      (scan (fun _ => false) targets s).labels[a]? = some l) := by
  induction targets generalizing s with
  | nil => exact .inl ⟨hs, rfl⟩
  | cons target rest ih =>
    obtain ⟨b, l⟩ := target
    rw [scan, scan]
    by_cases hknown : s.labels.contains b = true
    · rw [if_pos hknown, if_pos hknown]
      exact ih s hs
    · rw [if_neg hknown, if_neg hknown, if_neg Bool.false_ne_true]
      by_cases hgoal : goal b = true
      · rw [if_pos hgoal]
        exact .inr ⟨rfl, fun a x hx => scan_keeps hx⟩
      · rw [if_neg hgoal]
        exact ih _ hs

lemma loop_sub (goal : α → Bool) (expand : α → L → List (α × L)) (fuel : ℕ) (s : State α L)
    (hs : s.found = false) (h : (loop goal expand fuel s).labels[a]? = some l) :
    (loop (fun _ => false) expand fuel s).labels[a]? = some l := by
  induction fuel generalizing s with
  | zero => exact h
  | succ fuel ih =>
    have hgo : ¬s.found = true := by simp [hs]
    rw [loop, if_neg hgo] at h ⊢
    cases hqueue : s.queue with
    | nil =>
      rw [hqueue] at h
      exact h
    | cons b rest =>
      rw [hqueue] at h
      cases hlabel : s.labels[b]? with
      | none =>
        simp only [hlabel] at h ⊢
        exact ih _ hs h
      | some x =>
        simp only [hlabel] at h ⊢
        rcases scan_sub goal (expand b x) { s with queue := rest } hs with
          ⟨hfound, heq⟩ | ⟨hfound, hsub⟩
        · rw [heq] at h hfound
          exact ih _ hfound h
        · have hstay : loop goal expand fuel (scan goal (expand b x) { s with queue := rest }) =
              scan goal (expand b x) { s with queue := rest } := by
            cases fuel <;> simp [loop, hfound]
          rw [hstay] at h
          exact loop_keeps (hsub a l h)

end Comparison

section Renaming

variable {α β L M : Type*} [Ord α] [TransOrd α] [LawfulEqOrd α]
  [Ord β] [TransOrd β] [LawfulEqOrd β]

/-- The second search is the first one under other names. -/
structure Mirrors (f : α → β) (g : L → M) (all : Finset α) (s : State α L) (s' : State β M) : Prop where
  queue : s'.queue = s.queue.map f
  queued : ∀ a ∈ s.queue, a ∈ all
  labels : ∀ a ∈ all, s'.labels[f a]? = s.labels[a]?.map g
  found : s'.found = s.found

variable {f : α → β} {g : L → M} {all : Finset α} {goal : α → Bool} {goal' : β → Bool}
  {expand : α → L → List (α × L)} {expand' : β → M → List (β × M)} {s : State α L} {s' : State β M}

lemma Mirrors.insert {labels : TreeMap α L} {labels' : TreeMap β M}
    (hinj : ∀ a ∈ all, ∀ b ∈ all, f a = f b → a = b)
    (h : ∀ a ∈ all, labels'[f a]? = labels[a]?.map g) {b : α} (hb : b ∈ all) (l : L) :
    ∀ a ∈ all, (labels'.insert (f b) (g l))[f a]? = (labels.insert b l)[a]?.map g := by
  intro a ha
  by_cases hab : b = a
  · subst hab
    rw [getElem?_insert_self, getElem?_insert_self]
    rfl
  · rw [getElem?_insert_ne hab, getElem?_insert_ne fun heq => hab (hinj b hb a ha heq), h a ha]

lemma Mirrors.start (hinj : ∀ a ∈ all, ∀ b ∈ all, f a = f b → a = b) {a : α} (ha : a ∈ all) (l : L) :
    Mirrors f g all (start [(a, l)]) (start [(f a, g l)]) := by
  refine ⟨rfl, fun b hb => ?_, fun b hb => ?_, rfl⟩
  · rwa [mem_singleton.mp hb]
  · have hnone : ∀ b ∈ all, (∅ : TreeMap β M)[f b]? = (∅ : TreeMap α L)[b]?.map g := by
      intro b _
      rw [getElem?_emptyc, getElem?_emptyc]
      rfl
    exact Mirrors.insert hinj hnone ha l b hb

lemma Mirrors.scan (hinj : ∀ a ∈ all, ∀ b ∈ all, f a = f b → a = b)
    (hgoal : ∀ a ∈ all, goal' (f a) = goal a) {targets : List (α × L)} (h : Mirrors f g all s s')
    (htargets : ∀ p ∈ targets, p.1 ∈ all) :
    Mirrors f g all (scan goal targets s) (scan goal' (targets.map fun p => (f p.1, g p.2)) s') := by
  induction targets generalizing s s' with
  | nil => exact h
  | cons target rest ih =>
    obtain ⟨b, l⟩ := target
    have hb : b ∈ all := htargets (b, l) mem_cons_self
    have hrest : ∀ p ∈ rest, p.1 ∈ all := fun p hp => htargets p (mem_cons_of_mem _ hp)
    have hknown : s'.labels.contains (f b) = s.labels.contains b := by
      rw [contains_eq_isSome_getElem?, contains_eq_isSome_getElem?,
        h.labels b hb, Option.isSome_map]
    rw [map_cons, Search.scan, Search.scan, hknown, hgoal b hb]
    split_ifs
    · exact ih h hrest
    · exact ⟨h.queue, h.queued, Mirrors.insert hinj h.labels hb l, rfl⟩
    · refine ih ⟨?_, ?_, Mirrors.insert hinj h.labels hb l, h.found⟩ hrest
      · simp [h.queue]
      · intro a ha
        rcases mem_append.mp ha with ha | ha
        · exact h.queued a ha
        · rwa [mem_singleton.mp ha]

variable (goal goal' expand expand') in
lemma loop_map (hinj : ∀ a ∈ all, ∀ b ∈ all, f a = f b → a = b)
    (hgoal : ∀ a ∈ all, goal' (f a) = goal a)
    (hexpand : ∀ a ∈ all, ∀ l, expand' (f a) (g l) = (expand a l).map fun p => (f p.1, g p.2))
    (hall : ∀ a ∈ all, ∀ l, ∀ p ∈ expand a l, p.1 ∈ all) (fuel : ℕ) (h : Mirrors f g all s s') :
    Mirrors f g all (loop goal expand fuel s) (loop goal' expand' fuel s') := by
  induction fuel generalizing s s' with
  | zero => exact h
  | succ fuel ih =>
    rw [loop, loop, h.found, h.queue]
    split_ifs
    · exact h
    · cases hqueue : s.queue with
      | nil => exact h
      | cons a rest =>
        have ha : a ∈ all := h.queued a (by simp [hqueue])
        have hrest : Mirrors f g all { s with queue := rest }
            { s' with queue := rest.map f, found := s.found } :=
          ⟨rfl, fun b hb => h.queued b (by simp [hqueue, hb]), h.labels, rfl⟩
        simp only [map_cons, h.labels a ha]
        cases hlabel : s.labels[a]? with
        | none => exact ih hrest
        | some l =>
          simp only [Option.map_some, hexpand a ha l]
          exact ih (hrest.scan hinj hgoal (hall a ha l))

end Renaming

end Search
