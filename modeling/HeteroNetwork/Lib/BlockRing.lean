import Mathlib

/-!
# Rings of connected parts

A graph is put together from parts that are joined in a ring, the exit of each part to the entry of the next
one.  If every part survives the loss of any one vertex, and has two distinct ports as soon as it has two
vertices, then so does the whole ring (`robust_of_ring`).
-/

namespace BlockRing

open List hiding Disjoint

variable {V : Type*} {G : SimpleGraph V}

/-- Connected, and still connected after the loss of any one vertex. -/
structure Robust (G : SimpleGraph V) (s : Set V) : Prop where
  connected : (G.induce s).Connected
  survives : ∀ v, (G.induce (s \ {v})).Preconnected

/-- Vertices with the two ports through which they join their neighbours. -/
structure Part (V : Type*) where
  carrier : Set V
  entry : V
  exit : V

/-- A part that keeps working without any one of its vertices.  Only a single vertex may serve as
both ports. -/
structure Part.Sound (G : SimpleGraph V) (p : Part V) : Prop where
  robust : Robust G p.carrier
  entry_mem : p.entry ∈ p.carrier
  exit_mem : p.exit ∈ p.carrier
  single : p.entry = p.exit → p.carrier = {p.entry}

def carriers (l : List (Part V)) : Set V := {v | ∃ p ∈ l, v ∈ p.carrier}

@[simp] lemma carriers_cons (p : Part V) (l : List (Part V)) :
    carriers (p :: l) = p.carrier ∪ carriers l := by
  ext v
  simp [carriers]

variable {l : List (Part V)}

lemma carriers_congr {l' : List (Part V)} (h : ∀ p, p ∈ l ↔ p ∈ l') : carriers l = carriers l' := by
  ext v
  simp [carriers, h]

variable {p : Part V}

lemma mem_carriers {v : V} (hp : p ∈ l) (hv : v ∈ p.carrier) : v ∈ carriers l := ⟨p, hp, hv⟩

lemma preconnected_of_subsingleton {s : Set V} (h : s.Subsingleton) : (G.induce s).Preconnected := by
  rintro ⟨a, ha⟩ ⟨b, hb⟩
  obtain rfl : a = b := h ha hb
  exact SimpleGraph.Reachable.refl _

lemma robust_singleton (v : V) : Robust G {v} where
  connected :=
    { preconnected := preconnected_of_subsingleton Set.subsingleton_singleton
      nonempty := ⟨v, rfl⟩ }
  survives _ := preconnected_of_subsingleton (Set.subsingleton_singleton.anti Set.sdiff_subset)

lemma robust_pair {a b : V} (h : G.Adj a b) : Robust G {a, b} where
  connected := SimpleGraph.induce_pair_connected_of_adj h
  survives v := by
    by_cases ha : v = a
    · refine preconnected_of_subsingleton (Set.subsingleton_singleton.anti (t := {b}) ?_)
      rintro x ⟨rfl | rfl, hx⟩
      · exact absurd ha.symm hx
      · rfl
    · by_cases hb : v = b
      · refine preconnected_of_subsingleton (Set.subsingleton_singleton.anti (t := {a}) ?_)
        rintro x ⟨rfl | rfl, hx⟩
        · rfl
        · exact absurd hb.symm hx
      · rw [Set.sdiff_singleton_eq_self]
        · exact (SimpleGraph.induce_pair_connected_of_adj h).preconnected
        · rintro (rfl | rfl)
          · exact ha rfl
          · exact hb rfl

/-! ## Paths of parts -/

lemma connected_of_chain (hl : l ≠ []) (hsound : ∀ p ∈ l, p.Sound G)
    (hchain : l.IsChain fun p q => G.Adj p.exit q.entry) : (G.induce (carriers l)).Connected := by
  induction l with
  | nil => exact absurd rfl hl
  | cons p l ih =>
    have hp := hsound p (by simp)
    rw [carriers_cons]
    cases l with
    | nil =>
      have hempty : carriers ([] : List (Part V)) = ∅ := by simp [carriers]
      rw [hempty, Set.union_empty]
      exact hp.robust.connected
    | cons q l =>
      rw [isChain_cons_cons] at hchain
      have hrest := ih (by simp) (fun r hr => hsound r (by simp [hr])) hchain.2
      have hq := hsound q (by simp)
      exact SimpleGraph.connected_induce_union hp.robust.connected.preconnected
        hrest.preconnected hp.exit_mem (mem_carriers (by simp) hq.entry_mem) hchain.1

/-! ## Rings -/

/-- The exit of each part is adjacent to the entry of the next one, around the list. -/
def IsRing (G : SimpleGraph V) (l : List (Part V)) : Prop :=
  ∀ (i : ℕ) (h : i < l.length),
    G.Adj (l.get ⟨i, h⟩).exit (l.get ⟨(i + 1) % l.length, Nat.mod_lt _ (by omega)⟩).entry

lemma IsRing.rotate (h : IsRing G l) (n : ℕ) : IsRing G (l.rotate n) := by
  intro i hi
  rw [length_rotate] at hi
  have hlink := h ((i + n) % l.length) (Nat.mod_lt _ (by omega))
  have hindex : ((i + n) % l.length + 1) % l.length = ((i + 1) % l.length + n) % l.length := by
    rw [Nat.mod_add_mod, Nat.mod_add_mod]
    congr 1
    omega
  simp only [get_eq_getElem, getElem_rotate, length_rotate] at hlink ⊢
  simp only [hindex] at hlink
  exact hlink

lemma IsRing.isChain (h : IsRing G l) : l.IsChain fun p q => G.Adj p.exit q.entry := by
  rw [isChain_iff_getElem]
  intro i hi
  have hlink := h i (by omega)
  simp only [get_eq_getElem, Nat.mod_eq_of_lt hi] at hlink
  exact hlink

lemma IsRing.closing {rest : List (Part V)} (h : IsRing G (p :: rest)) (hrest : rest ≠ []) :
    G.Adj (rest.getLast hrest).exit p.entry := by
  have hpos : 0 < rest.length := length_pos_iff.mpr hrest
  have hlink := h rest.length (by simp)
  simp only [length_cons, Nat.mod_self, get_eq_getElem] at hlink
  rw [getLast_eq_getElem]
  have hlast : (p :: rest)[rest.length] = rest[rest.length - 1] := by
    rw [getElem_cons, dif_neg hpos.ne']
  rw [hlast] at hlink
  exact hlink

lemma survives_head {rest : List (Part V)} (hrest : rest ≠ [])
    (hsound : ∀ q ∈ p :: rest, q.Sound G) (hring : IsRing G (p :: rest)) {v : V}
    (hfresh : v ∉ carriers rest) : (G.induce (carriers (p :: rest) \ {v})).Preconnected := by
  have hp := hsound p (by simp)
  have hsoundRest : ∀ q ∈ rest, q.Sound G := fun q hq => hsound q (by simp [hq])
  have hpath := connected_of_chain hrest hsoundRest hring.isChain.tail
  have hsplit : carriers (p :: rest) \ {v} = (p.carrier \ {v}) ∪ carriers rest := by
    rw [carriers_cons, Set.union_sdiff_distrib, Set.sdiff_singleton_eq_self hfresh]
  rw [hsplit]
  by_cases hexit : p.exit = v
  · by_cases hentry : p.entry = v
    · -- the part was this one vertex
      have hsingle := hp.single (hentry.trans hexit.symm)
      rw [hsingle, hentry, Set.sdiff_self, Set.empty_union]
      exact hpath.preconnected
    · have hlast := hsoundRest _ (getLast_mem hrest)
      refine (SimpleGraph.connected_induce_union (hp.robust.survives v) hpath.preconnected
        (v := p.entry) (w := (rest.getLast hrest).exit) ⟨hp.entry_mem, hentry⟩ ?_ ?_).preconnected
      · exact mem_carriers (getLast_mem hrest) hlast.exit_mem
      · exact (hring.closing hrest).symm
  · obtain ⟨q, tail, rfl⟩ := exists_cons_of_ne_nil hrest
    have hq := hsoundRest q (by simp)
    refine (SimpleGraph.connected_induce_union (hp.robust.survives v) hpath.preconnected
      (v := p.exit) (w := q.entry) ⟨hp.exit_mem, hexit⟩ ?_ ?_).preconnected
    · exact mem_carriers (by simp) hq.entry_mem
    · exact (isChain_cons_cons.mp hring.isChain).1

/-- **A ring of robust parts is robust.** -/
theorem robust_of_ring (htwo : 2 ≤ l.length) (hsound : ∀ p ∈ l, p.Sound G)
    (hdisjoint : l.Pairwise fun p q => Disjoint p.carrier q.carrier) (hring : IsRing G l) :
    Robust G (carriers l) := by
  have hl : l ≠ [] := ne_nil_of_length_pos (by omega)
  refine ⟨connected_of_chain hl hsound hring.isChain, fun v => ?_⟩
  by_cases hv : v ∈ carriers l
  · obtain ⟨p, hp, hvp⟩ := hv
    obtain ⟨i, hi, rfl⟩ := mem_iff_getElem.mp hp
    -- start the ring at the part that loses the vertex
    obtain ⟨rest, hrotate⟩ : ∃ rest, l.rotate i = l[i] :: rest := by
      rw [rotate_eq_drop_append_take hi.le, drop_eq_getElem_cons hi, cons_append]
      exact ⟨_, rfl⟩
    have hmem : ∀ q, q ∈ l ↔ q ∈ l[i] :: rest := fun q => by rw [← hrotate, mem_rotate]
    have hlength : rest.length + 1 = l.length := by
      have := congrArg List.length hrotate
      simpa using this.symm
    have hpairwise : (l[i] :: rest).Pairwise fun p q => Disjoint p.carrier q.carrier := by
      rw [← hrotate]
      exact (rotate_perm l i).symm.pairwise hdisjoint fun h => h.symm
    rw [carriers_congr hmem]
    refine survives_head (ne_nil_of_length_pos (by omega))
      (fun q hq => hsound q ((hmem q).mpr hq)) (hrotate ▸ hring.rotate i) ?_
    rintro ⟨q, hq, hvq⟩
    exact Set.disjoint_left.mp ((pairwise_cons.mp hpairwise).1 q hq) hvp hvq
  · rw [Set.sdiff_singleton_eq_self hv]
    exact (connected_of_chain hl hsound hring.isChain).preconnected

end BlockRing
