import Mathlib

/-!
# Rule lists in which a denial wins

A list of rules is read from the front.  A rule that applies and denies ends the reading; one that applies
and allows is remembered.  Something is granted when an allowing rule applies and no denying one does, in
whatever order (`verdict_iff`).
-/

namespace DenyOverrides

variable {ρ : Type*} (applies denies : ρ → Bool)

def scan : Option Bool → List ρ → Option Bool
  | allowed, [] => allowed
  | allowed, rule :: rules =>
    if !applies rule then scan allowed rules
    else if denies rule then some false
    else scan (some true) rules

def verdict (rules : List ρ) : Bool := (scan applies denies none rules).getD false

variable {applies denies} {applies' : ρ → Bool} {rules rules' : List ρ}

lemma scan_getD_iff {allowed : Option Bool} :
    (scan applies denies allowed rules).getD false = true ↔
      (allowed.getD false = true ∨ ∃ rule ∈ rules, applies rule = true ∧ denies rule = false) ∧
        ∀ rule ∈ rules, applies rule = true → denies rule = false := by
  induction rules generalizing allowed with
  | nil => simp [scan]
  | cons rule rules ih =>
    simp only [scan, List.mem_cons, exists_eq_or_imp, forall_eq_or_imp]
    cases happlies : applies rule with
    | false => simp [ih]
    | true =>
      cases hdenies : denies rule with
      | true => simp
      | false => simp [ih]

theorem verdict_iff :
    verdict applies denies rules = true ↔
      (∃ rule ∈ rules, applies rule = true ∧ denies rule = false) ∧
        ∀ rule ∈ rules, applies rule = true → denies rule = false := by
  rw [verdict, scan_getD_iff]
  simp

theorem verdict_perm (h : rules.Perm rules') :
    verdict applies denies rules = verdict applies denies rules' := by
  rw [Bool.eq_iff_iff, verdict_iff, verdict_iff]
  simp only [h.mem_iff]

theorem verdict_mono
    (hallow : ∀ rule ∈ rules, denies rule = false → applies rule = true → applies' rule = true)
    (hdeny : ∀ rule ∈ rules, denies rule = true → applies' rule = true → applies rule = true)
    (h : verdict applies denies rules = true) : verdict applies' denies rules = true := by
  obtain ⟨⟨rule, hrule, happlies, hallows⟩, hnone⟩ := verdict_iff.mp h
  refine verdict_iff.mpr ⟨⟨rule, hrule, hallow rule hrule hallows happlies, hallows⟩, ?_⟩
  intro rule hrule happlies'
  by_contra hdenies
  rw [Bool.not_eq_false] at hdenies
  rw [hnone rule hrule (hdeny rule hrule hdenies happlies')] at hdenies
  cases hdenies

end DenyOverrides
