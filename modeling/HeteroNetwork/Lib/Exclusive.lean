import Mathlib

/-!
# Exclusive assignments

Holders each hold at most one value, and no value is held twice.  The rules say how such an assignment
may change: a holder takes a value nobody has, hands its value to another holder, or gives it up.
-/

def Exclusive {α β : Type*} (held : α → Option β) : Prop :=
  ∀ ⦃a a' b⦄, held a = some b → held a' = some b → a = a'

namespace Exclusive

open Function

variable {α β : Type*} [DecidableEq α] {held : α → Option β} {a a' : α} {b : β}

lemma release (h : Exclusive held) (a : α) : Exclusive (update held a none) := by
  intro c c' b hc hc'
  have hold : ∀ d, update held a none d = some b → held d = some b := by
    intro d hd
    by_cases hda : d = a
    · rw [hda, update_self] at hd
      cases hd
    · rwa [update_of_ne hda] at hd
  exact h (hold c hc) (hold c' hc')

lemma take (h : Exclusive held) (hfree : ∀ c, held c ≠ some b) :
    Exclusive (update held a (some b)) := by
  have hother : ∀ {c d}, c ≠ a → update held a (some b) c = some d →
      update held a (some b) a ≠ some d := by
    intro c d hc hcd had
    rw [update_self] at had
    rw [update_of_ne hc, ← had] at hcd
    exact hfree c hcd
  intro c c' d hc hc'
  by_cases hca : c = a
  · by_cases hca' : c' = a
    · rw [hca, hca']
    · exact absurd (hca ▸ hc) (hother hca' hc')
  · by_cases hca' : c' = a
    · exact absurd (hca' ▸ hc') (hother hca hc)
    · rw [update_of_ne hca] at hc
      rw [update_of_ne hca'] at hc'
      exact h hc hc'

lemma move (h : Exclusive held) (ha : held a = some b) :
    Exclusive (update (update held a none) a' (some b)) := by
  refine (h.release a).take fun c hc => ?_
  by_cases hca : c = a
  · rw [hca, update_self] at hc
    cases hc
  · rw [update_of_ne hca] at hc
    exact hca (h hc ha)

end Exclusive
