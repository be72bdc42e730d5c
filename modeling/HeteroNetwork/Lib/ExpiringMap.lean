import HeteroNetwork.Lib.OrderedMap
import HeteroNetwork.Lib.Runs

/-!
# Maps that forget

A bounded map whose entries are dropped once they are no longer live.  `rememberUnless` prunes the
map, then adds an entry unless its key is still there or the map is full; `remember` is the case of a
map that is full at a fixed size.
-/

namespace ExpiringMap

open Std (LawfulEqOrd TransOrd TreeMap)

open OrderedMap

variable {α β : Type*} [Ord α] [TransOrd α]

inductive Answer where
  | fresh
  | present
  | full
deriving DecidableEq

def remember (live : β → Bool) (capacity : ℕ) (key : α) (value : β) (m : TreeMap α β) :
    Answer × TreeMap α β :=
  let kept := m.filter fun _ v => live v
  if key ∈ kept then (.present, kept)
  else if kept.size ≥ capacity then (.full, kept)
  else (.fresh, kept.insert key value)

/-- The same with a check of its own for a full map. -/
def rememberUnless (full : TreeMap α β → Bool) (live : β → Bool) (key : α) (value : β)
    (m : TreeMap α β) : Answer × TreeMap α β :=
  let kept := m.filter fun _ v => live v
  if key ∈ kept then (.present, kept)
  else if full kept then (.full, kept)
  else (.fresh, kept.insert key value)

variable {full : TreeMap α β → Bool} {live : β → Bool} {capacity : ℕ} {key k : α} {value v : β}
  {m : TreeMap α β}

omit [TransOrd α] in
lemma remember_eq : remember live capacity key value m =
    rememberUnless (fun kept => capacity ≤ kept.size) live key value m := by
  simp only [remember, rememberUnless, ge_iff_le, decide_eq_true_eq]

lemma getElem?_kept [LawfulEqOrd α] (h : m[k]? = some v) (hlive : live v) :
    (m.filter fun _ v => live v)[k]? = some v := by
  rw [TreeMap.getElem?_filter', h, Option.filter_some, if_pos hlive]

lemma rememberUnless_kept [LawfulEqOrd α] (h : m[k]? = some v) (hlive : live v) :
    (rememberUnless full live key value m).2[k]? = some v := by
  have hkept := getElem?_kept h hlive
  simp only [rememberUnless]
  split_ifs with hmem hfull
  · exact hkept
  · exact hkept
  · have hne : key ≠ k := by
      rintro rfl
      exact hmem (mem_of_getElem? hkept)
    rw [getElem?_insert_ne hne, hkept]

lemma rememberUnless_fresh (h : (rememberUnless full live key value m).1 = .fresh) :
    (rememberUnless full live key value m).2[key]? = some value := by
  simp only [rememberUnless] at h ⊢
  split_ifs at h ⊢ with hmem hfull
  exact TreeMap.getElem?_insert_self

lemma rememberUnless_present [LawfulEqOrd α] (h : m[key]? = some v) (hlive : live v) :
    (rememberUnless full live key value m).1 = .present := by
  have hmem : key ∈ m.filter fun _ v => live v := mem_of_getElem? (getElem?_kept h hlive)
  rw [rememberUnless, if_pos hmem]

lemma remember_kept [LawfulEqOrd α] (h : m[k]? = some v) (hlive : live v) :
    (remember live capacity key value m).2[k]? = some v := by
  rw [remember_eq]
  exact rememberUnless_kept h hlive

lemma remember_fresh (h : (remember live capacity key value m).1 = .fresh) :
    (remember live capacity key value m).2[key]? = some value := by
  rw [remember_eq] at h ⊢
  exact rememberUnless_fresh h

lemma remember_present [LawfulEqOrd α] (h : m[key]? = some v) (hlive : live v) :
    (remember live capacity key value m).1 = .present := by
  rw [remember_eq]
  exact rememberUnless_present h hlive

/-! ## Memories along a run -/

section OneTime

variable {σ κ ρ : Type*} {step : σ → κ → ρ × σ} {accepts : ρ → Prop} {entry : σ → α → Option β}
  {keyOf : κ → α} {valueOf : κ → β} {keeps : κ → β → Prop} {s : σ} {calls : List κ}

/-- A machine that remembers what it has accepted; a call keeps the values that `keeps` names. -/
structure OneTime (step : σ → κ → ρ × σ) (accepts : ρ → Prop) (entry : σ → α → Option β)
    (keyOf : κ → α) (valueOf : κ → β) (keeps : κ → β → Prop) : Prop where
  kept : ∀ s call k v, entry s k = some v → keeps call v → entry (step s call).2 k = some v
  remembers : ∀ s call, accepts (step s call).1 →
    entry (step s call).2 (keyOf call) = some (valueOf call)
  refuses : ∀ s call v, entry s (keyOf call) = some v → keeps call v → ¬accepts (step s call).1

/-- Two accepted calls differ in their key or their value. -/
def UsedOnce (accepts : ρ → Prop) (keyOf : κ → α) (valueOf : κ → β) (e e' : κ × ρ) : Prop :=
  accepts e.2 → accepts e'.2 → ¬(keyOf e.1 = keyOf e'.1 ∧ valueOf e.1 = valueOf e'.1)

omit [Ord α] [TransOrd α] in
/-- **Nothing is accepted twice** in a run whose calls keep every value between two calls with it, the
second of them included. -/
theorem OneTime.used_once (h : OneTime step accepts entry keyOf valueOf keeps)
    (hkeeps : ∀ before call middle call' after, calls = before ++ call :: (middle ++ call' :: after) →
      keyOf call = keyOf call' → valueOf call = valueOf call' →
      ∀ c ∈ middle ++ [call'], keeps c (valueOf call)) :
    (Runs.trace step s calls).Pairwise (UsedOnce accepts keyOf valueOf) := by
  induction calls generalizing s with
  | nil => exact .nil
  | cons call calls ih =>
    refine List.pairwise_cons.mpr ⟨fun e he hok hok' => ?_, ih fun before c middle c' after heq =>
      hkeeps (call :: before) c middle c' after (by rw [heq]; rfl)⟩
    obtain ⟨middle, call', after, rfl, rfl⟩ := Runs.mem_trace.mp he
    rintro ⟨hkey, hvalue⟩
    have hbetween := hkeeps [] call middle call' after rfl hkey hvalue
    have hentry : entry (Runs.exec step (step s call).2 middle) (keyOf call) = some (valueOf call) :=
      Runs.exec_invariant (fun s => entry s (keyOf call) = some (valueOf call))
        (fun c hc s hs => h.kept s c _ _ hs (hbetween c (List.mem_append_left _ hc)))
        (h.remembers s call hok)
    exact h.refuses _ call' _ (hkey ▸ hentry) (hbetween call' (by simp)) hok'

end OneTime

end ExpiringMap
