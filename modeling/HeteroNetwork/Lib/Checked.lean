import Mathlib

/-!
# Early returns

Fallible code in the shape `if bad { return Err(e) }` is an `Except` block made of `rejectIf`
steps.  The two lemmas below turn the success of such a block into the conjunction of the
conditions it checked, so that a caller never unfolds the block itself.
-/

namespace Checked

universe u v

variable {ε : Type u} {α β : Type v}

def rejectIf (bad : Prop) [Decidable bad] (error : ε) : Except ε Unit :=
  if bad then .error error else .ok ()

variable {γ : Type*} {bad : Prop} {error : ε}

@[simp] lemma rejectIf_eq_ok [Decidable bad] {u : Unit} : rejectIf bad error = .ok u ↔ ¬bad := by
  by_cases h : bad <;> simp [rejectIf, h]

def orError (o : Option α) (error : ε) : Except ε α :=
  match o with
  | some a => .ok a
  | none => .error error

@[simp] lemma orError_eq_ok {o : Option α} {a : α} : orError o error = .ok a ↔ o = some a := by
  cases o with
  | none | some => simp [orError]

@[simp] lemma bind_eq_ok {x : Except ε α} {f : α → Except ε β} {b : β} :
    x >>= f = .ok b ↔ ∃ a, x = .ok a ∧ f a = .ok b := by
  cases x with
  | error | ok => simp [bind, Except.bind]

@[simp] lemma ok_bind (a : α) (f : α → Except ε β) : (.ok a : Except ε α) >>= f = f a := rfl

@[simp] lemma error_bind (e : ε) (f : α → Except ε β) :
    (.error e : Except ε α) >>= f = .error e := rfl

lemma rejectIf_bind {ε : Type u} {α : Type} [Decidable bad] {error : ε} {f : Unit → Except ε α} :
    (rejectIf bad error >>= f) = if bad then .error error else f () := by
  by_cases h : bad
  · rw [rejectIf, if_pos h, if_pos h, error_bind]
  · rw [rejectIf, if_neg h, if_neg h, ok_bind]

@[simp] lemma pure_eq_ok_iff {a b : α} : (pure a : Except ε α) = .ok b ↔ a = b := by
  simp [pure, Except.pure]

lemma mapError_eq_ok {ε ε' α : Type} {x : Except ε α} {f : ε → ε'} {a : α} :
    x.mapError f = .ok a ↔ x = .ok a := by
  cases x with
  | error | ok => simp [Except.mapError]

lemma mapM_eq_ok {f : γ → Except ε β} {l : List γ} {bs : List β} :
    l.mapM f = .ok bs ↔ l.map f = bs.map .ok := by
  induction l generalizing bs with
  | nil =>
    simp only [List.mapM_nil, pure_eq_ok_iff, List.map_nil]
    exact ⟨fun h => by rw [← h]; rfl, fun h => (List.map_eq_nil_iff.mp h.symm).symm⟩
  | cons a l ih =>
    simp only [List.mapM_cons, bind_eq_ok, pure_eq_ok_iff, List.map_cons, ih]
    constructor
    · rintro ⟨b, hb, bs', hbs', rfl⟩
      rw [hb, hbs', List.map_cons]
    · intro h
      obtain ⟨b, bs', rfl, hb, hbs'⟩ := List.map_eq_cons_iff.mp h.symm
      exact ⟨b, hb.symm, bs', hbs'.symm, rfl⟩

lemma foldlM_eq_ok {f : α → γ → Except ε α} {g : α → γ → α} {l : List γ}
    (h : ∀ c ∈ l, ∀ a, f a c = .ok (g a c)) (a : α) : l.foldlM f a = .ok (l.foldl g a) := by
  induction l generalizing a with
  | nil => rfl
  | cons c l ih =>
    rw [List.foldlM_cons, h c (by simp), ok_bind, List.foldl_cons]
    exact ih (fun c' hc' => h c' (by simp [hc'])) _

lemma foldlM_invariant {f : α → γ → Except ε α} {l : List γ} (P : α → Prop)
    (hstep : ∀ c ∈ l, ∀ a a', P a → f a c = .ok a' → P a') {a a' : α} (ha : P a)
    (h : l.foldlM f a = .ok a') : P a' := by
  induction l generalizing a with
  | nil =>
    obtain rfl : a = a' := Except.ok.inj h
    exact ha
  | cons c l ih =>
    rw [List.foldlM_cons, bind_eq_ok] at h
    obtain ⟨b, hb, hrest⟩ := h
    exact ih (fun c' hc' => hstep c' (by simp [hc'])) (hstep c (by simp) a b ha hb) hrest

/-- Whenever `x` fails, its error satisfies `E`. -/
def FailsWith (E : ε → Prop) (x : Except ε α) : Prop := ∀ e, x = .error e → E e

variable {E : ε → Prop}

lemma FailsWith.bind {x : Except ε α} {f : α → Except ε β} (hx : FailsWith E x)
    (hf : ∀ a, x = .ok a → FailsWith E (f a)) : FailsWith E (x >>= f) := by
  intro e he
  cases x with
  | error e' =>
    obtain rfl : e' = e := by simpa using he
    exact hx e' rfl
  | ok a => exact hf a rfl e he

lemma failsWith_rejectIf [Decidable bad] (h : E error) : FailsWith E (rejectIf bad error) := by
  intro e he
  by_cases hbad : bad
  · obtain rfl : error = e := by simpa [rejectIf, hbad] using he
    exact h
  · simp [rejectIf, hbad] at he

lemma failsWith_mapM {f : γ → Except ε β} {l : List γ} (h : ∀ c ∈ l, FailsWith E (f c)) :
    FailsWith E (l.mapM f) := by
  induction l with
  | nil => exact fun _ he => by cases he
  | cons c l ih =>
    rw [List.mapM_cons]
    refine FailsWith.bind (h c (by simp)) (fun b _ => ?_)
    refine FailsWith.bind (ih fun c' hc' => h c' (by simp [hc'])) (fun bs _ => ?_)
    exact fun _ he => by cases he

lemma failsWith_pure (a : α) : FailsWith E (pure a : Except ε α) := fun _ he => by cases he

/-! ## Fallible code on a mutable receiver

A method on `&mut self` may fail after it has written: the writes stay.  `exec` runs such a
method, and the lemmas below peel a successful run apart step by step. -/

section Mutating

variable {σ : Type v} {s s' : σ}

abbrev Mutating (σ : Type v) (ε : Type v) (α : Type v) := ExceptT ε (StateM σ) α

variable {ε α β : Type v}

def exec (x : Mutating σ ε α) (s : σ) : Except ε α × σ := x.run s

/-- A check that only reads. -/
def check (x : Except ε α) : Mutating σ ε α := ExceptT.mk (pure x)

variable {f : α → Mutating σ ε β} {x : Mutating σ ε α} {a : α} {g : α → β}

lemma exec_bind :
    exec (x >>= f) s = match exec x s with
      | (.ok a, s₁) => exec (f a) s₁
      | (.error e, s₁) => (.error e, s₁) := by
  simp only [exec, bind, ExceptT.bind, ExceptT.run, ExceptT.mk, StateT.bind]
  rcases x s with ⟨_ | _, _⟩ <;> rfl

lemma exec_bind_of_ok {t : σ} (h : exec x s = (.ok a, t)) : exec (x >>= f) s = exec (f a) t := by
  rw [exec_bind, h]

lemma exec_map : exec (g <$> x) s = (exec x s).map (·.map g) id := by
  rw [map_eq_pure_bind, exec_bind]
  rcases exec x s with ⟨_ | _, _⟩ <;> rfl

lemma exec_modify_bind {g : σ → σ} {f : PUnit → Mutating σ ε β} :
    exec (modify g >>= f) s = exec (f ⟨⟩) (g s) := rfl

lemma exec_get_bind {f : σ → Mutating σ ε β} : exec (get >>= f) s = exec (f s) s := rfl

lemma exec_check_bind {x : Except ε α} (h : x = .ok a) : exec (check x >>= f) s = exec (f a) s := by
  rw [h]
  rfl

@[simp] lemma exec_bind_eq_ok {b : β} :
    exec (x >>= f) s = (.ok b, s') ↔ ∃ a s₁, exec x s = (.ok a, s₁) ∧ exec (f a) s₁ = (.ok b, s') := by
  rw [exec_bind]
  rcases exec x s with ⟨e | a, s₁⟩
  · simp
  · simp

@[simp] lemma exec_pure_eq_ok {a b : α} :
    exec (pure a : Mutating σ ε α) s = (.ok b, s') ↔ a = b ∧ s = s' := by
  show (Except.ok a, s) = (Except.ok b, s') ↔ _
  simp

@[simp] lemma exec_check_eq_ok {x : Except ε α} :
    exec (check x) s = (.ok a, s') ↔ x = .ok a ∧ s = s' := by
  show (x, s) = (Except.ok a, s') ↔ _
  simp

@[simp] lemma exec_get_eq_ok {a : σ} :
    exec (get : Mutating σ ε σ) s = (.ok a, s') ↔ s = a ∧ s = s' := by
  show (Except.ok s, s) = (Except.ok a, s') ↔ _
  simp

@[simp] lemma exec_modify_eq_ok {f : σ → σ} {u : PUnit} :
    exec (modify f : Mutating σ ε PUnit) s = (.ok u, s') ↔ f s = s' := by
  show (Except.ok PUnit.unit, f s) = (Except.ok u, s') ↔ _
  simp

/-- From a state with `P`, a success ends in `Q` and a failure in `E`. -/
def Triple (P : σ → Prop) (x : Mutating σ ε α) (Q : α → σ → Prop) (E : ε → σ → Prop) : Prop :=
  ∀ s, P s → match exec x s with
    | (.ok a, s') => Q a s'
    | (.error e, s') => E e s'

variable {P : σ → Prop} {Q : β → σ → Prop} {E : ε → σ → Prop}

lemma Triple.bind {R : α → σ → Prop}
    (hx : Triple P x R E) (hf : ∀ a, Triple (R a) (f a) Q E) : Triple P (x >>= f) Q E := by
  intro s hs
  have hmiddle := hx s hs
  rw [exec_bind]
  rcases hexec : exec x s with ⟨e | a, s₁⟩
  · rwa [hexec] at hmiddle
  · rw [hexec] at hmiddle
    exact hf a s₁ hmiddle

lemma Triple.check_bind {x : Except ε α}
    (hok : ∀ a, x = .ok a → Triple P (f a) Q E) (herror : ∀ e s, x = .error e → P s → E e s) :
    Triple P (check x >>= f) Q E := by
  intro s hs
  rw [exec_bind]
  rcases x with e | a
  · exact herror e s rfl hs
  · exact hok a rfl s hs

lemma Triple.check {x : Except ε β} (hok : ∀ b s, x = .ok b → P s → Q b s)
    (herror : ∀ e s, x = .error e → P s → E e s) : Triple P (check x) Q E := by
  intro s hs
  rcases x with e | b
  · exact herror e s rfl hs
  · exact hok b s rfl hs

lemma Triple.get_bind {f : σ → Mutating σ ε β}
    (h : ∀ s, P s → Triple (· = s) (f s) Q E) : Triple P (get >>= f) Q E := by
  intro s hs
  rw [exec_bind]
  exact h s hs s rfl

lemma Triple.read_bind {f : σ → Mutating σ ε β} (h : ∀ s, Triple P (f s) Q E) : Triple P (get >>= f) Q E :=
  fun s hs => h s s hs

lemma Triple.modify_bind {g : σ → σ} {f : PUnit → Mutating σ ε β} (R : σ → Prop)
    (hg : ∀ s, P s → R (g s)) (h : Triple R (f ⟨⟩) Q E) : Triple P (modify g >>= f) Q E := by
  intro s hs
  rw [exec_bind]
  exact h (g s) (hg s hs)

lemma Triple.pure {b : β} (h : ∀ s, P s → Q b s) : Triple P (pure b : Mutating σ ε β) Q E :=
  fun s hs => h s hs

lemma Triple.map (hx : Triple P x (fun a => Q (g a)) E) : Triple P (g <$> x) Q E := by
  rw [map_eq_pure_bind]
  exact hx.bind fun _ => Triple.pure fun _ h => h

lemma Triple.post {x : Mutating σ ε β} {Q' : β → σ → Prop} {E' : ε → σ → Prop}
    (hx : Triple P x Q E) (hok : ∀ b s, Q b s → Q' b s) (herror : ∀ e s, E e s → E' e s) :
    Triple P x Q' E' := by
  intro s hs
  have hend := hx s hs
  rcases hexec : exec x s with ⟨e | b, s'⟩
  · rw [hexec] at hend
    exact herror e s' hend
  · rw [hexec] at hend
    exact hok b s' hend

lemma Triple.final {R : σ → Prop} (h : Triple (· = s) x (fun _ => R) fun _ => R) : R (exec x s).2 := by
  have hend := h s rfl
  rcases hexec : exec x s with ⟨e | a, s'⟩
  · rwa [hexec] at hend
  · rwa [hexec] at hend

end Mutating

end Checked
