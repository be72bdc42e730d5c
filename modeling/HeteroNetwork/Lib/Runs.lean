import Mathlib

/-!
# Runs of a state machine

A machine answers every input with an output and a next state.  `exec` is the state after a list of
inputs, `trace` what the machine answered along the way, and the rules below carry a fact from one
step to a whole run.
-/

namespace Runs

open List

variable {σ ι ο : Type*} (step : σ → ι → ο × σ)

def exec (s : σ) (ops : List ι) : σ := ops.foldl (fun s op => (step s op).2) s

def trace : σ → List ι → List (ι × ο)
  | _, [] => []
  | s, op :: ops => (op, (step s op).1) :: trace (step s op).2 ops

variable {step} {s : σ} {op : ι} {ops before after : List ι}

@[simp] lemma exec_nil : exec step s [] = s := rfl

@[simp] lemma exec_cons : exec step s (op :: ops) = exec step (step s op).2 ops := rfl

lemma exec_append : exec step s (before ++ after) = exec step (exec step s before) after :=
  foldl_append

lemma trace_append :
    trace step s (before ++ after) = trace step s before ++ trace step (exec step s before) after := by
  induction before generalizing s with
  | nil => rfl
  | cons op before ih => rw [cons_append, trace, ih, trace, cons_append, exec_cons]

lemma map_fst_trace : (trace step s ops).map Prod.fst = ops := by
  induction ops generalizing s with
  | nil => rfl
  | cons op ops ih => rw [trace, map_cons, ih]

theorem mem_trace {e : ι × ο} : e ∈ trace step s ops ↔
    ∃ before op after, ops = before ++ op :: after ∧ e = (op, (step (exec step s before) op).1) := by
  induction ops generalizing s with
  | nil => simp [trace]
  | cons op ops ih =>
    rw [trace, mem_cons, ih]
    constructor
    · rintro (rfl | ⟨before, op', after, rfl, rfl⟩)
      · exact ⟨[], op, ops, rfl, rfl⟩
      · exact ⟨op :: before, op', after, rfl, rfl⟩
    · rintro ⟨before, op', after, hops, rfl⟩
      cases before with
      | nil =>
        obtain ⟨rfl, rfl⟩ := List.cons.inj hops
        exact Or.inl rfl
      | cons first before =>
        obtain ⟨rfl, rfl⟩ := List.cons.inj hops
        exact Or.inr ⟨before, op', after, rfl, rfl⟩

lemma fst_mem_of_mem_trace {e : ι × ο} (h : e ∈ trace step s ops) : e.1 ∈ ops := by
  rw [← @map_fst_trace _ _ _ step s ops]
  exact mem_map_of_mem h

lemma mem_trace_of_notMem {o : ο} (hbefore : op ∉ before) (hafter : op ∉ after) :
    (op, o) ∈ trace step s (before ++ op :: after) ↔ o = (step (exec step s before) op).1 := by
  rw [trace_append, trace, mem_append, mem_cons, Prod.mk.injEq]
  constructor
  · rintro (h | ⟨-, h⟩ | h)
    · exact absurd (fst_mem_of_mem_trace h) hbefore
    · exact h
    · exact absurd (fst_mem_of_mem_trace h) hafter
  · exact fun h => .inr (.inl ⟨rfl, h⟩)

lemma trace_congr {step' : σ → ι → ο × σ}
    (h : ∀ before op after, ops = before ++ op :: after →
      step' (exec step s before) op = step (exec step s before) op) :
    trace step' s ops = trace step s ops := by
  induction ops generalizing s with
  | nil => rfl
  | cons op ops ih =>
    have hop : step' s op = step s op := h [] op ops rfl
    rw [trace, trace, hop, ih]
    rintro before op' after rfl
    exact h (op :: before) op' after rfl

lemma exists_mem_trace (h : op ∈ ops) : ∃ o, (op, o) ∈ trace step s ops := by
  obtain ⟨before, after, rfl⟩ := append_of_mem h
  exact ⟨_, mem_trace.mpr ⟨before, op, after, rfl, rfl⟩⟩

theorem exec_invariant (P : σ → Prop) (hstep : ∀ op ∈ ops, ∀ s, P s → P (step s op).2)
    (hs : P s) : P (exec step s ops) := by
  induction ops generalizing s with
  | nil => exact hs
  | cons op ops ih =>
    exact ih (fun op' hop' => hstep op' (by simp [hop'])) (hstep op (by simp) s hs)

theorem trace_flow {enters leaves : ο → ℕ} (held : σ → ℕ)
    (hstep : ∀ s op, leaves (step s op).1 + held (step s op).2 ≤ held s + enters (step s op).1) :
    ((trace step s ops).map fun e => leaves e.2).sum + held (exec step s ops) ≤
      held s + ((trace step s ops).map fun e => enters e.2).sum := by
  induction ops generalizing s with
  | nil => simp [trace]
  | cons op ops ih =>
    have hfirst := hstep s op
    have hrest := ih (s := (step s op).2)
    simp only [trace, map_cons, sum_cons, exec_cons]
    omega

lemma forall_step {P : List ι → ι → Prop}
    (h : ∀ i (hi : i < ops.length), P (ops.take i) (ops.get ⟨i, hi⟩)) :
    ∀ before op after, ops = before ++ op :: after → P before op := by
  rintro before op after rfl
  simpa using h before.length (by simp)

/-! ## Parts of a state

A part of the state that only some inputs touch, and that those treat as a machine of its own, runs
that machine on these inputs. -/

section Part

variable {σ' : Type*} {step' : σ' → ι → ο × σ'} {view : σ → σ'} {relevant : ι → Bool}

/-- `view` follows `step'` on the relevant inputs and stands still on the others. -/
structure Follows (step : σ → ι → ο × σ) (step' : σ' → ι → ο × σ') (view : σ → σ')
    (relevant : ι → Bool) : Prop where
  moves : ∀ s op, relevant op = true → (step' (view s) op) = ((step s op).1, view (step s op).2)
  stands : ∀ s op, relevant op = false → view (step s op).2 = view s

theorem Follows.exec (h : Follows step step' view relevant) :
    view (exec step s ops) = Runs.exec step' (view s) (ops.filter relevant) := by
  induction ops generalizing s with
  | nil => rfl
  | cons op ops ih =>
    rw [exec_cons, ih, filter_cons]
    cases hop : relevant op with
    | false => simp [h.stands s op hop]
    | true => simp [h.moves s op hop]

theorem Follows.trace (h : Follows step step' view relevant) :
    (trace step s ops).filter (fun e => relevant e.1) =
      Runs.trace step' (view s) (ops.filter relevant) := by
  induction ops generalizing s with
  | nil => rfl
  | cons op ops ih =>
    rw [Runs.trace, filter_cons, filter_cons]
    cases hop : relevant op with
    | false => simp [ih, h.stands s op hop]
    | true => simp [ih, h.moves s op hop, Runs.trace]

end Part

lemma ordered_between {τ : Type*} [Preorder τ] {time : ι → τ} {middle : List ι} {op' : ι}
    (h : ((before ++ op :: (middle ++ op' :: after)).map time).Pairwise (· ≤ ·)) :
    ∀ o ∈ middle ++ [op'], time op ≤ time o ∧ time o ≤ time op' := by
  rw [map_append, map_cons, pairwise_append, pairwise_cons] at h
  obtain ⟨-, ⟨hfirst, h⟩, -⟩ := h
  rw [map_append, pairwise_append] at h
  intro o ho
  refine ⟨hfirst _ (mem_map_of_mem ?_), ?_⟩
  · exact mem_append.mpr ((mem_append.mp ho).imp_right (by simp +contextual))
  · rcases mem_append.mp ho with ho | ho
    · exact h.2.2 _ (mem_map_of_mem ho) _ mem_cons_self
    · rw [mem_singleton.mp ho]

end Runs
