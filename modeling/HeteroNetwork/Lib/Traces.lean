import HeteroNetwork.Lib.Runs

/-!
# What a trace says about the states of a run

`Runs.exec_invariant` needs a step that keeps a fact whatever the machine answers.  Often a step keeps it
only for some answers (a record stays as long as no removal succeeds), and the rules here ask for them along
the trace.
-/

namespace Runs

variable {σ ι ο : Type*} {step : σ → ι → ο × σ} {s : σ} {ops : List ι}

theorem exec_invariant_of_trace {allowed : ι × ο → Prop} (P : σ → Prop)
    (hstep : ∀ s op, allowed (op, (step s op).1) → P s → P (step s op).2)
    (hallowed : ∀ e ∈ trace step s ops, allowed e) (hs : P s) : P (exec step s ops) := by
  induction ops generalizing s with
  | nil => exact hs
  | cons op ops ih =>
    rw [trace, List.forall_mem_cons] at hallowed
    exact ih hallowed.2 (hstep s op hallowed.1 hs)

theorem exec_guarded {allowed : σ → ι → Prop} {P : σ → Prop} {Q : ι → ο → Prop}
    (hallowed : ∀ before op after, ops = before ++ op :: after → allowed (exec step s before) op)
    (hstep : ∀ s op, P s → allowed s op → P (step s op).2 ∧ Q op (step s op).1)
    (hs : P s) : P (exec step s ops) ∧ ∀ e ∈ trace step s ops, Q e.1 e.2 := by
  induction ops generalizing s with
  | nil => exact ⟨hs, by simp [trace]⟩
  | cons op ops ih =>
    obtain ⟨hnext, hanswer⟩ := hstep s op hs (hallowed [] op ops rfl)
    obtain ⟨hend, hrest⟩ := ih (fun before op' after hops =>
      hallowed (op :: before) op' after (by rw [hops, List.cons_append])) hnext
    rw [trace, List.forall_mem_cons]
    exact ⟨hend, hanswer, hrest⟩

theorem exec_view {γ : Type*} (view : σ → γ) (effect : γ → ι × ο → γ)
    (hstep : ∀ s op, view (step s op).2 = effect (view s) (op, (step s op).1)) :
    view (exec step s ops) = (trace step s ops).foldl effect (view s) := by
  induction ops generalizing s with
  | nil => rfl
  | cons op ops ih => rw [exec_cons, ih, hstep, trace, List.foldl_cons]

theorem pairwise_emitted {τ : Type*} [Preorder τ] {allowed : ι × ο → Prop} {mark : σ → Option τ}
    {emitted : ι × ο → Option τ}
    (hemits : ∀ s op t, emitted (op, (step s op).1) = some t →
      (∀ t' ∈ mark s, t' < t) ∧ mark (step s op).2 = some t)
    (hkeeps : ∀ s op, allowed (op, (step s op).1) → emitted (op, (step s op).1) = none →
      mark (step s op).2 = mark s) (hallowed : ∀ e ∈ trace step s ops, allowed e) :
    ((trace step s ops).filterMap emitted).Pairwise (· < ·) ∧
      ∀ t ∈ (trace step s ops).filterMap emitted, ∀ t' ∈ mark s, t' < t := by
  induction ops generalizing s with
  | nil => simp [trace]
  | cons op ops ih =>
    rw [trace, List.forall_mem_cons] at hallowed
    obtain ⟨hpairwise, habove⟩ := ih hallowed.2
    cases hop : emitted (op, (step s op).1) with
    | none =>
      rw [trace, List.filterMap_cons_none hop, ← hkeeps s op hallowed.1 hop]
      exact ⟨hpairwise, habove⟩
    | some t =>
      obtain ⟨hlt, hmark⟩ := hemits s op t hop
      rw [trace, List.filterMap_cons_some hop, List.pairwise_cons]
      refine ⟨⟨fun t' ht' => habove t' ht' t hmark, hpairwise⟩, ?_⟩
      rw [List.forall_mem_cons]
      exact ⟨hlt, fun t' ht' t₀ ht₀ => (hlt t₀ ht₀).trans (habove t' ht' t hmark)⟩

end Runs
