import HeteroNetwork.Lib.Runs

/-!
# Interleaved tasks

Tasks that share a state and take turns.  A turn is one section of a task, from one suspension to the
next; it reads and changes the shared state, and may call a machine that is part of it.
-/

namespace Runs

variable {σ ι ο σ' κ ρ : Type*}

/-- A step either leaves a part of the state alone or makes one call to the machine that the part is. -/
structure Drives (step : σ → ι → ο × σ) (inner : σ' → κ → ρ × σ') (view : σ → σ')
    (call : ο → Option (κ × ρ)) : Prop where
  quiet : ∀ s op, call (step s op).1 = none → view (step s op).2 = view s
  answered : ∀ s op c r, call (step s op).1 = some (c, r) → inner (view s) c = (r, view (step s op).2)

variable {step : σ → ι → ο × σ} {inner : σ' → κ → ρ × σ'} {view : σ → σ'} {call : ο → Option (κ × ρ)}
  {s : σ} {ops : List ι}

def calls (step : σ → ι → ο × σ) (call : ο → Option (κ × ρ)) (s : σ) (ops : List ι) : List (κ × ρ) :=
  (trace step s ops).filterMap fun e => call e.2

/-- **The calls of a run are a run of the inner machine.** -/
theorem Drives.calls_eq (h : Drives step inner view call) :
    calls step call s ops = trace inner (view s) ((calls step call s ops).map Prod.fst) := by
  induction ops generalizing s with
  | nil => rfl
  | cons op ops ih =>
    have hrest := ih (s := (step s op).2)
    rw [calls, trace, List.filterMap_cons]
    rcases hcall : call (step s op).1 with _ | ⟨c, r⟩
    · rw [h.quiet s op hcall] at hrest
      exact hrest
    · have hinner := h.answered s op c r hcall
      rw [List.map_cons, trace, hinner]
      exact congrArg _ hrest

theorem Drives.view_exec (h : Drives step inner view call) :
    view (exec step s ops) = exec inner (view s) ((calls step call s ops).map Prod.fst) := by
  induction ops generalizing s with
  | nil => rfl
  | cons op ops ih =>
    rw [exec_cons, ih]
    conv_rhs => rw [calls, trace, List.filterMap_cons]
    rcases hcall : call (step s op).1 with _ | ⟨c, r⟩
    · rw [h.quiet s op hcall]
      rfl
    · rw [List.map_cons, exec_cons, h.answered s op c r hcall]
      rfl

end Runs

namespace Tasks

variable {σ τ ι ο σ' κ ρ : Type*}

structure System (σ τ : Type*) where
  shared : σ
  tasks : List τ

inductive Event (τ ι : Type*) where
  | start (task : τ)
  | resume (turn : ℕ) (input : ι)

/-- One turn: a new task, or a section of the task in that place. -/
def step (advance : σ → τ → ι → ο × σ × τ) (idle : ο) (s : System σ τ) :
    Event τ ι → ο × System σ τ
  | .start task => (idle, { s with tasks := s.tasks ++ [task] })
  | .resume turn input =>
    match s.tasks[turn]? with
    | none => (idle, s)
    | some task =>
      let next := advance s.shared task input
      (next.1, ⟨next.2.1, s.tasks.set turn next.2.2⟩)

variable {advance : σ → τ → ι → ο × σ × τ} {idle : ο} {s : System σ τ}

variable (advance idle) in
lemma step_cases (s : System σ τ) (event : Event τ ι) :
    (∃ turn input task, event = .resume turn input ∧ s.tasks[turn]? = some task ∧
      step advance idle s event = ((advance s.shared task input).1,
        ⟨(advance s.shared task input).2.1, s.tasks.set turn (advance s.shared task input).2.2⟩)) ∨
    ((step advance idle s event).1 = idle ∧ (step advance idle s event).2.shared = s.shared ∧
      ∀ task ∈ (step advance idle s event).2.tasks, task ∈ s.tasks ∨ event = .start task) := by
  cases event with
  | start task =>
    refine Or.inr ⟨rfl, rfl, fun other hother => ?_⟩
    rcases List.mem_append.mp hother with hold | hnew
    · exact Or.inl hold
    · exact Or.inr (by rw [List.mem_singleton.mp hnew])
  | resume turn input =>
    rw [step]
    cases htask : s.tasks[turn]? with
    | none => exact Or.inr ⟨rfl, rfl, fun task htask => Or.inl htask⟩
    | some task => exact Or.inl ⟨turn, input, task, rfl, htask, rfl⟩

theorem drives_step {inner : σ' → κ → ρ × σ'} {view : σ → σ'} {call : ο → Option (κ × ρ)}
    (hidle : call idle = none)
    (hquiet : ∀ shared task input, call (advance shared task input).1 = none →
      view (advance shared task input).2.1 = view shared)
    (hcalls : ∀ shared task input c r, call (advance shared task input).1 = some (c, r) →
      inner (view shared) c = (r, view (advance shared task input).2.1)) :
    Runs.Drives (step advance idle) inner (fun s => view s.shared) call where
  quiet s event h := by
    rcases step_cases advance idle s event with ⟨turn, input, task, -, -, heq⟩ | ⟨-, hshared, -⟩
    · rw [heq] at h ⊢
      exact hquiet _ _ _ h
    · rw [hshared]
  answered s event c r h := by
    rcases step_cases advance idle s event with ⟨turn, input, task, -, -, heq⟩ | ⟨hout, -, -⟩
    · rw [heq] at h ⊢
      exact hcalls _ _ _ _ _ h
    · rw [hout, hidle] at h
      cases h

omit advance idle s in
lemma sum_set {weight : τ → ℕ} {tasks : List τ} {turn : ℕ} {task next : τ}
    (h : tasks[turn]? = some task) :
    ((tasks.set turn next).map weight).sum + weight task = (tasks.map weight).sum + weight next := by
  induction tasks generalizing turn with
  | nil => simp at h
  | cons first tasks ih =>
    cases turn with
    | zero =>
      obtain rfl : first = task := by simpa using h
      simp only [List.set_cons_zero, List.map_cons, List.sum_cons]
      omega
    | succ turn =>
      have hrest := @ih turn (by simpa using h)
      simp only [List.set_cons_succ, List.map_cons, List.sum_cons]
      omega

theorem step_flow {weight : τ → ℕ} {enters leaves : ο → ℕ} {event : Event τ ι} (hidle : leaves idle = 0)
    (hstart : ∀ task, event = .start task → weight task = 0)
    (hsection : ∀ shared task input,
      leaves (advance shared task input).1 + weight (advance shared task input).2.2 ≤
        weight task + enters (advance shared task input).1) :
    leaves (step advance idle s event).1 + ((step advance idle s event).2.tasks.map weight).sum ≤
      (s.tasks.map weight).sum + enters (step advance idle s event).1 := by
  cases event with
  | start task =>
    have hzero := hstart task rfl
    simp only [step, List.map_append, List.sum_append, List.map_singleton, List.sum_singleton]
    omega
  | resume turn input =>
    rw [step]
    cases htask : s.tasks[turn]? with
    | none =>
      show leaves idle + (s.tasks.map weight).sum ≤ (s.tasks.map weight).sum + enters idle
      omega
    | some task =>
      have hset := @sum_set _ weight _ _ _ (advance s.shared task input).2.2 htask
      have hflow := hsection s.shared task input
      show leaves (advance s.shared task input).1 +
          ((s.tasks.set turn (advance s.shared task input).2.2).map weight).sum ≤
        (s.tasks.map weight).sum + enters (advance s.shared task input).1
      omega

theorem step_tasks {P : τ → Prop} {event : Event τ ι} (hstart : ∀ task, event = .start task → P task)
    (hsection : ∀ turn input shared task, event = .resume turn input → P task →
      P (advance shared task input).2.2)
    (hs : ∀ task ∈ s.tasks, P task) : ∀ task ∈ (step advance idle s event).2.tasks, P task := by
  intro task htask
  rcases step_cases advance idle s event with
    ⟨turn, input, old, hevent, hold, heq⟩ | ⟨-, -, htasks⟩
  · rw [heq] at htask
    rcases List.mem_or_eq_of_mem_set htask with hother | rfl
    · exact hs task hother
    · exact hsection turn input s.shared old hevent (hs old (List.mem_of_getElem? hold))
  · rcases htasks task htask with hother | hnew
    · exact hs task hother
    · exact hstart task hnew

end Tasks
