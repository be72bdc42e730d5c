import HeteroNetwork.Lib.Traces
import HeteroNetwork.Signal.Http

/-!
# Members of the signal service

The service keeps its members twice: in the registry and, with the time of their authentication, beside it.
An upsert writes the registry first, a purge clears it last, and both are suspended in between.
-/

namespace HeteroNetwork

open Std (TreeMap TreeSet)

open Checked OrderedMap Runs Tasks ControlPlane List

namespace Signal

/-- The service with the ids of the nodes in its registry. -/
structure Members where
  http : SignalHttpState
  registry : TreeSet NodeId

/-- A signed request, or one for metrics, which purges by a reading of the clock. -/
inductive MemberTask where
  | request (task : SignalTask)
  | metrics (now : Timestamp)
  | sweeping (stale : List NodeId)
  | reported

/-- What a section does to the two maps. -/
inductive MapEffect where
  | none
  | drop (now : Timestamp)
  | remove (nodeId : NodeId)
  | store (nodeId : NodeId)
  | join (nodeId : NodeId) (now : Timestamp)

def SignalTask.effect (task : SignalTask) (answer : Answer) : MapEffect :=
  match task.phase, answer with
  | .purging _, .ready => .drop task.now
  | .removing _ (nodeId :: _), .ready => .remove nodeId
  | .serving, .served (.ok nodeId) =>
    match task.request with
    | .upsertNode .. => .store nodeId
    | _ => .none
  | .joining nodeId, .ready => .join nodeId task.now
  | _, _ => .none

def MemberTask.effect (task : MemberTask) (answer : Answer) : MapEffect :=
  match task with
  | .request task => task.effect answer
  | .metrics now => .drop now
  | .sweeping (nodeId :: _) => .remove nodeId
  | .sweeping [] | .reported => .none

namespace MapEffect

def onRegistry (registry : TreeSet NodeId) : MapEffect → TreeSet NodeId
  | remove nodeId => registry.erase nodeId
  | store nodeId => registry.insert nodeId
  | _ => registry

def onMembers (state : SignalHttpState) : MapEffect → TreeMap NodeId Timestamp
  | drop now => (dropStale state now).authenticatedNodes
  | join nodeId now => state.authenticatedNodes.insert nodeId now
  | _ => state.authenticatedNodes

end MapEffect

section Sections

variable (verifies : SignalRequest → String → Bool)

/-- One section of a task; the answers of lookups are given. -/
def Members.advance (m : Members) (task : MemberTask) (answer : Answer) : Unit × Members × MemberTask :=
  let registry := (task.effect answer).onRegistry m.registry
  match task with
  | .request task =>
    let next := Signal.advance verifies m.http task answer
    ((), ⟨next.2.1, registry⟩, .request next.2.2)
  | .metrics now => ((), ⟨dropStale m.http now, registry⟩, .sweeping (staleNodes m.http now))
  | .sweeping (_ :: stale) => ((), { m with registry }, .sweeping stale)
  | .sweeping [] | .reported => ((), m, .reported)

abbrev MemberSystem := System Members MemberTask

inductive MemberEvent where
  | request (request : SignalRequest) (now : Timestamp)
  | metrics (now : Timestamp)
  | resume (turn : ℕ) (answer : Answer)

def MemberEvent.event : MemberEvent → Tasks.Event MemberTask Answer
  | .request signed now => .start (.request (.start signed now))
  | .metrics now => .start (.metrics now)
  | .resume turn answer => .resume turn answer

def MemberSystem.new (nodeAuthTtl : ℤ) : MemberSystem := ⟨⟨.new nodeAuthTtl, ∅⟩, []⟩

def MemberSystem.step (s : MemberSystem) (event : MemberEvent) : Unit × MemberSystem :=
  Tasks.step (Members.advance verifies) () s event.event

end Sections

/-- Whether `authenticated_node` finds a node, if nothing else is in progress. -/
def authenticatedNode (m : Members) (nodeId : NodeId) (now : Timestamp) : Except ApiError Unit := do
  let registry := (staleNodes m.http now).foldl (fun nodes stale => nodes.erase stale) m.registry
  rejectIf (nodeId ∉ (dropStale m.http now).authenticatedNodes) (.unauthorized staleText)
  rejectIf (nodeId ∉ registry) (.unauthorized staleText)

/-! ## Nodes on their way -/

namespace MemberTask

/-- The nodes that a purge has still to remove from the registry. -/
def removing : MemberTask → List NodeId
  | request ⟨_, _, .removing _ stale⟩ => stale
  | sweeping stale => stale
  | _ => []

/-- The node that an upsert has written into the registry only. -/
def joining : MemberTask → List NodeId
  | request ⟨_, _, .joining nodeId⟩ => [nodeId]
  | _ => []

def isFinished : MemberTask → Bool
  | request ⟨_, _, .finished _⟩ => true
  | reported => true
  | _ => false

end MemberTask

/-- What a section does to the nodes on their way. -/
def MapEffect.Moves (state : SignalHttpState) (task task' : MemberTask) : MapEffect → Prop
  | none => task'.removing = task.removing ∧ task'.joining = task.joining
  | drop now => task.removing = [] ∧ task'.removing = staleNodes state now ∧ task'.joining = task.joining
  | remove nodeId => task.removing = nodeId :: task'.removing ∧ task'.joining = task.joining
  | store nodeId => task'.removing = task.removing ∧ task.joining = [] ∧ task'.joining = [nodeId]
  | join nodeId _ => task'.removing = task.removing ∧ task.joining = [nodeId] ∧ task'.joining = []

section Effects

variable (verifies : SignalRequest → String → Bool) (state : SignalHttpState) {request : SignalRequest}
  {now : Timestamp}

lemma idle_afterPurge (purge : Purge) : MapEffect.none.Moves state .reported
    (.request ⟨request, now, afterPurge request purge⟩) := by
  cases purge <;> cases request <;> simp only [afterPurge] <;> (try split_ifs) <;> exact ⟨rfl, rfl⟩

lemma idle_toLedger (nodeId : NodeId) : MapEffect.none.Moves state .reported
    (.request ⟨request, now, toLedger request nodeId⟩) := by
  rw [toLedger]
  split <;> exact ⟨rfl, rfl⟩

lemma idle_afterFetch (purge : Purge) (node : ControlPlane.NodeRecord) : MapEffect.none.Moves state .reported
    (.request ⟨request, now, afterFetch verifies request purge node⟩) := by
  cases purge with
  | upsert | source => exact ⟨rfl, rfl⟩
  | target source =>
    rw [afterFetch]
    split_ifs
    · exact idle_toLedger state _
    · exact ⟨rfl, rfl⟩

lemma advance_effect (m : Members) (task : MemberTask) (answer : Answer) :
    (m.advance verifies task answer).2.1.http.authenticatedNodes =
        (task.effect answer).onMembers m.http ∧
      (m.advance verifies task answer).2.1.registry = (task.effect answer).onRegistry m.registry ∧
      (task.effect answer).Moves m.http task (m.advance verifies task answer).2.2 := by
  match task with
  | .metrics now => exact ⟨rfl, rfl, rfl, rfl, rfl⟩
  | .sweeping [] | .sweeping (_ :: _) | .reported => exact ⟨rfl, rfl, rfl, rfl⟩
  | .request ⟨request, now, phase⟩ =>
    cases phase with
    | removing purge stale =>
      cases stale <;> cases answer
      case nil.ready => exact ⟨rfl, rfl, idle_afterPurge m.http purge⟩
      all_goals exact ⟨rfl, rfl, rfl, rfl⟩
    | authenticating =>
      match answer with
      | .authentication (.ok _) => exact ⟨rfl, rfl, idle_toLedger m.http _⟩
      | .authentication (.error _) | .ready | .node _ | .served _ => exact ⟨rfl, rfl, rfl, rfl⟩
    | fetching purge =>
      match answer with
      | .node (some node) => exact ⟨rfl, rfl, idle_afterFetch verifies m.http purge node⟩
      | .node none | .ready | .authentication _ | .served _ => exact ⟨rfl, rfl, rfl, rfl⟩
    | serving =>
      match answer with
      | .served (.ok nodeId) =>
        cases request with
        | upsertNode => exact ⟨rfl, rfl, rfl, rfl, rfl⟩
        | _ => exact ⟨rfl, rfl, rfl, rfl⟩
      | .served (.error _) | .ready | .authentication _ | .node _ => exact ⟨rfl, rfl, rfl, rfl⟩
    | checking purge =>
      cases answer
      case ready =>
        simp only [Members.advance, advance]
        split_ifs <;> exact ⟨rfl, trivial, rfl, rfl⟩
      all_goals exact ⟨rfl, rfl, rfl, rfl⟩
    | recording nodeId signature =>
      cases answer
      case ready =>
        simp only [Members.advance, advance]
        split <;> exact ⟨rfl, trivial, rfl, rfl⟩
      all_goals exact ⟨rfl, rfl, rfl, rfl⟩
    | _ => cases answer <;> first | exact ⟨rfl, rfl, rfl, rfl⟩ | exact ⟨rfl, rfl, rfl, rfl, rfl⟩

end Effects

/-! ## Runs -/

/-- How often a node is on its way. -/
def waiting (ids : MemberTask → List NodeId) (tasks : List MemberTask) (nodeId : NodeId) : ℕ :=
  (tasks.map fun task => (ids task).count nodeId).sum

abbrev pending : List MemberTask → NodeId → ℕ := waiting MemberTask.removing

abbrev arriving : List MemberTask → NodeId → ℕ := waiting MemberTask.joining

section Waiting

variable {ids : MemberTask → List NodeId} {tasks : List MemberTask} {nodeId : NodeId} {task : MemberTask}

lemma waiting_append (h : ids task = []) : waiting ids (tasks ++ [task]) nodeId = waiting ids tasks nodeId := by
  simp [waiting, h]

lemma waiting_eq_zero (h : ∀ task ∈ tasks, ids task = []) : waiting ids tasks nodeId = 0 := by
  refine sum_eq_zero fun count hcount => ?_
  obtain ⟨task, htask, rfl⟩ := mem_map.mp hcount
  rw [h task htask, count_nil]

end Waiting

/-- No node is stored in the registry that a purge has still to remove, and none is dropped that an upsert
has stored in the registry only. -/
def MemberSystem.undisturbed (s : MemberSystem) : MemberEvent → Bool
  | .resume turn answer => s.tasks[turn]?.all fun task => match task.effect answer with
    | .store nodeId => pending s.tasks nodeId = 0
    | .drop now => (staleNodes s.shared.http now).all fun nodeId => arriving s.tasks nodeId = 0
    | _ => true
  | _ => true

/-- A node is in the registry exactly if it is a member or on its way. -/
structure Held (member listed : Prop) (pending arriving : ℕ) : Prop where
  once : pending ≤ 1
  apart : 0 < pending → ¬member ∧ arriving = 0
  listed : listed ↔ member ∨ 0 < pending ∨ 0 < arriving

abbrev MemberSystem.Holds (s : MemberSystem) (nodeId : NodeId) : Prop :=
  Held (nodeId ∈ s.shared.http.authenticatedNodes) (nodeId ∈ s.shared.registry) (pending s.tasks nodeId)
    (arriving s.tasks nodeId)

section Stale

variable {state : SignalHttpState} {nodeId : NodeId} {now : Timestamp}

lemma mem_dropStale : nodeId ∈ (dropStale state now).authenticatedNodes ↔
    nodeId ∉ staleNodes state now ∧ nodeId ∈ state.authenticatedNodes := by
  simp only [mem_iff_exists, dropStale, getElem?_foldl_erase, exists_and_left]

lemma mem_staleNodes : nodeId ∈ staleNodes state now ↔
    ∃ authenticatedAt, state.authenticatedNodes[nodeId]? = some authenticatedAt ∧
      authenticatedAt < now - state.nodeAuthTtl := by
  rw [staleNodes, TreeMap.mem_keys, mem_iff_exists]
  simp only [TreeMap.getElem?_filter', Option.filter_eq_some_iff, decide_eq_true_eq]

lemma mem_foldl_erase {stale : List NodeId} {registry : TreeSet NodeId} :
    nodeId ∈ stale.foldl (fun nodes stale => nodes.erase stale) registry ↔
      nodeId ∉ stale ∧ nodeId ∈ registry := by
  induction stale generalizing registry with
  | nil => simp
  | cons other stale ih =>
    simp only [foldl_cons, ih, TreeSet.mem_erase, mem_cons]
    grind

end Stale

lemma holds_resume {s : MemberSystem} {nodeId : NodeId} (h : s.Holds nodeId) {turn : ℕ}
    {answer : Answer} {task task' : MemberTask} {m : Members} (htask : s.tasks[turn]? = some task)
    (hundisturbed : s.undisturbed (.resume turn answer) = true)
    (hauth : m.http.authenticatedNodes = (task.effect answer).onMembers s.shared.http)
    (hregistry : m.registry = (task.effect answer).onRegistry s.shared.registry)
    (hmoves : (task.effect answer).Moves s.shared.http task task') :
    MemberSystem.Holds ⟨m, s.tasks.set turn task'⟩ nodeId := by
  have hpending : pending (s.tasks.set turn task') nodeId + task.removing.count nodeId =
      pending s.tasks nodeId + task'.removing.count nodeId := sum_set htask
  have harriving : arriving (s.tasks.set turn task') nodeId + task.joining.count nodeId =
      arriving s.tasks nodeId + task'.joining.count nodeId := sum_set htask
  rw [MemberSystem.undisturbed, htask, Option.all_some] at hundisturbed
  obtain ⟨honce, hapart, hlisted⟩ := h
  rw [MemberSystem.Holds, hauth, hregistry]
  generalize task.effect answer = effect at *
  cases effect with
  | none =>
    obtain ⟨hremoving, hjoining⟩ := hmoves
    rw [hremoving] at hpending
    rw [hjoining] at harriving
    rw [Nat.add_right_cancel hpending, Nat.add_right_cancel harriving]
    exact ⟨honce, hapart, hlisted⟩
  | drop now =>
    obtain ⟨hnone, hstale, hjoining⟩ := hmoves
    rw [hjoining] at harriving
    have hnodup : (staleNodes s.shared.http now).Nodup := nodup_keys _
    rw [hnone, hstale, hnodup.count, count_nil] at hpending
    simp only [all_eq_true, decide_eq_true_eq] at hundisturbed
    simp only [MapEffect.onMembers, MapEffect.onRegistry, mem_dropStale]
    have hmember : nodeId ∈ staleNodes s.shared.http now → nodeId ∈ s.shared.http.authenticatedNodes := by
      intro hmem
      obtain ⟨_, hget, -⟩ := mem_staleNodes.mp hmem
      exact mem_of_getElem? hget
    constructor <;> grind
  | remove other =>
    obtain ⟨hremoving, hjoining⟩ := hmoves
    rw [hremoving, count_cons] at hpending
    simp only [MapEffect.onMembers, MapEffect.onRegistry, TreeSet.mem_erase]
    constructor <;> grind
  | store other =>
    obtain ⟨hremoving, hnone, hjoining⟩ := hmoves
    rw [hnone, hjoining, count_singleton] at harriving
    simp only [MapEffect.onMembers, MapEffect.onRegistry, TreeSet.mem_insert, compare_eq_iff_eq]
    constructor <;> grind
  | join other now =>
    obtain ⟨hremoving, hjoining, hnone⟩ := hmoves
    rw [hnone, hjoining, count_singleton] at harriving
    simp only [MapEffect.onMembers, MapEffect.onRegistry, TreeMap.mem_insert, compare_eq_iff_eq]
    constructor <;> grind

lemma holds_start {s : MemberSystem} {nodeId : NodeId} (h : s.Holds nodeId) {task : MemberTask}
    (hremoving : task.removing = []) (hjoining : task.joining = []) :
    MemberSystem.Holds { s with tasks := s.tasks ++ [task] } nodeId := by
  rw [MemberSystem.Holds, pending, arriving, waiting_append hremoving, waiting_append hjoining]
  exact h

lemma holds_step (verifies : SignalRequest → String → Bool) {s : MemberSystem} {event : MemberEvent}
    (hs : ∀ nodeId, s.Holds nodeId) (hundisturbed : s.undisturbed event = true) (nodeId : NodeId) :
    (s.step verifies event).2.Holds nodeId := by
  cases event with
  | request | metrics => exact holds_start (hs nodeId) rfl rfl
  | resume turn answer =>
    rw [MemberSystem.step, MemberEvent.event, Tasks.step]
    cases htask : s.tasks[turn]? with
    | none => exact hs nodeId
    | some task =>
      obtain ⟨hauth, hregistry, hmoves⟩ := advance_effect verifies s.shared task answer
      exact holds_resume (hs nodeId) htask hundisturbed hauth hregistry hmoves

lemma MemberTask.settled {task : MemberTask} (h : task.isFinished = true) :
    task.removing = [] ∧ task.joining = [] := by
  unfold isFinished at h
  split at h
  · exact ⟨rfl, rfl⟩
  · exact ⟨rfl, rfl⟩
  · cases h

namespace SampleSignal

def join (turn : ℕ) : List MemberEvent :=
  [.resume turn .ready, .resume turn .ready, .resume turn (.authentication (.ok sampleNode)),
    .resume turn .ready, .resume turn (.served (.ok ⟨"n"⟩)), .resume turn .ready]

def joined : List MemberEvent := .request (upsert "n" 'a' 0) 0 :: join 0

/-- The membership of `n` is stale at 400 seconds.  A purge has dropped it when `n` joins again, and then
removes the new entry from the registry. -/
def rejoined : List MemberEvent :=
  joined ++ [.metrics (seconds 400), .resume 1 .ready,
    .request (upsert "n" 'b' (seconds 400)) (seconds 400)] ++ join 2 ++
  [.resume 1 .ready, .resume 1 .ready]

abbrev after (events : List MemberEvent) : MemberSystem :=
  exec (MemberSystem.step fun _ _ => true) (.new (seconds 300)) events

end SampleSignal

end Signal

end HeteroNetwork
