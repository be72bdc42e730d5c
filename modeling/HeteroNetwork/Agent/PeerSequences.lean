import HeteroNetwork.Agent.PeerForwarder
import HeteroNetwork.Agent.EngineReplay

/-!
# Reserved sequence numbers and the replay window

When does the replay window let a failover through?  `Reservations` is the invariant: the window represents
numbers that tasks have used up, none that is still reserved, and all of them lie within 1,024 above every
task in flight.  The last part is not for free: a task that waits keeps its two numbers while others come and go.
-/

namespace HeteroNetwork

open Checked BoundedOverlayForwarder List ReplayWindow

/-! ## The invariant -/

lemma toNat_succ {n : UInt64} (h : n.toNat + 1 < 2 ^ 64) : (n + 1).toNat = n.toNat + 1 := by
  rw [UInt64.toNat_add]
  exact Nat.mod_eq_of_lt h

namespace Send

def unused (send : Send) : List UInt64 :=
  match send.phase with
  | .starting | .waitingPermit | .permitted | .primaryReady => [send.sequence, send.sequence + 1]
  | .awaitingPrimary | .failingOver _ => [send.sequence + 1]
  | .suppressedReady => [send.sequence]
  | .awaitingSecondary _ | .awaitingSuppressed | .finished _ => []

def isReplayRejected (send : Send) : Bool :=
  match send.phase with
  | .finished (.error (.failoverPreparation _ error)) => error.isReplayRejected
  | _ => false

lemma unused_bounds {send : Send} (hroom : send.sequence.toNat + 1 < 2 ^ 64) {r : UInt64}
    (hr : r ∈ send.unused) : send.sequence.toNat ≤ r.toNat ∧ r.toNat ≤ send.sequence.toNat + 1 := by
  have hcases : r = send.sequence ∨ r = send.sequence + 1 := by
    simp only [unused] at hr
    split at hr <;> simp at hr <;> tauto
  rcases hcases with rfl | rfl
  · exact ⟨le_refl _, Nat.le_succ _⟩
  · rw [toNat_succ hroom]
    exact ⟨Nat.le_succ _, le_refl _⟩

end Send

/-- The state of a peer against the sequence numbers its replay entry represents. -/
structure Reservations (c : PeerConfig) (node : NodeId) (s : PeerState)
    (accepted : List UInt64) : Prop where
  localNode : s.engine.localNode = node
  entry : ReplayWindow.EntryRepresents
    (s.engine.replayEntry ⟨c.path.topologyEpoch, node, c.pathId⟩) accepted
  ordered : (s.sends.map (·.sequence.toNat)).Pairwise (fun a b => a + 1 < b)
  room : ∀ x ∈ s.sends, x.sequence.toNat + 1 < 2 ^ 64
  /-- Nothing used or reserved reaches the next sequence number, unless the space is exhausted. -/
  next : s.nextSequence.toNat + 1 = 2 ^ 64 ∨
    (∀ a ∈ accepted, a.toNat < s.nextSequence.toNat) ∧
      ∀ x ∈ s.sends, x.sequence.toNat + 1 < s.nextSequence.toNat
  span : ∀ x ∈ s.sends, x.isFinished = false → ∀ y ∈ s.sends, y.isFinished = false →
    y.sequence.toNat + 1 ≤ x.sequence.toNat + 1024
  window : ∀ x ∈ s.sends, x.isFinished = false → ∀ a ∈ accepted,
    a.toNat ≤ x.sequence.toNat + 1024
  unused : ∀ x ∈ s.sends, ∀ r ∈ x.unused, r ∉ accepted
  notRejected : ∀ x ∈ s.sends, x.isReplayRejected = false

namespace PeerState

lemma getElem?_setPhase (s : PeerState) (i j : ℕ) (phase : SendPhase) :
    (s.setPhase i phase).sends[j]?
      = s.sends[j]?.map fun send => if i = j then { send with phase } else send := by
  rw [setPhase, getElem?_modify]
  by_cases h : i = j <;> simp [h]

lemma sequences_setPhase (s : PeerState) (i : ℕ) (phase : SendPhase) :
    (s.setPhase i phase).sends.map (·.sequence) = s.sends.map (·.sequence) := by
  apply ext_getElem?
  intro j
  rw [getElem?_map, getElem?_map, getElem?_setPhase]
  cases s.sends[j]? with
  | none => rfl
  | some send => by_cases h : i = j <;> simp [h]

lemma mem_setPhase {s : PeerState} {i : ℕ} {send x : Send} {phase : SendPhase}
    (hsend : s.sends[i]? = some send) (hx : x ∈ (s.setPhase i phase).sends) :
    (∃ j, i ≠ j ∧ s.sends[j]? = some x) ∨ x = { send with phase } := by
  obtain ⟨j, hj⟩ := getElem?_of_mem hx
  rw [getElem?_setPhase] at hj
  obtain ⟨y, hy, hxy⟩ := Option.map_eq_some_iff.mp hj
  by_cases hij : i = j
  · subst hij
    obtain rfl : send = y := Option.some.inj (hsend.symm.trans hy)
    exact .inr (by simpa using hxy.symm)
  · rw [if_neg hij] at hxy
    exact .inl ⟨j, hij, hxy ▸ hy⟩

end PeerState

namespace Reservations

variable {c : PeerConfig} {node : NodeId} {s : PeerState} {accepted : List UInt64} {i : ℕ}
  (h : Reservations c node s accepted)

include h

lemma apart {j : ℕ} {x y : Send} (hij : i ≠ j) (hx : s.sends[i]? = some x) (hy : s.sends[j]? = some y) :
    x.sequence.toNat + 1 < y.sequence.toNat ∨ y.sequence.toNat + 1 < x.sequence.toNat := by
  obtain ⟨hi, rfl⟩ := List.getElem?_eq_some_iff.mp hx
  obtain ⟨hj, rfl⟩ := List.getElem?_eq_some_iff.mp hy
  have hpairs := pairwise_iff_getElem.mp h.ordered
  simp only [length_map, getElem_map] at hpairs
  rcases Nat.lt_or_gt_of_ne hij with hlt | hgt
  · exact .inl (hpairs i j hi hj hlt)
  · exact .inr (hpairs j i hj hi hgt)

variable {send : Send}

/-- **A step of one task.**  It may use up numbers the task holds in reserve, and keeps the rest. -/
lemma update (hsend : s.sends[i]? = some send)
    (hlive : send.isFinished = false) {engine : BoundedOverlayForwarder} {accepted' : List UInt64}
    (used : List UInt64) (phase : SendPhase) (hlocal : engine.localNode = node)
    (hentry : EntryRepresents
      (engine.replayEntry ⟨c.path.topologyEpoch, node, c.pathId⟩) accepted')
    (hsub : accepted' ⊆ accepted ++ used) (hused : used ⊆ send.unused)
    (hunused : ∀ r ∈ Send.unused { send with phase }, r ∈ send.unused ∧ r ∉ used)
    (hrejected : Send.isReplayRejected { send with phase } = false) :
    Reservations c node (PeerState.setPhase { s with engine } i phase) accepted' := by
  have hmem : send ∈ s.sends := mem_of_getElem? hsend
  have hsequences := PeerState.sequences_setPhase { s with engine } i phase
  -- every task after the step goes back to one before it with the same sequence number
  have hback : ∀ x ∈ (PeerState.setPhase { s with engine } i phase).sends,
      ∃ y ∈ s.sends, x.sequence = y.sequence ∧ (x.isFinished = false → y.isFinished = false) := by
    intro x hx
    rcases PeerState.mem_setPhase (s := { s with engine }) hsend hx with ⟨j, -, hj⟩ | rfl
    · exact ⟨x, mem_of_getElem? hj, rfl, id⟩
    · exact ⟨send, hmem, rfl, fun _ => hlive⟩
  have husedBounds : ∀ r ∈ used, r.toNat ≤ send.sequence.toNat + 1 := fun r hr =>
    (Send.unused_bounds (h.room send hmem) (hused hr)).2
  refine ⟨hlocal, hentry, ?_, ?_, ?_, ?_, ?_, ?_, ?_⟩
  · have hmap : ∀ l : List Send, l.map (·.sequence.toNat)
        = (l.map (·.sequence)).map UInt64.toNat := fun l => by simp
    rw [hmap, hsequences, ← hmap]
    exact h.ordered
  · intro x hx
    obtain ⟨y, hy, hseq, -⟩ := hback x hx
    exact hseq ▸ h.room y hy
  · rcases h.next with hfull | ⟨haccepted, hsends⟩
    · exact .inl hfull
    · refine .inr ⟨fun a ha => ?_, fun x hx => ?_⟩
      · rcases mem_append.mp (hsub ha) with hold | hnew
        · exact haccepted a hold
        · exact lt_of_le_of_lt (husedBounds a hnew) (hsends send hmem)
      · obtain ⟨y, hy, hseq, -⟩ := hback x hx
        exact hseq ▸ hsends y hy
  · intro x hx hxlive y hy hylive
    obtain ⟨x', hx', hxseq, hxfin⟩ := hback x hx
    obtain ⟨y', hy', hyseq, hyfin⟩ := hback y hy
    rw [hxseq, hyseq]
    exact h.span x' hx' (hxfin hxlive) y' hy' (hyfin hylive)
  · intro x hx hxlive a ha
    obtain ⟨x', hx', hxseq, hxfin⟩ := hback x hx
    rw [hxseq]
    rcases mem_append.mp (hsub ha) with hold | hnew
    · exact h.window x' hx' (hxfin hxlive) a hold
    · exact le_trans (husedBounds a hnew) (h.span x' hx' (hxfin hxlive) send hmem hlive)
  · intro x hx r hr ha
    rcases PeerState.mem_setPhase (s := { s with engine }) hsend hx with ⟨j, hij, hj⟩ | rfl
    · have hxmem := mem_of_getElem? hj
      rcases mem_append.mp (hsub ha) with hold | hnew
      · exact h.unused x hxmem r hr hold
      · -- a number of task `i` is not one of task `j`
        have hi := Send.unused_bounds (h.room send hmem) (hused hnew)
        have hj' := Send.unused_bounds (h.room x hxmem) hr
        rcases h.apart hij hsend hj with hlt | hlt <;> omega
    · obtain ⟨hreserved, hnot⟩ := hunused r hr
      rcases mem_append.mp (hsub ha) with hold | hnew
      · exact h.unused send hmem r hreserved hold
      · exact hnot hnew
  · intro x hx
    rcases PeerState.mem_setPhase (s := { s with engine }) hsend hx with ⟨j, -, hj⟩ | rfl
    · exact h.notRejected x (mem_of_getElem? hj)
    · exact hrejected

lemma setPhase (hsend : s.sends[i]? = some send) (hlive : send.isFinished = false) (phase : SendPhase)
    (hunused : Send.unused { send with phase } ⊆ send.unused)
    (hrejected : Send.isReplayRejected { send with phase } = false) :
    Reservations c node (s.setPhase i phase) accepted :=
  h.update hsend hlive [] phase h.localNode h.entry (by simp) (nil_subset _)
    (fun r hr => ⟨hunused hr, not_mem_nil⟩) hrejected

/-- **A step of others on the engine** keeps the peer's entry or drops it. -/
lemma withEngine {engine : BoundedOverlayForwarder} (hlocal : engine.localNode = node)
    (hkept : KeptOrDropped (s.engine.replayEntry ⟨c.path.topologyEpoch, node, c.pathId⟩)
      (engine.replayEntry ⟨c.path.topologyEpoch, node, c.pathId⟩)) :
    ∃ accepted', Reservations c node { s with engine } accepted' := by
  obtain ⟨accepted', hentry, hcases⟩ := hkept.represents h.entry
  have hsub : accepted' ⊆ accepted := by
    rcases hcases with rfl | rfl
    · exact List.Subset.refl _
    · exact nil_subset _
  exact ⟨accepted', hlocal, hentry, h.ordered, h.room,
    h.next.imp id fun ⟨ha, hs⟩ => ⟨fun a hmem => ha a (hsub hmem), hs⟩, h.span,
    fun x hx hlive a ha => h.window x hx hlive a (hsub ha),
    fun x hx r hr ha => h.unused x hx r hr (hsub ha), h.notRejected⟩

lemma eraseIdx (i : ℕ) : Reservations c node { s with sends := s.sends.eraseIdx i } accepted := by
  have hmem : ∀ x ∈ s.sends.eraseIdx i, x ∈ s.sends := fun x hx => mem_of_mem_eraseIdx hx
  refine ⟨h.localNode, h.entry, ?_, fun x hx => h.room x (hmem x hx),
    h.next.imp id fun ⟨ha, hs⟩ => ⟨ha, fun x hx => hs x (hmem x hx)⟩,
    fun x hx hxl y hy hyl => h.span x (hmem x hx) hxl y (hmem y hy) hyl,
    fun x hx => h.window x (hmem x hx), fun x hx => h.unused x (hmem x hx),
    fun x hx => h.notRejected x (hmem x hx)⟩
  exact h.ordered.sublist ((eraseIdx_sublist _ _).map _)

lemma fresh_succ (hmem : send ∈ s.sends)
    (hlive : send.isFinished = false) (hreserved : send.sequence + 1 ∈ send.unused) :
    Fresh accepted (send.sequence + 1) := by
  refine ⟨h.unused send hmem _ hreserved, fun highest hmax => ?_⟩
  have hhighest := (max?_eq_some_iff.mp hmax).1
  obtain ⟨a, ha, rfl⟩ := mem_map.mp hhighest
  have hwindow := h.window send hmem hlive a ha
  rw [toNat_succ (h.room send hmem)]
  simp only [overlayReplaySequenceWindowBits, overlayPeerMaxInFlightDatagrams,
    overlaySequenceReservationsPerDatagram]
  omega

lemma attempt {now : Instant}
    {selection : OverlayPathSelection} {sequence : UInt64} {onFrame : SendPhase}
    {onError : OverlayForwarderError → OverlayTransitError} (hsend : s.sends[i]? = some send)
    (hlive : send.isFinished = false) (hreserved : sequence ∈ send.unused)
    (hunused : ∀ r ∈ Send.unused { send with phase := onFrame }, r ∈ send.unused ∧ r ≠ sequence)
    (hframe : Send.isReplayRejected { send with phase := onFrame } = false)
    (herror : ∀ error, (Fresh accepted sequence → error.isReplayRejected = false) →
      Send.isReplayRejected { send with phase := .finished (.error (onError error)) } = false) :
    ∃ accepted', Reservations c node
      (s.attempt c i send now selection sequence onFrame onError) accepted' := by
  have hentry := h.entry
  rw [← h.localNode] at hentry
  obtain ⟨⟨accepted', hentry', hsub⟩, hfresh⟩ := encapsulateSelected_represents s.engine now c.path
    selection c.pathId sequence send.payload hentry
  have hlocal := encapsulateSelected_localNode s.engine now c.path selection c.pathId sequence
    send.payload
  rw [h.localNode] at hentry' hlocal
  have hused : [sequence] ⊆ send.unused := by simpa using hreserved
  refine ⟨accepted', ?_⟩
  simp only [PeerState.attempt]
  rcases hexec : exec (encapsulateSelected now c.path selection c.pathId sequence send.payload)
    s.engine with ⟨error | action, engine⟩
  · rw [hexec] at hentry' hlocal hfresh
    exact h.update hsend hlive _ _ hlocal hentry' hsub hused (fun r hr => by cases hr)
      (herror error fun hf => hfresh hf error rfl)
  · rw [hexec] at hentry' hlocal
    cases action with
    | forward next datagram =>
      exact h.update hsend hlive _ _ hlocal hentry' hsub hused
        (fun r hr => ⟨(hunused r hr).1, by simpa using (hunused r hr).2⟩) hframe
    | deliver source payload | directNeighbor peer datagram =>
      exact h.update hsend hlive _ _ hlocal hentry' hsub hused (fun r hr => by cases hr) rfl

end Reservations

namespace PeerState

/-- Every task in flight holds a number less than 1,024 below the next one. -/
def SpanBounded (s : PeerState) : Prop :=
  ∀ x ∈ s.sends, x.isFinished = false → s.nextSequence.toNat < x.sequence.toNat + 1024

def SpanKept (c : PeerConfig) (s : PeerState) (steps : List PeerStep) : Prop :=
  ∀ done payload, done ++ [.receive payload] <+: steps → (run c s done).SpanBounded

end PeerState

namespace Reservations

variable {c : PeerConfig} {node : NodeId} {s : PeerState} {accepted : List UInt64}
  (h : Reservations c node s accepted)

include h

lemma push (hspan : s.SpanBounded) (payload : List UInt8)
    (hroom : s.nextSequence.toNat + 1 < 2 ^ 64) {next : UInt64}
    (hnext : next.toNat + 1 = 2 ^ 64 ∨ next.toNat = s.nextSequence.toNat + 2) :
    Reservations c node
      { s with sends := s.sends ++ [⟨s.nextSequence, payload, .starting⟩], nextSequence := next }
      accepted := by
  obtain ⟨haccepted, hsends⟩ := h.next.resolve_left hroom.ne
  have hmem : ∀ {x : Send}, x ∈ s.sends ++ [⟨s.nextSequence, payload, .starting⟩] →
      x ∈ s.sends ∨ x = ⟨s.nextSequence, payload, .starting⟩ := by
    intro x hx
    simpa using hx
  refine ⟨h.localNode, h.entry, ?_, ?_, ?_, ?_, ?_, ?_, ?_⟩
  · rw [map_append, pairwise_append]
    refine ⟨h.ordered, pairwise_singleton _ _, ?_⟩
    intro a ha b hb
    obtain ⟨x, hx, rfl⟩ := mem_map.mp ha
    obtain rfl : b = s.nextSequence.toNat := by simpa using hb
    exact hsends x hx
  · intro x hx
    rcases hmem hx with hold | rfl
    · exact h.room x hold
    · exact hroom
  · refine hnext.imp id fun hnext => ⟨fun a ha => ?_, fun x hx => ?_⟩
    · have := haccepted a ha
      show a.toNat < next.toNat
      omega
    · show x.sequence.toNat + 1 < next.toNat
      rcases hmem hx with hold | rfl
      · have := hsends x hold
        omega
      · show s.nextSequence.toNat + 1 < next.toNat
        omega
  · intro x hx hxlive y hy hylive
    rcases hmem hx with hxold | rfl <;> rcases hmem hy with hyold | rfl
    · exact h.span x hxold hxlive y hyold hylive
    · exact hspan x hxold hxlive
    · have := hsends y hyold
      show y.sequence.toNat + 1 ≤ s.nextSequence.toNat + 1024
      omega
    · show s.nextSequence.toNat + 1 ≤ s.nextSequence.toNat + 1024
      omega
  · intro x hx hxlive a ha
    rcases hmem hx with hold | rfl
    · exact h.window x hold hxlive a ha
    · have := haccepted a ha
      show a.toNat ≤ s.nextSequence.toNat + 1024
      omega
  · intro x hx r hr ha
    rcases hmem hx with hold | rfl
    · exact h.unused x hold r hr ha
    · have hlow := (Send.unused_bounds hroom hr).1
      exact absurd (haccepted r ha) (Nat.not_lt.mpr hlow)
  · intro x hx
    rcases hmem hx with hold | rfl
    · exact h.notRejected x hold
    · rfl

lemma receive (hspan : s.SpanBounded) (payload : List UInt8) :
    Reservations c node (s.receive payload) accepted := by
  rw [PeerState.receive]
  split_ifs with hguard
  · have hroom := hguard.2.2.2
    have hlimit := toNat_succ hroom
    refine h.push hspan payload hroom ?_
    split_ifs with hlast
    · right
      rw [toNat_succ hlast, hlimit]
    · left
      rw [hlimit] at hlast ⊢
      omega
  · exact h

lemma onSend (i : ℕ) {f : Send → PeerState}
    (hf : ∀ send, s.sends[i]? = some send → ∃ accepted', Reservations c node (f send) accepted') :
    ∃ accepted', Reservations c node (s.onSend i f) accepted' := by
  rw [PeerState.onSend]
  cases hsend : s.sends[i]? with
  | none => exact ⟨accepted, h⟩
  | some send => exact hf send hsend

variable {send : Send} {i : ℕ}

lemma checkSuppressed (hsend : s.sends[i]? = some send) (now : Instant) :
    ∃ accepted', Reservations c node (s.checkSuppressed c i send now) accepted' := by
  obtain ⟨n, payload, phase⟩ := send
  refine ⟨accepted, ?_⟩
  cases phase with
  | starting =>
    have hfinish : ∀ error, (∀ p e, error ≠ .failoverPreparation p e) →
        Reservations c node (s.finish i (.error error)) accepted := by
      intro error hother
      refine h.setPhase hsend rfl _ (nil_subset _) ?_
      cases error <;> first | rfl | exact absurd rfl (hother _ _)
    simp only [PeerState.checkSuppressed]
    cases c.path.validate with
    | error error => exact hfinish _ fun _ _ => nofun
    | ok u =>
      simp only
      split_ifs
      · exact hfinish _ fun _ _ => nofun
      · exact h.setPhase hsend rfl _ (cons_subset_cons _ (nil_subset _)) rfl
      · exact h.setPhase hsend rfl _ (List.Subset.refl _) rfl
  | permitted =>
    simp only [PeerState.checkSuppressed]
    split_ifs
    · exact h.setPhase hsend rfl _ (cons_subset_cons _ (nil_subset _)) rfl
    · exact h.setPhase hsend rfl _ (List.Subset.refl _) rfl
  | _ => exact h

lemma encapsulate (hsend : s.sends[i]? = some send) (now : Instant) :
    ∃ accepted', Reservations c node (s.encapsulate c i send now) accepted' := by
  have hmem := mem_of_getElem? hsend
  obtain ⟨n, payload, phase⟩ := send
  have hroom : n.toNat + 1 < 2 ^ 64 := h.room _ hmem
  have hne : n + 1 ≠ n := by
    intro heq
    have hnat := congrArg UInt64.toNat heq
    rw [toNat_succ hroom] at hnat
    exact absurd hnat (Nat.succ_ne_self _)
  cases phase with
  | primaryReady =>
    refine h.attempt hsend rfl mem_cons_self (fun r hr => ?_) rfl fun _ _ => rfl
    obtain rfl : r = n + 1 := mem_singleton.mp hr
    exact ⟨mem_cons_of_mem _ hr, hne⟩
  | suppressedReady =>
    exact h.attempt hsend rfl mem_cons_self (fun r hr => by cases hr) rfl fun _ _ => rfl
  | failingOver primary =>
    simp only [PeerState.encapsulate]
    split_ifs
    · exact ⟨accepted, h.setPhase hsend rfl _ (nil_subset _) rfl⟩
    · exact ⟨accepted, h.setPhase hsend rfl _ (nil_subset _) rfl⟩
    · have hfresh := h.fresh_succ hmem rfl mem_cons_self
      exact h.attempt hsend rfl mem_cons_self (fun r hr => by cases hr) rfl
        fun error herror => herror hfresh
  | _ => exact ⟨accepted, h⟩

lemma acknowledged (hsend : s.sends[i]? = some send) :
    Reservations c node (s.acknowledged i send) accepted := by
  obtain ⟨n, payload, phase⟩ := send
  cases phase with
  | awaitingPrimary | awaitingSecondary primary | awaitingSuppressed =>
    exact h.setPhase hsend rfl _ (nil_subset _) rfl
  | _ => exact h

lemma withSuppression (deadline : Option Instant) :
    Reservations c node { s with suppressedUntil := deadline } accepted :=
  ⟨h.localNode, h.entry, h.ordered, h.room, h.next, h.span, h.window, h.unused, h.notRejected⟩

lemma failed (hsend : s.sends[i]? = some send) (now : Instant) (error : OverlayPathAttemptError) :
    Reservations c node (s.failed i send now error) accepted := by
  obtain ⟨n, payload, phase⟩ := send
  cases phase with
  | awaitingPrimary =>
    simp only [PeerState.failed]
    split_ifs
    · exact (h.withSuppression (some (now + overlayPrimaryFailureBackoff))).setPhase hsend rfl
        (.failingOver error) (List.Subset.refl _) rfl
    · exact h.setPhase hsend rfl (.failingOver error) (List.Subset.refl _) rfl
  | awaitingSecondary primary | awaitingSuppressed => exact h.setPhase hsend rfl _ (nil_subset _) rfl
  | _ => exact h

lemma engineStep (step : EngineStep) :
    ∃ accepted', Reservations c node (s.engineStep c step) accepted' := by
  cases step with
  | receive now previousHop datagram =>
    exact h.withEngine ((receive_localNode s.engine now previousHop datagram).trans h.localNode)
      (receive_entry s.engine now previousHop datagram h.localNode.symm)
  | encapsulate now path selection pathId sequence datagram =>
    simp only [PeerState.engineStep]
    split_ifs with hsame
    · exact ⟨accepted, h⟩
    · exact h.withEngine ((encapsulateSelected_localNode s.engine now path selection pathId
        sequence datagram).trans h.localNode) (encapsulateSelected_entry_of_ne s.engine now path
        selection pathId sequence datagram hsame)
  | updateNeighborMap now later neighborMap =>
    simp only [PeerState.engineStep]
    cases hupdate : s.engine.updateNeighborMap now later neighborMap with
    | error error => exact ⟨accepted, h⟩
    | ok engine =>
      exact h.withEngine ((updateNeighborMap_localNode hupdate).trans h.localNode)
        (updateNeighborMap_entry hupdate _)

/-- **Every step keeps the invariant**, a receive under the bound on the span. -/
lemma apply (step : PeerStep) (hspan : ∀ payload, step = .receive payload → s.SpanBounded) :
    ∃ accepted', Reservations c node (s.apply c step) accepted' := by
  cases step with
  | receive payload => exact ⟨accepted, h.receive (hspan payload rfl) payload⟩
  | checkSuppressed i now => exact h.onSend i fun _ hsend => h.checkSuppressed hsend now
  | acquirePermit i =>
    refine h.onSend i fun send hsend => ⟨accepted, ?_⟩
    split_ifs with hpermit
    · obtain ⟨n, payload, phase⟩ := send
      obtain rfl : phase = .waitingPermit := hpermit.1
      exact h.setPhase hsend rfl _ (List.Subset.refl _) rfl
    · exact h
  | encapsulate i now => exact h.onSend i fun _ hsend => h.encapsulate hsend now
  | acknowledged i => exact h.onSend i fun _ hsend => ⟨accepted, h.acknowledged hsend⟩
  | failed i now error => exact h.onSend i fun _ hsend => ⟨accepted, h.failed hsend now error⟩
  | join i =>
    refine h.onSend i fun send hsend => ⟨accepted, ?_⟩
    split_ifs
    · exact h.eraseIdx i
    · exact h
  | engine step => exact h.engineStep step
  | suppression deadline => exact ⟨accepted, h.withSuppression deadline⟩

end Reservations

namespace PeerState

/-- A peer that starts to serve: no task yet, and a `path_id` its engine has not seen. -/
structure Starting (c : PeerConfig) (s : PeerState) : Prop where
  sends : s.sends = []
  fresh : (⟨c.path.topologyEpoch, s.engine.localNode, c.pathId⟩ : ReplayPathKey) ∉
    s.engine.replayWindow.sequences

lemma Starting.reservations {c : PeerConfig} {s : PeerState} (h : s.Starting c) :
    Reservations c s.engine.localNode s [] := by
  have hnone : s.engine.replayEntry ⟨c.path.topologyEpoch, s.engine.localNode, c.pathId⟩ = none := by
    have hfresh := h.fresh
    rwa [Std.TreeMap.mem_iff_isSome_getElem?, Option.not_isSome_iff_eq_none] at hfresh
  have hnil : ∀ x, x ∉ s.sends := fun x hx => by rw [h.sends] at hx; cases hx
  refine ⟨rfl, by rw [hnone]; rfl, by rw [h.sends]; exact List.Pairwise.nil,
    fun x hx => (hnil x hx).elim, .inr ⟨fun a ha => (not_mem_nil ha).elim,
    fun x hx => (hnil x hx).elim⟩, fun x hx => (hnil x hx).elim, fun x hx => (hnil x hx).elim,
    fun x hx => (hnil x hx).elim, fun x hx => (hnil x hx).elim⟩

theorem run_reservations {c : PeerConfig} {s : PeerState} (hstart : s.Starting c)
    (steps : List PeerStep) (hspan : s.SpanKept c steps) :
    ∃ accepted, Reservations c s.engine.localNode (run c s steps) accepted := by
  induction steps using List.reverseRecOn with
  | nil => exact ⟨[], hstart.reservations⟩
  | append_singleton steps step ih =>
    obtain ⟨accepted, h⟩ := ih fun done payload hdone =>
      hspan done payload (hdone.trans (prefix_append _ _))
    have hrun : run c s (steps ++ [step]) = (run c s steps).apply c step := by
      simp [run]
    rw [hrun]
    refine h.apply step fun payload hstep => ?_
    subst hstep
    exact hspan steps payload (prefix_refl _)

/-- **A failover passes the replay window as long as the span is kept**: whenever a datagram is received,
every task in flight holds a sequence number less than 1,024 below the next one. -/
theorem failover_never_replayRejected (c : PeerConfig) (s : PeerState) (hstart : s.Starting c)
    (steps : List PeerStep) (hspan : s.SpanKept c steps) (send : Send)
    (hsend : send ∈ (run c s steps).sends) (primary : OverlayPathAttemptError) (source : NodeId)
    (sequence highest : UInt64) :
    send.phase ≠ .finished
      (.error (.failoverPreparation primary (.replayRejected source sequence highest))) := by
  obtain ⟨accepted, h⟩ := run_reservations hstart steps hspan
  intro hphase
  have hnot := h.notRejected send hsend
  rw [Send.isReplayRejected, hphase] at hnot
  cases hnot

end PeerState

/-! ## A stalled task

One task waits for the acknowledgement of its primary frame while later datagrams complete, one
after the other and never more than two tasks at a time. -/

namespace Stalled

def path : OverlayPath :=
  { topologyEpoch := 3, source := ⟨"a"⟩, destination := .v4 0x0a000003#32,
    target := { nodeId := ⟨"d"⟩, clusterId := ⟨"c"⟩, vpnIp := .v4 0x0a000003#32,
                endpointCandidates := 0, routes := [] },
    orderedNodes := [⟨"a"⟩, ⟨"r"⟩, ⟨"d"⟩],
    secondaryOrderedNodes := some [⟨"a"⟩, ⟨"q"⟩, ⟨"d"⟩] }

def pathId : PathId := ⟨List.replicate 16 1, length_ones⟩

def config : PeerConfig := { path, pathId }

def neighborMap : NeighborMap :=
  { clusterId := ⟨"c"⟩, nodeId := ⟨"a"⟩, topologyEpoch := 3, neighbors := [⟨"r"⟩, ⟨"q"⟩],
    validation := .ok () }

def engine (w : ReplayWindow) : BoundedOverlayForwarder :=
  { localNode := ⟨"a"⟩, neighborMap, neighborIds := neighborMap.neighborIds,
    retainedNeighborMaps := [], config := default, replayWindow := w, neighborIds_eq := rfl }

def payload : List UInt8 := [4, 0, 0, 0] ++ List.replicate 28 0

def key : ReplayPathKey := ⟨3, ⟨"a"⟩, pathId⟩

def frame (relay : NodeId) (sequence : UInt64) : MultiHopEnvelope :=
  { topologyEpoch := 3, pathId, sequence, hopIndex := 0, hopLimit := 1, source := ⟨"a"⟩,
    destination := ⟨"d"⟩, path := [relay], opaquePayload := payload }

variable (w : ReplayWindow)

lemma isNeighborForEpoch_eq (node : NodeId) (h : node ∈ neighborMap.neighborIds) :
    (engine w).isNeighborForEpoch node 3 = true := by
  have hids : (engine w).neighborIdsForEpoch 3 = some neighborMap.neighborIds := rfl
  simp [isNeighborForEpoch, hids, h]

lemma validateSelectedPath_eq (now : Instant) (selection : OverlayPathSelection)
    {nodes : List NodeId} (hnodes : path.selectedNodes selection = some nodes)
    (hlen : nodes.length = 3) :
    exec (validateSelectedPath now path selection) (engine w) = (.ok nodes, engine w) := by
  have hvalid : path.validate = .ok () := by decide +kernel
  have hepoch : exec (validateTopologyEpoch now path.topologyEpoch) (engine w)
      = (.ok (), engine w) := rfl
  simp only [validateSelectedPath, exec_bind_eq_ok, exec_get_eq_ok, exec_check_eq_ok,
    exec_pure_eq_ok, required_eq_ok, rejectIf_eq_ok, hvalid]
  refine ⟨(), _, ⟨rfl, rfl⟩, (), _, hepoch, _, _, ⟨rfl, rfl⟩, (), _, ⟨?_, rfl⟩, (), _, ⟨?_, rfl⟩,
    (), _, ⟨?_, rfl⟩, nodes, _, ⟨hnodes, rfl⟩, (), _, ⟨?_, rfl⟩, rfl, rfl⟩
  · exact not_not.mpr rfl
  · exact not_not.mpr rfl
  · show ¬path.target.nodeId = ⟨"a"⟩
    decide
  · rw [hlen]
    rfl

lemma prepareAction_eq (relay : NodeId) (sequence : UInt64)
    (hneighbor : (engine w).isNeighborForEpoch relay 3 = true)
    (hvalid : (frame relay 0).validate 1 = .ok 94) :
    (engine w).prepareAction path [⟨"a"⟩, relay, ⟨"d"⟩] pathId sequence payload
      = .ok (.forward relay (frame relay sequence).frameBytes) := by
  have hvalid' : (frame relay sequence).validate 1 = .ok 94 := hvalid
  have hlength : (frame relay sequence).frameBytes.length = 94 := by
    rw [MultiHopEnvelope.length_frameBytes]
    exact (MultiHopEnvelope.validate_limits hvalid').2.symm
  simp only [prepareAction, bind_eq_ok, required_eq_ok]
  refine ⟨relay, rfl, (), ?_, ?_⟩
  · exact rejectIf_eq_ok.mpr (not_not.mpr hneighbor)
  · rw [if_neg (show ¬[(⟨"a"⟩ : NodeId), relay, ⟨"d"⟩].length = 2 by simp)]
    simp only [bind_eq_ok, codec_eq_ok, MultiHopEnvelope.encode_eq_ok, MultiHopEnvelope.new,
      pure_eq_ok_iff]
    have hsize : ¬94 > maxMultihopFrameBytes := by decide
    exact ⟨(), rfl, frame relay sequence, ⟨94, hvalid', rfl⟩, _, ⟨rfl, 94, hvalid'⟩, (),
      rejectIf_eq_ok.mpr (hlength.symm ▸ hsize), rfl⟩

lemma encapsulateSelected_eq (now : Instant) (selection : OverlayPathSelection) (relay : NodeId)
    (sequence : UInt64) (hnodes : path.selectedNodes selection = some [⟨"a"⟩, relay, ⟨"d"⟩])
    (hneighbor : (engine w).isNeighborForEpoch relay 3 = true)
    (hvalid : (frame relay 0).validate 1 = .ok 94) :
    exec (encapsulateSelected now path selection pathId sequence payload) (engine w) =
      match w.observe 3 ⟨"a"⟩ pathId sequence with
      | .ok w' => (.ok (.forward relay (frame relay sequence).frameBytes), engine w')
      | .error e => (.error e, engine w) :=
  encapsulateSelected_of_prepared rfl (by decide +kernel)
    (validateSelectedPath_eq w now selection hnodes rfl)
    (prepareAction_eq w relay sequence hneighbor hvalid)

lemma observe_eq (sequence : UInt64) :
    w.observe 3 ⟨"a"⟩ pathId sequence = (do
      let next ← observeEntry ⟨"a"⟩ sequence w.sequences[key]?
      pure (pushRecency { w with sequences := w.sequences.insert key next.1 } key
        next.2).evictToCapacity) := rfl

/-- The replay window holds at most the peer's key, at `highest`. -/
structure Tracks (w : ReplayWindow) (highest : UInt64) : Prop where
  capacity : w.capacity = 4096
  size : w.sequences.size = 1
  entry : ∃ entry, w.sequences[key]? = some entry ∧ entry.highest = highest

lemma observe_of_admitted {w : ReplayWindow} {sequence : UInt64} (entry : ReplaySequenceWindow)
    (hcapacity : w.capacity = 4096)
    (hsize : (w.sequences.insert key entry).size = 1) (hhighest : entry.highest = sequence)
    (hlimit : observeEntry ⟨"a"⟩ sequence w.sequences[key]? = .ok (entry, some sequence)) :
    ∃ w', w.observe 3 ⟨"a"⟩ pathId sequence = .ok w' ∧ Tracks w' sequence := by
  have hcapacity' : (pushRecency { w with sequences := w.sequences.insert key entry }
      key (some sequence)).capacity = 4096 := by
    simp only [pushRecency]
    split_ifs <;> exact hcapacity
  have hsequences := pushRecency_sequences
    { w with sequences := w.sequences.insert key entry } key (some sequence)
  refine ⟨pushRecency { w with sequences := w.sequences.insert key entry } key
    (some sequence), ?_, hcapacity', hsequences ▸ hsize, entry, ?_, hhighest⟩
  · rw [observe_eq, hlimit]
    refine congrArg Except.ok (evictToCapacity_of_le ?_)
    rw [hsequences, hcapacity', hsize]
    decide
  · rw [hsequences, Std.TreeMap.getElem?_insert_self]

lemma Tracks.observe {w : ReplayWindow} {highest sequence : UInt64} (h : Tracks w highest)
    (hlt : highest < sequence) :
    ∃ w', w.observe 3 ⟨"a"⟩ pathId sequence = .ok w' ∧ Tracks w' sequence := by
  obtain ⟨entry, hentry, rfl⟩ := h.entry
  have hmem : w.sequences.contains key = true := by
    rw [Std.TreeMap.contains_eq_isSome_getElem?, hentry]
    rfl
  refine observe_of_admitted (entry.advanceTo sequence) h.capacity ?_ rfl ?_
  · rw [Std.TreeMap.size_insert, if_pos hmem, h.size]
  · rw [hentry]
    exact if_pos hlt

lemma Tracks.reject {w : ReplayWindow} {highest : UInt64} (h : Tracks w highest) (sequence : UInt64)
    (hfar : sequence.toNat + 1024 ≤ highest.toNat) :
    w.observe 3 ⟨"a"⟩ pathId sequence = .error (.replayRejected ⟨"a"⟩ sequence highest) := by
  obtain ⟨entry, hentry, rfl⟩ := h.entry
  have hle : sequence ≤ entry.highest := UInt64.le_iff_toNat_le.mpr (by omega)
  have hdistance : (entry.highest - sequence).toNat ≥ overlayReplaySequenceWindowBits := by
    rw [UInt64.toNat_sub_of_le _ _ hle]
    show _ ≥ 1024
    omega
  have hreject : observeEntry ⟨"a"⟩ sequence w.sequences[key]?
      = .error (.replayRejected ⟨"a"⟩ sequence entry.highest) := by
    rw [hentry, observeEntry, if_neg (UInt64.not_lt.mpr hle)]
    simp only [rejectIf, if_pos hdistance]
    rfl
  rw [observe_eq, hreject]
  rfl

/-! ### Rounds -/

def state (others : List Send) (w : ReplayWindow) (next : UInt64) : PeerState :=
  { engine := engine w, nextSequence := next, suppressedUntil := none, sends := others }

def stateWith (others : List Send) (w : ReplayWindow) (n : UInt64) (phase : SendPhase) :
    PeerState :=
  state (others ++ [{ sequence := n, payload, phase }]) w (n + 1 + 1)

/-- A datagram arrives and its task `i` sends it on the primary path. -/
def sendSteps (i : ℕ) : List PeerStep :=
  [.receive payload, .checkSuppressed i 0, .acquirePermit i, .checkSuppressed i 0,
    .encapsulate i 0]

def round (i : ℕ) : List PeerStep := sendSteps i ++ [.acknowledged i, .join i]

section

variable (others : List Send) (w : ReplayWindow) (n : UInt64)

lemma getElem?_stateWith (phase : SendPhase) :
    (stateWith others w n phase).sends[others.length]? = some { sequence := n, payload, phase } :=
  getElem?_concat_length

lemma setPhase_stateWith (phase phase' : SendPhase) :
    (stateWith others w n phase).setPhase others.length phase' = stateWith others w n phase' := by
  have hmodify : ∀ (f : Send → Send) (x : Send),
      (others ++ [x]).modify others.length f = others ++ [f x] := by
    intro f x
    induction others with
    | nil => rfl
    | cons y rest ih => exact congrArg (y :: ·) ih
  exact congrArg (fun sends => state sends w (n + 1 + 1)) (hmodify _ _)

lemma receive_eq (hfree : others.length < maxOverlayPeerInFlightSends) (hroom : n.toNat + 2 < 2 ^ 64) :
    (state others w n).apply config (.receive payload) = stateWith others w n .starting := by
  have hone : n.toNat + 1 < 2 ^ 64 := by omega
  have hlimit : (n + 1).toNat + 1 < 2 ^ 64 := by
    rw [toNat_succ hone]
    omega
  have hguard : (state others w n).sends.length < maxOverlayPeerInFlightSends ∧
      payload.length ≤ maxMultihopPayloadBytes ∧ overlayWireguardDatagram payload = true ∧
      (state others w n).nextSequence.toNat + 1 < 2 ^ 64 :=
    ⟨hfree, by decide, by decide, hone⟩
  rw [PeerState.apply, PeerState.receive, if_pos hguard]
  simp only [state, hlimit, if_true]
  rfl

lemma checkSuppressed_eq :
    (stateWith others w n .starting).apply config (.checkSuppressed others.length 0)
      = stateWith others w n .waitingPermit := by
  have hvalid : config.path.validate = .ok () := by decide +kernel
  have hrelay : ¬config.path.orderedNodes.length = 2 := by decide
  have hclear : PeerState.usesSuppressed config (stateWith others w n .starting) 0 = false := rfl
  simp only [PeerState.apply, PeerState.onSend, getElem?_stateWith, PeerState.checkSuppressed,
    hvalid, hrelay, if_false, hclear, setPhase_stateWith]
  rfl

lemma acquirePermit_eq
    (hpermits : others.countP Send.holdsPermit < maxOverlayPrimaryInFlightPerNextHop) :
    (stateWith others w n .waitingPermit).apply config (.acquirePermit others.length)
      = stateWith others w n .permitted := by
  have hcount : (stateWith others w n .waitingPermit).sends.countP Send.holdsPermit
      = others.countP Send.holdsPermit := by
    show (others ++ [_]).countP Send.holdsPermit = _
    rw [countP_append]
    rfl
  simp only [PeerState.apply, PeerState.onSend, getElem?_stateWith, hcount, hpermits, and_self,
    if_true, setPhase_stateWith]

lemma recheckSuppressed_eq :
    (stateWith others w n .permitted).apply config (.checkSuppressed others.length 0)
      = stateWith others w n .primaryReady := by
  have hclear : PeerState.usesSuppressed config (stateWith others w n .permitted) 0 = false := rfl
  simp only [PeerState.apply, PeerState.onSend, getElem?_stateWith, PeerState.checkSuppressed,
    hclear, setPhase_stateWith]
  rfl

variable {w n}

variable {w' : ReplayWindow}

lemma encapsulate_eq (h : w.observe 3 ⟨"a"⟩ pathId n = .ok w') :
    (stateWith others w n .primaryReady).apply config (.encapsulate others.length 0)
      = stateWith others w' n .awaitingPrimary := by
  have hattempt := encapsulateSelected_eq w 0 .primary ⟨"r"⟩ n rfl
    (isNeighborForEpoch_eq w _ (by decide)) (by decide +kernel)
  rw [h] at hattempt
  have hexec : exec (encapsulateSelected 0 config.path .primary config.pathId n payload)
      (stateWith others w n .primaryReady).engine
      = (.ok (.forward ⟨"r"⟩ (frame ⟨"r"⟩ n).frameBytes), engine w') := hattempt
  simp only [PeerState.apply, PeerState.onSend, getElem?_stateWith, PeerState.encapsulate,
    PeerState.attempt, hexec]
  exact setPhase_stateWith others w' n .primaryReady .awaitingPrimary

section

variable (hfree : others.length < maxOverlayPeerInFlightSends)
    (hpermits : others.countP Send.holdsPermit < maxOverlayPrimaryInFlightPerNextHop)
    (hroom : n.toNat + 2 < 2 ^ 64) (h : w.observe 3 ⟨"a"⟩ pathId n = .ok w')
include hfree hpermits hroom h

lemma run_sendSteps :
    (state others w n).run config (sendSteps others.length)
      = stateWith others w' n .awaitingPrimary := by
  simp only [sendSteps, PeerState.run, foldl_cons, foldl_nil,
    receive_eq others w n hfree hroom, checkSuppressed_eq, acquirePermit_eq others w n hpermits,
    recheckSuppressed_eq, encapsulate_eq others h]

lemma run_round :
    (state others w n).run config (round others.length) = state others w' (n + 1 + 1) := by
  have hsend := run_sendSteps others hfree hpermits hroom h
  rw [PeerState.run] at hsend
  rw [round, PeerState.run, foldl_append, hsend]
  have hfinished : (stateWith others w' n .awaitingPrimary).apply config
      (.acknowledged others.length)
      = stateWith others w' n (.finished (.ok { selection := .primary, sequence := n })) := by
    simp only [PeerState.apply, PeerState.onSend, getElem?_stateWith, PeerState.acknowledged,
      PeerState.finish, setPhase_stateWith]
  have herase : ∀ x : Send, (others ++ [x]).eraseIdx others.length = others := by
    intro x
    rw [eraseIdx_append_of_length_le (le_refl _), Nat.sub_self]
    exact append_nil others
  simp only [foldl_cons, foldl_nil, hfinished]
  simp only [PeerState.apply, PeerState.onSend, getElem?_stateWith, Send.isFinished, if_true]
  exact congrArg (fun sends => state sends w' (n + 1 + 1)) (herase _)

end

end

def waiting : Send := { sequence := 1000, payload, phase := .awaitingPrimary }

lemma run_rounds {w : ReplayWindow} (h : Tracks w 1000) (k : ℕ) (hk : k ≤ 1000) :
    ∃ w' highest, (state [waiting] w 1002).run config (List.replicate k (round 1)).flatten
        = state [waiting] w' (highest + 1 + 1) ∧ Tracks w' highest ∧ highest.toNat = 1000 + 2 * k := by
  induction k with
  | zero => exact ⟨w, 1000, rfl, h, rfl⟩
  | succ k ih =>
    obtain ⟨w₁, highest, hrun, htracks, hhighest⟩ := ih (by omega)
    have hone : highest.toNat + 1 < 2 ^ 64 := by omega
    have htwo : (highest + 1).toNat + 1 < 2 ^ 64 := by
      rw [toNat_succ hone]
      omega
    have hnext : (highest + 1 + 1).toNat = highest.toNat + 2 := by
      rw [toNat_succ htwo, toNat_succ hone]
    have hlt : highest < highest + 1 + 1 := UInt64.lt_iff_toNat_lt.mpr (by omega)
    obtain ⟨w₂, hobserve, htracks₂⟩ := htracks.observe hlt
    refine ⟨w₂, highest + 1 + 1, ?_, htracks₂, by omega⟩
    rw [PeerState.run] at hrun
    rw [replicate_succ', flatten_append, flatten_singleton, PeerState.run,
      foldl_append, hrun]
    exact run_round [waiting] (by decide) (by decide) (by omega) hobserve

/-- The first datagram stalls, 513 more complete, the first times out and fails over. -/
def steps : List PeerStep :=
  sendSteps 0 ++ (List.replicate 513 (round 1)).flatten ++
    [.failed 0 1 .acknowledgementTimeout, .encapsulate 0 2]

def start : PeerState := state [] (.new 4096) 1000

lemma observe_first : ∃ w, (new 4096).observe 3 ⟨"a"⟩ pathId 1000 = .ok w ∧
    Tracks w 1000 :=
  observe_of_admitted (.new 1000) rfl (by decide +kernel) rfl (by decide +kernel)

/-- **The window does not cover every reservation in flight.**  The failover of a datagram that stalled on
sequence number 1,000 is rejected after 513 later datagrams. -/
theorem stalled_failover_rejected :
    start.Starting config ∧
    (start.run config steps).sends = [⟨1000, payload,
      .finished (.error (.failoverPreparation .acknowledgementTimeout
        (.replayRejected ⟨"a"⟩ 1001 2026)))⟩] := by
  refine ⟨⟨rfl, by decide +kernel⟩, ?_⟩
  obtain ⟨w, hobserve, htracks⟩ := observe_first
  have hfirst : start.run config (sendSteps 0) = state [waiting] w 1002 :=
    run_sendSteps [] (by decide) (by decide) (by decide) hobserve
  obtain ⟨w', highest, hrounds, htracks', hhighest⟩ := run_rounds htracks 513 (by decide)
  obtain rfl : highest = 2026 := UInt64.toNat_inj.mp hhighest
  rw [PeerState.run] at hfirst hrounds
  rw [steps, PeerState.run, List.foldl_append, List.foldl_append, hfirst, hrounds]
  have hreject := htracks'.reject 1001 (by decide)
  have hattempt := encapsulateSelected_eq w' 2 .secondary ⟨"q"⟩ 1001 rfl
    (isNeighborForEpoch_eq w' _ (by decide)) (by decide +kernel)
  rw [hreject] at hattempt
  have hexec : exec (encapsulateSelected 2 config.path .secondary config.pathId (1000 + 1) payload)
      (engine w') = (.error (.replayRejected ⟨"a"⟩ 1001 2026), engine w') := hattempt
  have hfailed : (state [waiting] w' (2026 + 1 + 1)).apply config (.failed 0 1 .acknowledgementTimeout)
      = { state [⟨1000, payload, .failingOver .acknowledgementTimeout⟩] w' (2026 + 1 + 1) with
          suppressedUntil := some (1 + overlayPrimaryFailureBackoff) } := rfl
  have hroom : ¬(1000 : UInt64).toNat + 1 ≥ 2 ^ 64 := by decide
  have hsecondary : ¬config.path.secondaryOrderedNodes = none := by decide
  simp only [List.foldl_cons, List.foldl_nil, hfailed]
  simp only [PeerState.apply, PeerState.onSend, state, List.getElem?_cons_zero,
    PeerState.encapsulate, hroom, hsecondary, if_false, PeerState.attempt, hexec]
  rfl

/-- With nothing sent in between, the same failover passes. -/
def promptSteps : List PeerStep :=
  sendSteps 0 ++ [.failed 0 1 .acknowledgementTimeout, .encapsulate 0 2]

theorem promptSteps_never_replayRejected :
    start.Starting config ∧ start.SpanKept config promptSteps ∧
    (start.run config promptSteps).sends
      = [⟨1000, payload, .awaitingSecondary .acknowledgementTimeout⟩] ∧
    ∀ send ∈ (start.run config promptSteps).sends, ∀ primary source sequence highest,
      send.phase ≠ .finished
        (.error (.failoverPreparation primary (.replayRejected source sequence highest))) := by
  have hstart : start.Starting config := ⟨rfl, by decide +kernel⟩
  have hspan : start.SpanKept config promptSteps := by
    intro done payload' hdone
    -- the only datagram arrives first
    cases done with
    | nil => exact fun x hx => absurd hx List.not_mem_nil
    | cons first rest =>
      exfalso
      have hmem : PeerStep.receive payload' ∈ promptSteps.tail := by
        obtain ⟨later, hlater⟩ := hdone
        rw [← hlater]
        simp
      simp [promptSteps, sendSteps] at hmem
  exact ⟨hstart, hspan, by decide +kernel, fun send hsend primary source sequence highest =>
    PeerState.failover_never_replayRejected config start hstart promptSteps hspan send hsend primary
      source sequence highest⟩

end Stalled

end HeteroNetwork
