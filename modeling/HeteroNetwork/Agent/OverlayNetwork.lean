import HeteroNetwork.Agent.OverlayForwarder

/-!
# Forwarding engines joined by an authenticated hop transport

No engine sees a whole path.  Here any number of engines is put together, to see what their local checks
add up to.  A destination next to the source (`DirectNeighbor`) is served by the outer dataplane, not by an
envelope.
-/

namespace HeteroNetwork

open Checked BoundedOverlayForwarder List

/-! ## The network -/

/-- A datagram in the hop transport, with its true sender. -/
structure Packet where
  sender : NodeId
  nextHop : NodeId
  datagram : List UInt8

inductive CallInput where
  | encapsulate (path : OverlayPath) (selection : OverlayPathSelection) (pathId : PathId)
      (sequence : UInt64) (datagram : List UInt8)
  | receive (previousHop : NodeId) (datagram : List UInt8)

/-- One successful call: who, on what, with which result, and the engine after it. -/
structure Event where
  node : NodeId
  input : CallInput
  action : OverlayForwardAction
  engine : BoundedOverlayForwarder

structure Network where
  engines : NodeId → Option BoundedOverlayForwarder
  inFlight : List Packet
  log : List Event

inductive NetworkStep where
  | boot (node : NodeId) (neighborMap : NeighborMap) (config : OverlayForwarderConfig)
  | updateNeighborMap (node : NodeId) (now later : Instant) (neighborMap : NeighborMap)
  | encapsulate (node : NodeId) (now : Instant) (path : OverlayPath)
      (selection : OverlayPathSelection) (pathId : PathId) (sequence : UInt64)
      (datagram : List UInt8)
  | receive (node : NodeId) (now : Instant) (packet : ℕ)

namespace Network

def empty : Network := { engines := fun _ => none, inFlight := [], log := [] }

def setEngine (net : Network) (node : NodeId) (f : BoundedOverlayForwarder) : Network :=
  { net with engines := Function.update net.engines node (some f) }

def sent (node : NodeId) : OverlayForwardAction → List Packet
  | .forward nextHop datagram => [{ sender := node, nextHop, datagram }]
  | .deliver _ _ => []
  | .directNeighbor _ _ => []

def record (net : Network) (node : NodeId) (input : CallInput) :
    Except OverlayForwarderError OverlayForwardAction × BoundedOverlayForwarder → Network
  | (.ok action, engine) =>
    { net.setEngine node engine with
      inFlight := net.inFlight ++ sent node action
      log := net.log ++ [{ node, input, action, engine }] }
  | (.error _, engine) => net.setEngine node engine

/-- A step that does not apply (no such engine, no such packet, a rejected map) changes nothing. -/
def apply (net : Network) : NetworkStep → Network
  | .boot node neighborMap config =>
    match BoundedOverlayForwarder.new node neighborMap config with
    | .ok f => net.setEngine node f
    | .error _ => net
  | .updateNeighborMap node now later neighborMap =>
    match net.engines node with
    | none => net
    | some f =>
      match f.updateNeighborMap now later neighborMap with
      | .ok f' => net.setEngine node f'
      | .error _ => net
  | .encapsulate node now path selection pathId sequence datagram =>
    match net.engines node with
    | none => net
    | some f => net.record node (.encapsulate path selection pathId sequence datagram)
        (exec (encapsulateSelected now path selection pathId sequence datagram) f)
  | .receive node now packet =>
    match net.engines node, net.inFlight[packet]? with
    | some f, some p => net.record node (.receive p.sender p.datagram)
        (exec (BoundedOverlayForwarder.receive now p.sender p.datagram) f)
    | _, _ => net

def run (steps : List NetworkStep) : Network := steps.foldl apply empty

end Network

/-! ## Accounting for an envelope -/

/-- Node `hop` of the route emits the envelope, the source from `encapsulate_selected`, a relay from
`receive`, unchanged except for the hop index, between neighbours for its epoch. -/
def EmittedAt (e : MultiHopEnvelope) (hop : ℕ) (event : Event) : Prop :=
  e.route[hop]? = some event.node ∧
  (∃ next, e.route[hop + 1]? = some next ∧
    event.action = .forward next (e.atHop hop).frameBytes ∧
    event.engine.HasNeighbor e.topologyEpoch next) ∧
  match hop with
  | 0 => ∃ path selection,
      event.input = .encapsulate path selection e.pathId e.sequence e.opaquePayload ∧
        path.topologyEpoch = e.topologyEpoch ∧ path.selectedNodes selection = some e.route
  | before + 1 => ∃ previous, e.route[before]? = some previous ∧
      event.input = .receive previous (e.atHop before).frameBytes ∧
      event.engine.HasNeighbor e.topologyEpoch previous

/-- The log holds, in this order, the events in which the nodes `0, …, last` of the route emitted
the envelope. -/
def TracedTo (log : List Event) (e : MultiHopEnvelope) (last : ℕ) : Prop :=
  ∃ events : List Event, events.Sublist log ∧ events.length = last + 1 ∧
    ∀ hop event, events[hop]? = some event → EmittedAt e hop event

variable {e : MultiHopEnvelope} {log : List Event}

lemma TracedTo.mono {log' : List Event} {last : ℕ} (h : TracedTo log e last)
    (hsub : log.Sublist log') : TracedTo log' e last := by
  obtain ⟨events, hevents, hrest⟩ := h
  exact ⟨events, hevents.trans hsub, hrest⟩

lemma tracedTo_zero {event : Event} (h : EmittedAt e 0 event) : TracedTo (log ++ [event]) e 0 := by
  refine ⟨[event], sublist_append_right _ _, rfl, ?_⟩
  intro hop event' hget
  obtain ⟨hlt, rfl⟩ := List.getElem?_eq_some_iff.mp hget
  obtain rfl : hop = 0 := by simpa using hlt
  exact h

lemma TracedTo.succ {last : ℕ} {event : Event} (h : TracedTo log e last)
    (hevent : EmittedAt e (last + 1) event) : TracedTo (log ++ [event]) e (last + 1) := by
  obtain ⟨events, hevents, hlength, hall⟩ := h
  refine ⟨events ++ [event], hevents.append (List.Sublist.refl _), by simp [hlength], ?_⟩
  intro hop event' hget
  rcases Nat.lt_or_ge hop events.length with hlt | hge
  · rw [getElem?_append_left hlt] at hget
    exact hall hop event' hget
  · rw [getElem?_append_right hge] at hget
    obtain ⟨hzero, rfl⟩ := List.getElem?_eq_some_iff.mp hget
    obtain rfl : hop = last + 1 := by
      simp at hzero
      omega
    simpa using hevent

/-- A packet in flight holds a valid envelope that the log accounts for. -/
def Carried (log : List Event) (p : Packet) : Prop :=
  ∃ e : MultiHopEnvelope, (∃ len, e.validate 1 = .ok len) ∧ p.datagram = e.frameBytes ∧
    TracedTo log e e.hopIndex.toNat

def Accounted (log : List Event) (event : Event) (source : NodeId) (payload : List UInt8) : Prop :=
  ∃ (e : MultiHopEnvelope) (previous : NodeId) (datagram : List UInt8),
    event.input = .receive previous datagram ∧ MultiHopEnvelope.decode datagram 1 = .ok e ∧
    e.source = source ∧ e.opaquePayload = payload ∧ e.destination = event.node ∧
    e.path.getLast? = some previous ∧ event.engine.HasNeighbor e.topologyEpoch previous ∧
    TracedTo log e e.path.length

namespace Network

structure Inv (net : Network) : Prop where
  localNode : ∀ node f, net.engines node = some f → f.localNode = node
  inFlight : ∀ p ∈ net.inFlight, Carried net.log p
  delivered : ∀ i event source payload, net.log[i]? = some event →
    event.action = .deliver source payload → Accounted (net.log.take i) event source payload

lemma inv_empty : empty.Inv where
  localNode := fun _ _ h => by simp [empty] at h
  inFlight := fun _ h => by simp [empty] at h
  delivered := fun _ _ _ _ h => by simp [empty] at h

variable {f : BoundedOverlayForwarder} {net : Network} {node : NodeId}

lemma Inv.setEngine (h : net.Inv) (hf : f.localNode = node) :
    (net.setEngine node f).Inv where
  localNode := by
    intro node' f' hget
    simp only [Network.setEngine, Function.update_apply] at hget
    split_ifs at hget with hnode
    · obtain rfl := Option.some.inj hget
      rw [hf, hnode]
    · exact h.localNode node' f' hget
  inFlight := h.inFlight
  delivered := h.delivered

lemma Inv.record (h : net.Inv) {input : CallInput}
    {result : Except OverlayForwarderError OverlayForwardAction × BoundedOverlayForwarder}
    (hlocal : result.2.localNode = node)
    (hforward : ∀ next datagram, result.1 = .ok (.forward next datagram) →
      Carried (net.log ++ [{ node, input, action := .forward next datagram, engine := result.2 }])
        { sender := node, nextHop := next, datagram })
    (hdeliver : ∀ source payload, result.1 = .ok (.deliver source payload) →
      Accounted net.log { node, input, action := .deliver source payload, engine := result.2 }
        source payload) : (net.record node input result).Inv := by
  obtain ⟨_ | action, engine⟩ := result
  · exact h.setEngine hlocal
  · refine ⟨(h.setEngine hlocal).localNode, ?_, ?_⟩
    · intro p hp
      rcases mem_append.mp hp with hold | hnew
      · obtain ⟨e, hvalid, hframe, htraced⟩ := h.inFlight p hold
        exact ⟨e, hvalid, hframe, htraced.mono (sublist_append_left _ _)⟩
      · cases action with
        | forward next datagram =>
          obtain rfl := mem_singleton.mp hnew
          exact hforward next datagram rfl
        | deliver | directNeighbor => exact absurd hnew not_mem_nil
    · intro i event source payload hget haction
      have hlog : (net.record node input (.ok action, engine)).log
          = net.log ++ [⟨node, input, action, engine⟩] := rfl
      rw [hlog] at hget ⊢
      rcases Nat.lt_or_ge i net.log.length with hlt | hge
      · rw [getElem?_append_left hlt] at hget
        rw [take_append_of_le_length hlt.le]
        exact h.delivered i event source payload hget haction
      · rw [getElem?_append_right hge] at hget
        obtain ⟨hzero, rfl⟩ := List.getElem?_eq_some_iff.mp hget
        obtain rfl : i = net.log.length := by
          simp at hzero
          omega
        rw [take_left]
        simp only [Nat.sub_self, getElem_cons_zero] at haction ⊢
        subst haction
        exact hdeliver source payload rfl

/-! ## Every step keeps the accounts -/

lemma carried_of_encapsulate {f' : BoundedOverlayForwarder} {next : NodeId} {now : Instant}
    {path : OverlayPath} {selection : OverlayPathSelection} {pathId : PathId} {sequence : UInt64}
    {inner datagram : List UInt8} (hlocal : f.localNode = node)
    (h : exec (encapsulateSelected now path selection pathId sequence inner) f
      = (.ok (.forward next datagram), f')) :
    Carried (net.log ++ [⟨node, .encapsulate path selection pathId sequence inner,
      .forward next datagram, f'⟩]) ⟨node, next, datagram⟩ := by
  obtain ⟨e, hepoch, rfl, rfl, rfl, hhop, hsource, hroute, hencode, hnext, -, hneighbor⟩ :=
    encapsulateSelected_forward h
  obtain ⟨rfl, hvalid⟩ := MultiHopEnvelope.encode_eq_ok.mp hencode
  have hzero : e.hopIndex.toNat = 0 := by rw [hhop]; rfl
  have hatHop : e.atHop 0 = e := by rw [← hzero, e.atHop_hopIndex]
  refine ⟨e, hvalid, rfl, ?_⟩
  rw [hzero]
  refine tracedTo_zero ⟨?_, ⟨next, hnext, by rw [hatHop], hneighbor⟩, path, selection, rfl,
    hepoch.symm, hroute⟩
  show some e.source = some node
  rw [hsource, hlocal]

lemma tracedTo_of_accepted {f' : BoundedOverlayForwarder} {p : Packet} {e : MultiHopEnvelope}
    (hcarried : Carried net.log p) (haccepted : Accepted f f' p.sender p.datagram e) :
    p.datagram = (e.atHop e.hopIndex.toNat).frameBytes ∧ TracedTo net.log e e.hopIndex.toNat := by
  obtain ⟨e', ⟨len, hvalid⟩, hframe, htraced⟩ := hcarried
  have hsame : e' = e := by
    have hdecode := haccepted.decoded
    rw [hframe, MultiHopEnvelope.decode_of_frameBytes hvalid] at hdecode
    exact Except.ok.inj hdecode
  subst hsame
  rw [e'.atHop_hopIndex]
  exact ⟨hframe, htraced⟩

lemma Inv.receive (h : net.Inv) {p : Packet} (now : Instant) (hf : net.engines node = some f)
    (hp : p ∈ net.inFlight) :
    (net.record node (.receive p.sender p.datagram)
      (exec (BoundedOverlayForwarder.receive now p.sender p.datagram) f)).Inv := by
  have hlocal := h.localNode node f hf
  refine h.record ((receive_localNode f now p.sender p.datagram).trans hlocal) ?_ ?_
  · intro next datagram hok
    obtain ⟨e, haccepted, ⟨-, hother⟩ | ⟨next', out, hsame, hlt, hnext, hencode, hneighbor⟩⟩ :=
      receive_eq_ok (Prod.ext hok rfl)
    · cases hother
    · obtain ⟨rfl, rfl⟩ := OverlayForwardAction.forward.inj hsame
      obtain ⟨hframe, htraced⟩ := tracedTo_of_accepted (h.inFlight p hp) haccepted
      obtain ⟨rfl, len, hvalid⟩ := MultiHopEnvelope.encode_eq_ok.mp hencode
      have hlimits := (MultiHopEnvelope.validate_limits hvalid).1
      have hindex : (e.atHop (e.hopIndex.toNat + 1)).hopIndex.toNat = e.hopIndex.toNat + 1 := by
        have hbound : e.path.length ≤ maxMultihopPathNodes := hlimits.path_le
        simp only [maxMultihopPathNodes] at hbound
        simp only [MultiHopEnvelope.atHop, UInt16.toNat_ofNat']
        omega
      refine ⟨_, ⟨len, hvalid⟩, rfl, ?_⟩
      rw [hindex]
      refine TracedTo.succ (e := e) htraced ⟨?_, ⟨next, hnext, rfl, hneighbor⟩, p.sender,
        haccepted.previous, by rw [hframe], haccepted.previous_neighbor⟩
      rw [haccepted.here, hlocal]
  · intro source payload hok
    obtain ⟨e, haccepted, ⟨hcomplete, hsame⟩ | ⟨next, out, hother, -⟩⟩ :=
      receive_eq_ok (Prod.ext hok rfl)
    · obtain ⟨rfl, rfl⟩ := OverlayForwardAction.deliver.inj hsame
      obtain ⟨-, htraced⟩ := tracedTo_of_accepted (h.inFlight p hp) haccepted
      obtain ⟨-, len, hvalid⟩ := MultiHopEnvelope.decode_eq_ok.mp haccepted.decoded
      have hlimits := (MultiHopEnvelope.validate_limits hvalid).1
      have hindex : e.hopIndex.toNat = e.path.length := hcomplete
      have hhere := haccepted.here
      have hprevious := haccepted.previous
      rw [hindex] at htraced hhere hprevious
      rw [e.route_getElem?_last] at hhere
      rw [← e.path_getLast?_eq hlimits.path_pos] at hprevious
      exact ⟨e, p.sender, p.datagram, rfl, haccepted.decoded, rfl, rfl,
        (Option.some.inj hhere).trans hlocal, hprevious, haccepted.previous_neighbor, htraced⟩
    · cases hother

lemma Inv.apply (h : net.Inv) (step : NetworkStep) : (net.apply step).Inv := by
  cases step with
  | boot node neighborMap config =>
    simp only [Network.apply]
    split
    · exact h.setEngine (new_localNode ‹_›)
    · exact h
  | updateNeighborMap node now later neighborMap =>
    simp only [Network.apply]
    split
    · exact h
    · rename_i f hf
      split
      · rename_i f' hf'
        exact h.setEngine ((updateNeighborMap_localNode hf').trans (h.localNode node f hf))
      · exact h
  | encapsulate node now path selection pathId sequence datagram =>
    simp only [Network.apply]
    split
    · exact h
    · rename_i f hf
      have hlocal := h.localNode node f hf
      refine h.record ((encapsulateSelected_localNode f now path selection pathId sequence
        datagram).trans hlocal) ?_ ?_
      · intro next out hok
        exact carried_of_encapsulate hlocal (Prod.ext hok rfl)
      · intro source payload hok
        exact (encapsulateSelected_ne_deliver (Prod.ext hok rfl)).elim
  | receive node now packet =>
    simp only [Network.apply]
    split
    · rename_i f p hf hp
      exact h.receive now hf (mem_of_getElem? hp)
    · exact h

theorem run_inv (steps : List NetworkStep) : (run steps).Inv := by
  induction steps using List.reverseRecOn with
  | nil => exact inv_empty
  | append_singleton steps step ih =>
    have hrun : run (steps ++ [step]) = (run steps).apply step := by
      simp [run]
    rw [hrun]
    exact ih.apply step

/-- **Every delivery goes back to its source, edge by edge.**  The frame that a node opens to deliver a
payload holds an envelope addressed to it, and the log holds, in path order, the events in which the source
and every relay of its path emitted it, between neighbours in a map of its epoch. -/
theorem deliver_traced_back (steps : List NetworkStep) (i : ℕ) (event : Event) (source : NodeId)
    (payload : List UInt8) (hevent : (run steps).log[i]? = some event)
    (hdeliver : event.action = .deliver source payload) :
    ∃ (e : MultiHopEnvelope) (previous : NodeId) (datagram : List UInt8),
      event.input = .receive previous datagram ∧ MultiHopEnvelope.decode datagram 1 = .ok e ∧
      e.source = source ∧ e.opaquePayload = payload ∧ e.destination = event.node ∧
      e.path.getLast? = some previous ∧ event.engine.HasNeighbor e.topologyEpoch previous ∧
      ∃ events : List Event, events.Sublist ((run steps).log.take i) ∧
        events.length = e.path.length + 1 ∧
        ∀ hop emitted, events[hop]? = some emitted → EmittedAt e hop emitted :=
  (run_inv steps).delivered i event source payload hevent hdeliver

def lineMap (node : String) (neighbors : List String) : NeighborMap :=
  { clusterId := ⟨"c"⟩, nodeId := ⟨node⟩, topologyEpoch := 3,
    neighbors := neighbors.map NodeId.mk, validation := .ok () }

def linePath : OverlayPath :=
  { topologyEpoch := 3, source := ⟨"a"⟩, destination := .v4 0x0a000003#32,
    target := { nodeId := ⟨"d"⟩, clusterId := ⟨"c"⟩, vpnIp := .v4 0x0a000003#32,
                endpointCandidates := 0, routes := [] },
    orderedNodes := [⟨"a"⟩, ⟨"r"⟩, ⟨"d"⟩], secondaryOrderedNodes := none }

/-- `a` sends one datagram to `d` over `r`; `r` gets the frame twice. -/
def lineSteps : List NetworkStep :=
  [.boot ⟨"a"⟩ (lineMap "a" ["r"]) default, .boot ⟨"r"⟩ (lineMap "r" ["a", "d"]) default,
    .boot ⟨"d"⟩ (lineMap "d" ["r"]) default,
    .encapsulate ⟨"a"⟩ 0 linePath .primary ⟨List.replicate 16 1, length_ones⟩ 9 [0xaa],
    .receive ⟨"r"⟩ 1 0, .receive ⟨"r"⟩ 2 0, .receive ⟨"d"⟩ 3 1]

theorem lineSteps_traced_back :
    ∃ event, (run lineSteps).log[2]? = some event ∧
      event.action = .deliver ⟨"a"⟩ [0xaa] ∧
      ∃ (e : MultiHopEnvelope) (previous : NodeId) (datagram : List UInt8),
        event.input = .receive previous datagram ∧ MultiHopEnvelope.decode datagram 1 = .ok e ∧
        e.source = ⟨"a"⟩ ∧ e.opaquePayload = [0xaa] ∧ e.destination = event.node ∧
        e.path.getLast? = some previous ∧ event.engine.HasNeighbor e.topologyEpoch previous ∧
        ∃ events : List Event, events.Sublist ((run lineSteps).log.take 2) ∧
          events.length = e.path.length + 1 ∧
          ∀ hop emitted, events[hop]? = some emitted → EmittedAt e hop emitted := by
  have hlast : ((run lineSteps).log[2]?.map Event.action)
      = some (.deliver ⟨"a"⟩ [0xaa]) := by
    decide +kernel
  obtain ⟨event, hevent, hdeliver⟩ := Option.map_eq_some_iff.mp hlast
  exact ⟨event, hevent, hdeliver,
    deliver_traced_back lineSteps 2 event ⟨"a"⟩ [0xaa] hevent hdeliver⟩

end Network

end HeteroNetwork
