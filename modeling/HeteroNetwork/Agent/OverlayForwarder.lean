import HeteroNetwork.Agent.ReplayWindow
import HeteroNetwork.Relay.MultiHopRoundTrip

/-!
# The forwarding engine of one node

`BoundedOverlayForwarder` of `ipars-agent/src/overlay_forwarder.rs` wraps datagrams into multi-hop envelopes,
relays them and opens them at the destination.  Each call checks only the two edges next to the local node;
`now` is what `Instant::now()` returned.
-/

namespace HeteroNetwork

open Checked List

/-! ## State -/

abbrev Instant := ℕ

def previousTopologyEpochGrace : ℕ := 120 * 10 ^ 9

def maxRetainedTopologyEpochs : ℕ := 8

inductive OverlayPathSelection where
  | primary
  | secondary
deriving DecidableEq

inductive OverlayForwardAction where
  | forward (nextHop : NodeId) (datagram : List UInt8)
  | deliver (source : NodeId) (payload : List UInt8)
  | directNeighbor (peer : NodeId) (datagram : List UInt8)
deriving DecidableEq

def OverlayPath.selectedNodes (path : OverlayPath) : OverlayPathSelection → Option (List NodeId)
  | .primary => some path.orderedNodes
  | .secondary => path.secondaryOrderedNodes

def NeighborMap.neighborIds (map : NeighborMap) : Finset NodeId := map.neighbors.toFinset

structure RetainedNeighborMap where
  neighborMap : NeighborMap
  neighborIds : Finset NodeId
  expiresAt : Instant
  neighborIds_eq : neighborIds = neighborMap.neighborIds

/-- The engine caches the node ids of each map next to the map. -/
structure BoundedOverlayForwarder where
  localNode : NodeId
  neighborMap : NeighborMap
  neighborIds : Finset NodeId
  retainedNeighborMaps : List RetainedNeighborMap
  config : OverlayForwarderConfig
  replayWindow : ReplayWindow
  neighborIds_eq : neighborIds = neighborMap.neighborIds

def validateNeighborMap (localNode : NodeId) (neighborMap : NeighborMap) :
    Except OverlayForwarderError { ids : Finset NodeId // ids = neighborMap.neighborIds } := do
  match neighborMap.validation with
  | .error error => throw (.invalidNeighborMap error)
  | .ok () => pure ()
  rejectIf (neighborMap.nodeId ≠ localNode) (.neighborMapNodeMismatch localNode neighborMap.nodeId)
  rejectIf (neighborMap.topologyEpoch = 0) .zeroTopologyEpoch
  return ⟨neighborMap.neighborIds, rfl⟩

namespace BoundedOverlayForwarder

def new (localNode : NodeId) (neighborMap : NeighborMap) (config : OverlayForwarderConfig) :
    Except OverlayForwarderError BoundedOverlayForwarder := do
  let config ← config.validate
  let neighborIds ← validateNeighborMap localNode neighborMap
  return { localNode, neighborMap, neighborIds := neighborIds.val, retainedNeighborMaps := [],
           config, replayWindow := .new config.replayCacheCapacity,
           neighborIds_eq := neighborIds.property }

def retainReplayEpochs (f : BoundedOverlayForwarder) : BoundedOverlayForwarder :=
  let retainedEpochs :=
    f.neighborMap.topologyEpoch :: f.retainedNeighborMaps.map (·.neighborMap.topologyEpoch)
  { f with replayWindow := f.replayWindow.retainEpochs retainedEpochs }

def expireRetainedNeighborMaps (f : BoundedOverlayForwarder) (now : Instant) :
    BoundedOverlayForwarder :=
  let kept := f.retainedNeighborMaps.filter fun retained => now < retained.expiresAt
  if kept.length ≠ f.retainedNeighborMaps.length then
    { f with retainedNeighborMaps := kept }.retainReplayEpochs
  else { f with retainedNeighborMaps := kept }

/-- `update_neighbor_map`, which reads the clock once to expire old maps (`now`) and once more
(`later`) to date the map it replaces. -/
def updateNeighborMap (f : BoundedOverlayForwarder) (now later : Instant)
    (neighborMap : NeighborMap) : Except OverlayForwarderError BoundedOverlayForwarder := do
  let neighborIds ← validateNeighborMap f.localNode neighborMap
  rejectIf (neighborMap.clusterId ≠ f.neighborMap.clusterId)
    (.neighborMapClusterChanged f.neighborMap.clusterId neighborMap.clusterId)
  let f := f.expireRetainedNeighborMaps now
  if neighborMap.topologyEpoch ≠ f.neighborMap.topologyEpoch then
    let retained := f.retainedNeighborMaps.filter fun retained =>
      retained.neighborMap.topologyEpoch ≠ neighborMap.topologyEpoch
    let retained := retained.filter fun retained =>
      retained.neighborMap.topologyEpoch ≠ f.neighborMap.topologyEpoch
    let retained := retained ++
      [{ neighborMap := f.neighborMap, neighborIds := f.neighborIds,
         expiresAt := later + previousTopologyEpochGrace, neighborIds_eq := f.neighborIds_eq }]
    -- `while len > MAX { pop_front() }`
    let retained := retained.drop (retained.length - maxRetainedTopologyEpochs)
    return { f with
      neighborMap, neighborIds := neighborIds.val, retainedNeighborMaps := retained,
      neighborIds_eq := neighborIds.property }.retainReplayEpochs
  else
    return { f with
      neighborMap, neighborIds := neighborIds.val, neighborIds_eq := neighborIds.property }

def neighborIdsForEpoch (f : BoundedOverlayForwarder) (topologyEpoch : UInt64) :
    Option (Finset NodeId) :=
  if topologyEpoch = f.neighborMap.topologyEpoch then some f.neighborIds
  else (f.retainedNeighborMaps.find? fun retained =>
    retained.neighborMap.topologyEpoch = topologyEpoch).map (·.neighborIds)

/-! ## Checks that only read -/

def validateRelayCount (f : BoundedOverlayForwarder) (relayCount : ℕ) :
    Except OverlayForwarderError Unit :=
  rejectIf (relayCount > f.config.maxRelayHops.toNat)
    (.relayPathTooLong relayCount f.config.maxRelayHops)

def validateEnvelopeHopLimit (f : BoundedOverlayForwarder) (envelope : MultiHopEnvelope) :
    Except OverlayForwarderError Unit := do
  f.validateRelayCount envelope.path.length
  let expected := UInt16.ofNat envelope.path.length
  rejectIf (envelope.hopLimit ≠ expected) (.invalidHopLimit expected envelope.hopLimit)

def isNeighborForEpoch (f : BoundedOverlayForwarder) (node : NodeId) (topologyEpoch : UInt64) :
    Bool :=
  (f.neighborIdsForEpoch topologyEpoch).any fun neighborIds => node ∈ neighborIds

def validatePreviousHop (f : BoundedOverlayForwarder) (actual expected : NodeId)
    (topologyEpoch : UInt64) : Except OverlayForwarderError Unit := do
  rejectIf (actual ≠ expected) (.previousHopMismatch expected actual)
  rejectIf (¬f.isNeighborForEpoch expected topologyEpoch) (.previousHopNotNeighbor expected)

def requireNextNeighbor (f : BoundedOverlayForwarder) (nextHop : NodeId)
    (topologyEpoch : UInt64) : Except OverlayForwarderError Unit :=
  rejectIf (¬f.isNeighborForEpoch nextHop topologyEpoch) (.nextHopNotNeighbor nextHop)

def validateInnerDatagram (f : BoundedOverlayForwarder) (datagram : List UInt8) :
    Except OverlayForwarderError Unit := do
  rejectIf (datagram = []) .emptyInnerDatagram
  let maximum := min f.config.maxFrameBytes maxMultihopPayloadBytes
  rejectIf (datagram.length > maximum) (.innerDatagramTooLarge maximum)

def validateFrameSize (f : BoundedOverlayForwarder) (actual : ℕ) :
    Except OverlayForwarderError Unit :=
  rejectIf (actual > f.config.maxFrameBytes) (.frameTooLarge actual f.config.maxFrameBytes)

/-! ## Calls -/

/-- A call on `&mut self`: what it wrote before an error stays written. -/
abbrev Call (α : Type) := Mutating BoundedOverlayForwarder OverlayForwarderError α

def codec {α : Type} (x : Except MultiHopCodecError α) : Except OverlayForwarderError α :=
  x.mapError .codec

def required {α : Type} (x : Option α) (error : OverlayForwarderError) :
    Except OverlayForwarderError α :=
  match x with
  | some a => .ok a
  | none => .error error

def observe (topologyEpoch : UInt64) (source : NodeId) (pathId : PathId) (sequence : UInt64) :
    Call PUnit := do
  let f ← get
  let replayWindow ← check (f.replayWindow.observe topologyEpoch source pathId sequence)
  modify fun f => { f with replayWindow }

def validateTopologyEpoch (now : Instant) (receivedEpoch : UInt64) : Call Unit := do
  modify fun f => f.expireRetainedNeighborMaps now
  let f ← get
  check (rejectIf (¬(f.neighborIdsForEpoch receivedEpoch).isSome)
    (.staleTopologyEpoch f.neighborMap.topologyEpoch receivedEpoch))

def validateSelectedPath (now : Instant) (path : OverlayPath) (selection : OverlayPathSelection) :
    Call (List NodeId) := do
  check (path.validate.mapError .invalidOverlayPath)
  validateTopologyEpoch now path.topologyEpoch
  let f ← get
  check (rejectIf (path.source ≠ f.localNode) (.pathSourceMismatch f.localNode path.source))
  check (rejectIf (path.target.clusterId ≠ f.neighborMap.clusterId)
    (.pathClusterMismatch f.neighborMap.clusterId path.target.clusterId))
  check (rejectIf (path.target.nodeId = f.localNode) (.pathTargetsSource f.localNode))
  let orderedNodes ← check (required (path.selectedNodes selection) .secondaryPathUnavailable)
  let relayCount := orderedNodes.length - 2
  check (if relayCount > 0 then f.validateRelayCount relayCount else .ok ())
  return orderedNodes

/-- What `encapsulate_selected` computes between the choice of the path and the replay window. -/
def prepareAction (f : BoundedOverlayForwarder) (path : OverlayPath) (orderedNodes : List NodeId)
    (pathId : PathId) (sequence : UInt64) (innerWireguardDatagram : List UInt8) :
    Except OverlayForwarderError OverlayForwardAction := do
  let topologyEpoch := path.topologyEpoch
  let nextHop ← required orderedNodes[1]? (.pathTargetsSource f.localNode)
  f.requireNextNeighbor nextHop topologyEpoch
  if orderedNodes.length = 2 then
    return .directNeighbor nextHop innerWireguardDatagram
  else
    -- `ordered_nodes[1..ordered_nodes.len() - 1]`
    let relayNodes := orderedNodes.tail.dropLast
    f.validateRelayCount relayNodes.length
    let hopLimit := UInt16.ofNat relayNodes.length
    let envelope ← codec (MultiHopEnvelope.new topologyEpoch pathId sequence hopLimit
      f.localNode path.target.nodeId relayNodes innerWireguardDatagram)
    let datagram ← codec envelope.encode
    f.validateFrameSize datagram.length
    return .forward nextHop datagram

/-- Both branches of the source end with `observe` on the same key before they return. -/
def encapsulateSelected (now : Instant) (path : OverlayPath) (selection : OverlayPathSelection)
    (pathId : PathId) (sequence : UInt64) (innerWireguardDatagram : List UInt8) :
    Call OverlayForwardAction := do
  let f ← get
  check (f.validateInnerDatagram innerWireguardDatagram)
  check (rejectIf (∀ byte ∈ pathId.val, byte = 0) .invalidPathId)
  let orderedNodes ← validateSelectedPath now path selection
  let f ← get
  let action ← check (f.prepareAction path orderedNodes pathId sequence innerWireguardDatagram)
  observe path.topologyEpoch f.localNode pathId sequence
  return action

def encapsulate (now : Instant) (path : OverlayPath) (pathId : PathId) (sequence : UInt64)
    (innerWireguardDatagram : List UInt8) : Call OverlayForwardAction :=
  encapsulateSelected now path .primary pathId sequence innerWireguardDatagram

def deliver (previousHop : NodeId) (envelope : MultiHopEnvelope) (topologyEpoch : UInt64) :
    Call OverlayForwardAction := do
  let f ← get
  check (rejectIf (envelope.destination ≠ f.localNode)
    (.unexpectedDestination envelope.destination f.localNode))
  let expectedPrevious ← check (required envelope.path.getLast? (.codec .invalidPath))
  check (f.validatePreviousHop previousHop expectedPrevious topologyEpoch)
  let payload ← check (codec (envelope.payloadForDestination f.localNode))
  observe topologyEpoch envelope.source envelope.pathId envelope.sequence
  return .deliver envelope.source payload

/-- The hop before the one `envelope` is at: its source, or the relay before. -/
def expectedPrevious (envelope : MultiHopEnvelope) : Option NodeId :=
  if envelope.hopIndex.toNat = 0 then some envelope.source
  else envelope.path[envelope.hopIndex.toNat - 1]?

def receive (now : Instant) (previousHop : NodeId) (datagram : List UInt8) :
    Call OverlayForwardAction := do
  let f ← get
  check (f.validateFrameSize datagram.length)
  let envelope ← check (codec (MultiHopEnvelope.decode datagram 1))
  let topologyEpoch := envelope.topologyEpoch
  validateTopologyEpoch now topologyEpoch
  let f ← get
  check (f.validateEnvelopeHopLimit envelope)
  if envelope.isRouteComplete then
    deliver previousHop envelope topologyEpoch
  else
    let expectedLocal ← check (required envelope.nextHop (.codec .unexpectedHop))
    check (rejectIf (expectedLocal ≠ f.localNode)
      (.unexpectedLocalHop expectedLocal f.localNode))
    let expected ← check (required (expectedPrevious envelope) (.codec .unexpectedHop))
    check (f.validatePreviousHop previousHop expected topologyEpoch)
    let envelope ← check (codec (envelope.advanceHop f.localNode topologyEpoch))
    let nextHop := envelope.nextHop.getD envelope.destination
    check (f.requireNextNeighbor nextHop topologyEpoch)
    let forwarded ← check (codec envelope.encode)
    check (f.validateFrameSize forwarded.length)
    observe topologyEpoch envelope.source envelope.pathId envelope.sequence
    return .forward nextHop forwarded

end BoundedOverlayForwarder

/-! ## Routes -/

namespace MultiHopEnvelope

/-- All nodes an envelope passes, end points included. -/
def route (e : MultiHopEnvelope) : List NodeId := e.source :: e.path ++ [e.destination]

def atHop (e : MultiHopEnvelope) (hop : ℕ) : MultiHopEnvelope :=
  { e with hopIndex := UInt16.ofNat hop }

variable (e : MultiHopEnvelope)

@[simp] lemma atHop_hopIndex : e.atHop e.hopIndex.toNat = e := by
  simp [atHop]

lemma route_getElem?_succ {i : ℕ} (h : i < e.path.length) : e.route[i + 1]? = e.path[i]? := by
  simp [route, getElem?_append_left h]

lemma route_getElem?_last : e.route[e.path.length + 1]? = some e.destination := by
  simp [route]

lemma expectedPrevious_eq (h : e.hopIndex.toNat ≤ e.path.length) :
    BoundedOverlayForwarder.expectedPrevious e = e.route[e.hopIndex.toNat]? := by
  simp only [BoundedOverlayForwarder.expectedPrevious]
  split_ifs with hzero
  · rw [hzero]
    rfl
  · obtain ⟨i, hi⟩ := Nat.exists_eq_succ_of_ne_zero hzero
    rw [hi] at h ⊢
    exact (e.route_getElem?_succ h).symm

lemma path_getLast?_eq (h : 0 < e.path.length) : e.path.getLast? = e.route[e.path.length]? := by
  obtain ⟨i, hi⟩ := Nat.exists_eq_succ_of_ne_zero h.ne'
  rw [getLast?_eq_getElem?, hi]
  exact (e.route_getElem?_succ (by omega)).symm

lemma advanceHop_eq_ok {e e' : MultiHopEnvelope} {node : NodeId} {minimum : UInt64}
    (h : e.advanceHop node minimum = .ok e') : e' = e.atHop (e.hopIndex.toNat + 1) := by
  simp only [advanceHop, bind_eq_ok] at h
  obtain ⟨_, -, _, -, _, -, h⟩ := h
  split_ifs at h with hother
  · simp only [bind_eq_ok] at h
    obtain ⟨_, -, h⟩ := h
    cases h
  · simp only [bind_eq_ok, rejectIf_eq_ok, pure_eq_ok_iff] at h
    obtain ⟨_, -, _, -, rfl⟩ := h
    simp [atHop]

lemma source_not_mem_of_validatePathNodes {source destination : NodeId} {seen path : List NodeId}
    (h : validatePathNodes source destination seen path = .ok ()) : source ∉ path := by
  induction path generalizing seen with
  | nil => exact not_mem_nil
  | cons node rest ih =>
    simp only [validatePathNodes, bind_eq_ok, rejectIf_eq_ok, not_or] at h
    obtain ⟨_, -, _, ⟨hsource, -⟩, hrest⟩ := h
    rw [mem_cons, not_or]
    exact ⟨fun heq => hsource heq.symm, ih hrest⟩

lemma source_not_on_route {e : MultiHopEnvelope} {minimum : UInt64} {len : ℕ}
    (h : e.validate minimum = .ok len) : e.source ∉ e.path ∧ e.source ≠ e.destination := by
  simp only [validate, bind_eq_ok, rejectIf_eq_ok] at h
  obtain ⟨_, -, _, -, _, -, _, -, _, hends, _, -, _, -, _, -, _, -, _, -, _, hnodes, -⟩ := h
  exact ⟨source_not_mem_of_validatePathNodes hnodes, hends⟩

lemma nextHop_atHop_succ {i : ℕ} (h : i < e.path.length)
    (hbound : e.path.length ≤ maxMultihopPathNodes) :
    some ((e.atHop (i + 1)).nextHop.getD (e.atHop (i + 1)).destination) = e.route[i + 2]? := by
  have hindex : (UInt16.ofNat (i + 1)).toNat = i + 1 := by
    simp only [maxMultihopPathNodes] at hbound
    simp
    omega
  simp only [nextHop, atHop, hindex]
  rcases Nat.lt_or_ge (i + 1) e.path.length with hlt | hge
  · rw [e.route_getElem?_succ hlt, getElem?_eq_getElem hlt]
    rfl
  · have hlast : i + 1 = e.path.length := by omega
    rw [show i + 2 = e.path.length + 1 by omega, e.route_getElem?_last,
      getElem?_eq_none (by omega)]
    rfl

end MultiHopEnvelope

/-! ## What a successful call has checked -/

lemma codec_eq_ok {α : Type} {x : Except MultiHopCodecError α} {a : α} :
    BoundedOverlayForwarder.codec x = .ok a ↔ x = .ok a := by
  cases x <;> simp [BoundedOverlayForwarder.codec, Except.mapError]

lemma required_eq_ok {α : Type} {x : Option α} {error : OverlayForwarderError} {a : α} :
    BoundedOverlayForwarder.required x error = .ok a ↔ x = some a := by
  cases x <;> simp [BoundedOverlayForwarder.required]

namespace BoundedOverlayForwarder

/-- The maps the engine answers for: the current one and those still retained. -/
def maps (f : BoundedOverlayForwarder) : List NeighborMap :=
  f.neighborMap :: f.retainedNeighborMaps.map (·.neighborMap)

/-- `node` is a neighbour in a current or retained map of that epoch. -/
def HasNeighbor (f : BoundedOverlayForwarder) (topologyEpoch : UInt64) (node : NodeId) : Prop :=
  ∃ map ∈ f.maps, map.topologyEpoch = topologyEpoch ∧ node ∈ map.neighbors

variable {f : BoundedOverlayForwarder}

variable {action : OverlayForwardAction} {topologyEpoch : UInt64} {previousHop : NodeId}

lemma hasNeighbor_of_isNeighborForEpoch {node : NodeId}
    (h : f.isNeighborForEpoch node topologyEpoch = true) : f.HasNeighbor topologyEpoch node := by
  simp only [isNeighborForEpoch, neighborIdsForEpoch] at h
  split_ifs at h with hcurrent
  · refine ⟨f.neighborMap, mem_cons_self, hcurrent.symm, ?_⟩
    simpa [f.neighborIds_eq, NeighborMap.neighborIds] using h
  · cases hfind : f.retainedNeighborMaps.find? fun retained =>
        retained.neighborMap.topologyEpoch = topologyEpoch with
    | none => simp [hfind] at h
    | some retained =>
      refine ⟨retained.neighborMap,
        mem_cons_of_mem _ (mem_map_of_mem (mem_of_find?_eq_some hfind)), ?_, ?_⟩
      · simpa using find?_some hfind
      · simpa [hfind, retained.neighborIds_eq, NeighborMap.neighborIds] using h

def epochs (f : BoundedOverlayForwarder) : List UInt64 := f.maps.map (·.topologyEpoch)

lemma mem_epochs_of_isSome
    (h : (f.neighborIdsForEpoch topologyEpoch).isSome = true) : topologyEpoch ∈ f.epochs := by
  rw [neighborIdsForEpoch] at h
  split_ifs at h with hcurrent
  · exact mem_map.mpr ⟨f.neighborMap, mem_cons_self, hcurrent.symm⟩
  · rw [Option.isSome_map, Option.isSome_iff_exists] at h
    obtain ⟨retained, hfind⟩ := h
    have hepoch : retained.neighborMap.topologyEpoch = topologyEpoch := by
      simpa using find?_some hfind
    exact mem_map.mpr ⟨retained.neighborMap,
      mem_cons_of_mem _ (mem_map_of_mem (mem_of_find?_eq_some hfind)), hepoch⟩

@[simp] lemma expireRetainedNeighborMaps_localNode (f : BoundedOverlayForwarder) (now : Instant) :
    (f.expireRetainedNeighborMaps now).localNode = f.localNode := by
  simp only [expireRetainedNeighborMaps]
  split_ifs <;> rfl

variable {f' : BoundedOverlayForwarder} {epoch : UInt64} {now : Instant} {u : Unit}

lemma exec_validateTopologyEpoch (h : exec (validateTopologyEpoch now epoch) f = (.ok u, f')) :
    f' = f.expireRetainedNeighborMaps now := by
  simp only [validateTopologyEpoch, exec_bind_eq_ok, exec_get_eq_ok, exec_modify_eq_ok,
    exec_check_eq_ok] at h
  obtain ⟨_, _, rfl, _, _, ⟨rfl, rfl⟩, -, rfl⟩ := h
  rfl

lemma exec_observe {source : NodeId} {pathId : PathId} {sequence : UInt64} {u : PUnit}
    (h : exec (observe epoch source pathId sequence) f = (.ok u, f')) :
    ∃ w, f.replayWindow.observe epoch source pathId sequence = .ok w ∧
      f' = { f with replayWindow := w } := by
  simp only [observe, exec_bind_eq_ok, exec_get_eq_ok, exec_modify_eq_ok, exec_check_eq_ok] at h
  obtain ⟨_, _, ⟨rfl, rfl⟩, w, _, ⟨hw, rfl⟩, rfl⟩ := h
  exact ⟨w, hw, rfl⟩

/-! ## What a call does to the engine

A call changes the engine in two ways only: it expires retained maps, and its last step before
success is one `observe`. -/

/-- The engine after a call that got as far as the replay window and passed it. -/
def Observed (f f' : BoundedOverlayForwarder) (now : Instant) (epoch : UInt64) (source : NodeId)
    (pathId : PathId) (sequence : UInt64) : Prop :=
  ∃ w, (f.expireRetainedNeighborMaps now).replayWindow.observe epoch source pathId sequence = .ok w ∧
    f' = { f.expireRetainedNeighborMaps now with replayWindow := w }

def Untouched (f f' : BoundedOverlayForwarder) (now : Instant) : Prop :=
  f' = f ∨ f' = f.expireRetainedNeighborMaps now

lemma validateTopologyEpoch_effect (f : BoundedOverlayForwarder) (now : Instant) (epoch : UInt64) :
    Triple (· = f) (validateTopologyEpoch now epoch)
      (fun _ f' => f' = f.expireRetainedNeighborMaps now ∧ epoch ∈ f'.epochs)
      (fun e f' => Untouched f f' now ∧ e.isReplayRejected = false) := by
  refine .modify_bind (· = f.expireRetainedNeighborMaps now) (fun _ hs => hs ▸ rfl)
    (.get_bind fun s hs => .check (fun _ s' hknown hs' => ?_) fun e s' he hs' => ?_)
  · subst hs'
    exact ⟨hs, mem_epochs_of_isSome (not_not.mp (rejectIf_eq_ok.mp hknown))⟩
  · exact ⟨.inr (hs'.trans hs), failsWith_rejectIf (E := (·.isReplayRejected = false)) rfl e he⟩

lemma observe_effect (f : BoundedOverlayForwarder) (epoch : UInt64) (source : NodeId)
    (pathId : PathId) (sequence : UInt64) :
    Triple (· = f) (observe epoch source pathId sequence)
      (fun _ f' => ∃ w, f.replayWindow.observe epoch source pathId sequence = .ok w ∧
        f' = { f with replayWindow := w })
      (fun e f' => f.replayWindow.observe epoch source pathId sequence = .error e ∧ f' = f) := by
  refine .get_bind fun s hs => ?_
  subst hs
  refine .check_bind (fun w hw => ?_) fun e s' he hs' => ⟨he, hs'⟩
  intro s' hs'
  subst hs'
  exact ⟨w, hw, rfl⟩

/-! ## The two edges next to the local node -/

lemma hasNeighbor_of_validatePreviousHop {actual expected : NodeId}
    (h : f.validatePreviousHop actual expected epoch = .ok u) :
    actual = expected ∧ f.HasNeighbor epoch actual := by
  simp only [validatePreviousHop, bind_eq_ok, rejectIf_eq_ok, not_not] at h
  obtain ⟨_, rfl, hneighbor⟩ := h
  exact ⟨rfl, hasNeighbor_of_isNeighborForEpoch hneighbor⟩

lemma hasNeighbor_of_requireNextNeighbor {nextHop : NodeId}
    (h : f.requireNextNeighbor nextHop epoch = .ok u) : f.HasNeighbor epoch nextHop := by
  rw [requireNextNeighbor, rejectIf_eq_ok, not_not] at h
  exact hasNeighbor_of_isNeighborForEpoch h

/-- An accepted frame holds a valid envelope from the node before on the route, a neighbour, and the local
node is the next one. -/
structure Accepted (f f' : BoundedOverlayForwarder) (previousHop : NodeId) (datagram : List UInt8)
    (e : MultiHopEnvelope) : Prop where
  decoded : MultiHopEnvelope.decode datagram 1 = .ok e
  localNode_eq : f'.localNode = f.localNode
  previous : e.route[e.hopIndex.toNat]? = some previousHop
  here : e.route[e.hopIndex.toNat + 1]? = some f.localNode
  previous_neighbor : f'.HasNeighbor e.topologyEpoch previousHop

lemma exec_deliver {e : MultiHopEnvelope} (hcomplete : e.isRouteComplete) (hpath : 0 < e.path.length)
    (h : exec (deliver previousHop e e.topologyEpoch) f = (.ok action, f')) :
    action = .deliver e.source e.opaquePayload ∧ f'.localNode = f.localNode ∧
      e.route[e.hopIndex.toNat]? = some previousHop ∧
      e.route[e.hopIndex.toNat + 1]? = some f.localNode ∧
      f'.HasNeighbor e.topologyEpoch previousHop := by
  simp only [deliver, exec_bind_eq_ok, exec_get_eq_ok, exec_check_eq_ok, exec_pure_eq_ok,
    codec_eq_ok, required_eq_ok, rejectIf_eq_ok, not_not] at h
  obtain ⟨_, _, ⟨rfl, rfl⟩, _, _, ⟨hhere, rfl⟩, expected, _, ⟨hlast, rfl⟩, _, _,
    ⟨hprevious, rfl⟩, payload, _, ⟨hpayload, rfl⟩, _, _, hobserve, rfl, rfl⟩ := h
  obtain ⟨w, -, rfl⟩ := exec_observe hobserve
  obtain ⟨rfl, hneighbor⟩ := hasNeighbor_of_validatePreviousHop hprevious
  have hindex : e.hopIndex.toNat = e.path.length := hcomplete
  simp only [MultiHopEnvelope.payloadForDestination, bind_eq_ok, rejectIf_eq_ok,
    pure_eq_ok_iff] at hpayload
  obtain ⟨_, -, rfl⟩ := hpayload
  refine ⟨rfl, rfl, ?_, ?_, hneighbor⟩
  · rw [hindex, ← e.path_getLast?_eq hpath]
    exact hlast
  · rw [hindex, e.route_getElem?_last, hhere]

lemma receive_eq_ok {datagram : List UInt8}
    (h : exec (receive now previousHop datagram) f = (.ok action, f')) :
    ∃ e, Accepted f f' previousHop datagram e ∧
      ((e.isRouteComplete ∧ action = .deliver e.source e.opaquePayload) ∨
        ∃ next out, action = .forward next out ∧ e.hopIndex.toNat < e.path.length ∧
          e.route[e.hopIndex.toNat + 2]? = some next ∧
          (e.atHop (e.hopIndex.toNat + 1)).encode = .ok out ∧ f'.HasNeighbor e.topologyEpoch next) := by
  simp only [receive, exec_bind_eq_ok, exec_get_eq_ok, exec_check_eq_ok, codec_eq_ok] at h
  obtain ⟨_, _, ⟨rfl, rfl⟩, _, _, ⟨-, rfl⟩, e, _, ⟨hdecode, rfl⟩, _, _, hepoch, _, _, ⟨rfl, rfl⟩,
    _, _, ⟨-, rfl⟩, h⟩ := h
  obtain rfl := exec_validateTopologyEpoch hepoch
  obtain ⟨-, len, hvalid⟩ := MultiHopEnvelope.decode_eq_ok.mp hdecode
  have hlimits := (MultiHopEnvelope.validate_limits hvalid).1
  refine ⟨e, ?_⟩
  split_ifs at h with hcomplete
  · obtain ⟨rfl, hlocal, hprevious, hhere, hneighbor⟩ := exec_deliver hcomplete hlimits.path_pos h
    rw [expireRetainedNeighborMaps_localNode] at hlocal hhere
    exact ⟨⟨hdecode, hlocal, hprevious, hhere, hneighbor⟩, .inl ⟨hcomplete, rfl⟩⟩
  · simp only [exec_bind_eq_ok, exec_check_eq_ok, exec_pure_eq_ok, codec_eq_ok, required_eq_ok,
      rejectIf_eq_ok, not_not] at h
    obtain ⟨here, _, ⟨hnext, rfl⟩, _, _, ⟨rfl, rfl⟩, expected, _, ⟨hexpected, rfl⟩, _, _,
      ⟨hprevious, rfl⟩, e', _, ⟨hadvance, rfl⟩, _, _, ⟨hrequire, rfl⟩, out, _, ⟨hencode, rfl⟩, _, _,
      ⟨-, rfl⟩, _, _, hobserve, rfl, rfl⟩ := h
    obtain ⟨w, -, rfl⟩ := exec_observe hobserve
    obtain rfl := MultiHopEnvelope.advanceHop_eq_ok hadvance
    obtain ⟨rfl, hneighbor⟩ := hasNeighbor_of_validatePreviousHop hprevious
    rw [expireRetainedNeighborMaps_localNode] at hnext
    have hlt : e.hopIndex.toNat < e.path.length := (List.getElem?_eq_some_iff.mp hnext).1
    rw [e.expectedPrevious_eq hlt.le] at hexpected
    refine ⟨⟨hdecode, expireRetainedNeighborMaps_localNode f now, hexpected, ?_, hneighbor⟩,
      .inr ⟨_, out, rfl, hlt, ?_, hencode, hasNeighbor_of_requireNextNeighbor hrequire⟩⟩
    · rw [e.route_getElem?_succ hlt]
      exact hnext
    · exact (e.nextHop_atHop_succ hlt hlimits.path_le).symm

lemma exec_validateSelectedPath {path : OverlayPath} {selection : OverlayPathSelection}
    {nodes : List NodeId} (h : exec (validateSelectedPath now path selection) f = (.ok nodes, f')) :
    path.validate = .ok () ∧ path.selectedNodes selection = some nodes ∧
      path.source = f.localNode ∧ f' = f.expireRetainedNeighborMaps now := by
  simp only [validateSelectedPath, exec_bind_eq_ok, exec_get_eq_ok, exec_check_eq_ok,
    exec_pure_eq_ok, required_eq_ok, rejectIf_eq_ok, not_not] at h
  obtain ⟨_, _, ⟨hvalid, rfl⟩, _, _, hepoch, _, _, ⟨rfl, rfl⟩, _, _, ⟨hsource, rfl⟩, _, _, ⟨-, rfl⟩,
    _, _, ⟨-, rfl⟩, _, _, ⟨hnodes, rfl⟩, _, _, ⟨-, rfl⟩, rfl, rfl⟩ := h
  obtain rfl := exec_validateTopologyEpoch hepoch
  rw [expireRetainedNeighborMaps_localNode] at hsource
  refine ⟨?_, hnodes, hsource, rfl⟩
  cases hresult : path.validate with
  | error error =>
    rw [hresult] at hvalid
    cases hvalid
  | ok u => rfl

end BoundedOverlayForwarder

lemma OverlayPath.selectedNodes_ends {path : OverlayPath} {selection : OverlayPathSelection}
    {nodes : List NodeId} (hvalid : path.validate = .ok ())
    (hnodes : path.selectedNodes selection = some nodes) :
    nodes.head? = some path.source ∧ nodes.getLast? = some path.target.nodeId := by
  simp only [OverlayPath.validate, validateOrderedOverlayNodes, bind_eq_ok, rejectIf_eq_ok,
    not_not] at hvalid
  obtain ⟨_, -, _, -, _, -, _, -, _, ⟨_, -, _, -, _, hstart, -⟩, _, hend, _, -, hsecondary⟩ := hvalid
  cases selection with
  | primary =>
    obtain rfl := Option.some.inj hnodes
    exact ⟨hstart, hend⟩
  | secondary =>
    have hnodes : path.secondaryOrderedNodes = some nodes := hnodes
    simp only [hnodes, OverlayPath.validateSecondary, validateOrderedOverlayNodes, bind_eq_ok,
      rejectIf_eq_ok, not_not] at hsecondary
    obtain ⟨_, ⟨_, -, _, -, _, hstart', -⟩, _, -, hend'⟩ := hsecondary
    exact ⟨hstart', hend'.trans hend⟩

lemma eq_cons_tail_dropLast_append {α : Type} {xs : List α} {first last : α}
    (hfirst : xs.head? = some first) (hlast : xs.getLast? = some last) (hlen : xs.length ≠ 1) :
    xs = first :: xs.tail.dropLast ++ [last] := by
  obtain ⟨rest, rfl⟩ : ∃ rest, xs = first :: rest := by
    cases xs with
    | nil => simp at hfirst
    | cons x rest => exact ⟨rest, by simpa using hfirst⟩
  have hrest : rest ≠ [] := by
    rintro rfl
    exact hlen rfl
  rw [getLast?_cons_of_ne_nil hrest, getLast?_eq_some_getLast hrest] at hlast
  rw [tail_cons, cons_append, ← Option.some.inj hlast, dropLast_append_getLast]

namespace BoundedOverlayForwarder

variable {f : BoundedOverlayForwarder} {sequence : UInt64} {pathId : PathId} {path : OverlayPath}
    {inner : List UInt8} {source : NodeId}

variable {neighborMap : NeighborMap} {payload : List UInt8} {nodes : List NodeId}

lemma prepareAction_ne_deliver :
    f.prepareAction path nodes pathId sequence inner ≠ .ok (.deliver source payload) := by
  intro h
  simp only [prepareAction, bind_eq_ok] at h
  obtain ⟨_, -, _, -, h⟩ := h
  split_ifs at h
  · cases h
  · simp only [bind_eq_ok] at h
    obtain ⟨_, -, _, -, _, -, _, -, h⟩ := h
    cases h

variable {f' : BoundedOverlayForwarder} {selection : OverlayPathSelection} {now : Instant}

lemma encapsulateSelected_ne_deliver :
    exec (encapsulateSelected now path selection pathId sequence inner) f
      ≠ (.ok (.deliver source payload), f') := by
  intro h
  simp only [encapsulateSelected, exec_bind_eq_ok, exec_check_eq_ok, exec_pure_eq_ok] at h
  obtain ⟨_, _, -, _, _, -, _, _, -, _, _, -, _, _, -, _, _, ⟨hprepare, -⟩, _, _, -, rfl, -⟩ := h
  exact prepareAction_ne_deliver hprepare

lemma encapsulateSelected_forward {datagram : List UInt8} {next : NodeId}
    (h : exec (encapsulateSelected now path selection pathId sequence inner) f
      = (.ok (.forward next datagram), f')) :
    ∃ e : MultiHopEnvelope, e.topologyEpoch = path.topologyEpoch ∧ e.pathId = pathId ∧
      e.sequence = sequence ∧ e.opaquePayload = inner ∧ e.hopIndex = 0 ∧
      e.source = f.localNode ∧ path.selectedNodes selection = some e.route ∧
      e.encode = .ok datagram ∧ e.route[1]? = some next ∧ f'.localNode = f.localNode ∧
      f'.HasNeighbor e.topologyEpoch next := by
  simp only [encapsulateSelected, exec_bind_eq_ok, exec_get_eq_ok, exec_check_eq_ok,
    exec_pure_eq_ok] at h
  obtain ⟨_, _, ⟨rfl, rfl⟩, _, _, ⟨-, rfl⟩, _, _, ⟨-, rfl⟩, nodes, _, hselected, _, _, ⟨rfl, rfl⟩,
    _, _, ⟨hprepare, rfl⟩, _, _, hobserve, rfl, rfl⟩ := h
  obtain ⟨hvalid, hnodes, hsource, rfl⟩ := exec_validateSelectedPath hselected
  obtain ⟨w, -, rfl⟩ := exec_observe hobserve
  simp only [prepareAction, bind_eq_ok, required_eq_ok] at hprepare
  obtain ⟨nextHop, hnext, _, hrequire, hprepare⟩ := hprepare
  split_ifs at hprepare with hdirect
  · cases hprepare
  · simp only [bind_eq_ok, codec_eq_ok, MultiHopEnvelope.new, pure_eq_ok_iff,
      OverlayForwardAction.forward.injEq] at hprepare
    obtain ⟨_, -, e, ⟨_, -, rfl⟩, _, hencode, _, -, rfl, rfl⟩ := hprepare
    obtain ⟨hstart, hend⟩ := OverlayPath.selectedNodes_ends hvalid hnodes
    rw [hsource] at hstart
    have hlen : nodes.length ≠ 1 := by
      have := (List.getElem?_eq_some_iff.mp hnext).1
      omega
    have hroute := eq_cons_tail_dropLast_append hstart hend hlen
    refine ⟨_, rfl, rfl, rfl, rfl, rfl, expireRetainedNeighborMaps_localNode f now, ?_, hencode,
      ?_, expireRetainedNeighborMaps_localNode f now, hasNeighbor_of_requireNextNeighbor hrequire⟩
    · rw [hnodes, MultiHopEnvelope.route, expireRetainedNeighborMaps_localNode]
      exact congrArg some hroute
    · rw [MultiHopEnvelope.route, expireRetainedNeighborMaps_localNode, ← hroute]
      exact hnext

/-! ## The effect of a whole call -/

lemma failsWith_codec {α : Type} (x : Except MultiHopCodecError α) :
    FailsWith (·.isReplayRejected = false) (codec x) := by
  intro e he
  cases x with
  | error error =>
    obtain rfl := Except.error.inj he
    rfl
  | ok a => cases he

lemma failsWith_required {α : Type} (x : Option α) {error : OverlayForwarderError}
    (h : error.isReplayRejected = false) :
    FailsWith (·.isReplayRejected = false) (required x error) := by
  intro e he
  cases x with
  | none =>
    obtain rfl := Except.error.inj he
    exact h
  | some a => cases he

section

variable (f)

lemma failsWith_prepareAction (path : OverlayPath)
    (nodes : List NodeId) (pathId : PathId) (sequence : UInt64) (inner : List UInt8) :
    FailsWith (·.isReplayRejected = false) (f.prepareAction path nodes pathId sequence inner) := by
  refine .bind (failsWith_required _ rfl) fun _ _ => .bind (failsWith_rejectIf rfl) fun _ _ => ?_
  split_ifs
  · exact failsWith_pure _
  · exact .bind (failsWith_rejectIf rfl) fun _ _ => .bind (failsWith_codec _) fun _ _ =>
      .bind (failsWith_codec _) fun _ _ => .bind (failsWith_rejectIf rfl) fun _ _ =>
        failsWith_pure _

lemma validateSelectedPath_effect (now : Instant)
    (path : OverlayPath) (selection : OverlayPathSelection) :
    Triple (· = f) (validateSelectedPath now path selection)
      (fun _ f' => f' = f.expireRetainedNeighborMaps now ∧ path.topologyEpoch ∈ f'.epochs)
      (fun e f' => Untouched f f' now ∧ e.isReplayRejected = false) := by
  -- every later check runs on the expired engine and fails with an error of its own
  have hlater : ∀ {α : Type} (x : Except OverlayForwarderError α),
      FailsWith (·.isReplayRejected = false) x → ∀ e s, x = .error e →
        s = f.expireRetainedNeighborMaps now → Untouched f s now ∧ e.isReplayRejected = false :=
    fun x hx e s he hs => ⟨.inr hs, hx e he⟩
  refine .check_bind (fun _ _ => ?_) fun e s he hs => ⟨.inl hs, ?_⟩
  · refine .bind (validateTopologyEpoch_effect f now _) fun _ => .get_bind fun s ⟨hs, hknown⟩ => ?_
    subst hs
    refine .check_bind (fun _ _ => ?_) (hlater _ (failsWith_rejectIf rfl))
    refine .check_bind (fun _ _ => ?_) (hlater _ (failsWith_rejectIf rfl))
    refine .check_bind (fun _ _ => ?_) (hlater _ (failsWith_rejectIf rfl))
    refine .check_bind (fun _ _ => ?_) (hlater _ (failsWith_required _ rfl))
    refine .check_bind (fun _ _ => .pure fun _ hs => ⟨hs, hs ▸ hknown⟩) (hlater _ ?_)
    intro e he
    split_ifs at he
    exact failsWith_rejectIf (E := (·.isReplayRejected = false)) rfl e he
  · cases hvalid : path.validate with
    | error error =>
      rw [hvalid] at he
      obtain rfl := Except.error.inj he
      rfl
    | ok u =>
      rw [hvalid] at he
      cases he

/-- **`encapsulate_selected`**: success is one `observe` on the expired engine, for an epoch it knows; every
error but a replay error leaves the replay window to expiry alone. -/
lemma encapsulateSelected_effect (now : Instant) (path : OverlayPath)
    (selection : OverlayPathSelection) (pathId : PathId) (sequence : UInt64) (inner : List UInt8) :
    Triple (· = f) (encapsulateSelected now path selection pathId sequence inner)
      (fun _ f' => path.topologyEpoch ∈ (f.expireRetainedNeighborMaps now).epochs ∧
        Observed f f' now path.topologyEpoch f.localNode pathId sequence)
      (fun e f' => Untouched f f' now ∧ (e.isReplayRejected = true →
        (f.expireRetainedNeighborMaps now).replayWindow.observe path.topologyEpoch f.localNode
          pathId sequence = .error e)) := by
  have hother : ∀ {e : OverlayForwarderError} {p : Prop}, e.isReplayRejected = false →
      e.isReplayRejected = true → p := fun h h' => by rw [h] at h'; cases h'
  refine .get_bind fun s hs => ?_
  subst hs
  refine .check_bind (fun _ _ => ?_) fun e s' he hs' => ⟨.inl hs', hother ?_⟩
  · refine .check_bind (fun _ _ => ?_) fun e s' he hs' =>
      ⟨.inl hs', hother (failsWith_rejectIf (E := (·.isReplayRejected = false)) rfl e he)⟩
    refine .bind ((validateSelectedPath_effect s now path selection).post (fun _ _ h => h)
      fun e s' h => ⟨h.1, hother h.2⟩) fun nodes => .get_bind fun s₁ ⟨hs₁, hknown⟩ => ?_
    subst hs₁
    refine .check_bind (fun action _ => ?_) fun e s' he hs' =>
      ⟨.inr hs', hother (failsWith_prepareAction _ _ _ _ _ _ e he)⟩
    rw [expireRetainedNeighborMaps_localNode]
    exact .bind ((observe_effect _ _ _ _ _).post (fun _ _ h => h) fun e s' h =>
      ⟨.inr h.2, fun _ => h.1⟩) fun _ => .pure fun _ h => ⟨hknown, h⟩
  · have hfails : FailsWith (·.isReplayRejected = false) (s.validateInnerDatagram inner) :=
      .bind (failsWith_rejectIf rfl) fun _ _ => failsWith_rejectIf rfl
    exact hfails e he

/-- **`receive`**: success is one `observe` on the expired engine, for an epoch it knows and a source
other than the local node. -/
lemma receive_effect (now : Instant) (previousHop : NodeId) (datagram : List UInt8) :
    Triple (· = f) (receive now previousHop datagram)
      (fun _ f' => ∃ e : MultiHopEnvelope, e.source ≠ f.localNode ∧
        e.topologyEpoch ∈ (f.expireRetainedNeighborMaps now).epochs ∧
        Observed f f' now e.topologyEpoch e.source e.pathId e.sequence)
      (fun _ f' => Untouched f f' now) := by
  refine .get_bind fun s hs => ?_
  subst hs
  refine .check_bind (fun _ _ => ?_) fun _ _ _ hs' => .inl hs'
  refine .check_bind (fun e hdecode => ?_) fun _ _ _ hs' => .inl hs'
  obtain ⟨-, len, hvalid⟩ := MultiHopEnvelope.decode_eq_ok.mp (codec_eq_ok.mp hdecode)
  obtain ⟨hrelay, hend⟩ := MultiHopEnvelope.source_not_on_route hvalid
  refine .bind ((validateTopologyEpoch_effect s now _).post (fun _ _ h => h) fun _ _ h => h.1)
    fun _ => .get_bind fun s₁ ⟨hs₁, hknown⟩ => ?_
  subst hs₁
  -- from here on every check runs on the expired engine
  have hlater {β : Type} {x : Except OverlayForwarderError β} (e : OverlayForwarderError)
      (s' : BoundedOverlayForwarder) (_ : x = .error e) (hs' : s' = s.expireRetainedNeighborMaps now) :
      Untouched s s' now := .inr hs'
  refine .check_bind (fun _ _ => ?_) hlater
  have hobserved : ∀ (e' : MultiHopEnvelope) (action : OverlayForwardAction),
      e'.source ≠ s.localNode → e'.topologyEpoch = e.topologyEpoch →
      Triple (· = s.expireRetainedNeighborMaps now)
        (do observe e'.topologyEpoch e'.source e'.pathId e'.sequence; return action)
        (fun _ f' => ∃ e : MultiHopEnvelope, e.source ≠ s.localNode ∧
          e.topologyEpoch ∈ (s.expireRetainedNeighborMaps now).epochs ∧
          Observed s f' now e.topologyEpoch e.source e.pathId e.sequence)
        (fun _ f' => Untouched s f' now) := by
    intro e' action hsource hepoch
    exact .bind ((observe_effect _ _ _ _ _).post (fun _ _ h => h) fun _ _ h => .inr h.2)
      fun _ => .pure fun _ h => ⟨e', hsource, hepoch ▸ hknown, h⟩
  split_ifs with hcomplete
  · refine .get_bind fun s₂ hs₂ => ?_
    subst hs₂
    refine .check_bind (fun _ hhere => ?_) hlater
    rw [rejectIf_eq_ok, not_not, expireRetainedNeighborMaps_localNode] at hhere
    refine .check_bind (fun _ _ => ?_) hlater
    refine .check_bind (fun _ _ => ?_) hlater
    refine .check_bind (fun _ _ => ?_) hlater
    exact hobserved e _ (hhere ▸ hend) rfl
  · refine .check_bind (fun here hnext => ?_) hlater
    refine .check_bind (fun _ hhere => ?_) hlater
    rw [rejectIf_eq_ok, not_not, expireRetainedNeighborMaps_localNode] at hhere
    refine .check_bind (fun _ _ => ?_) hlater
    refine .check_bind (fun _ _ => ?_) hlater
    refine .check_bind (fun e' hadvance => ?_) hlater
    refine .check_bind (fun _ _ => ?_) hlater
    refine .check_bind (fun _ _ => ?_) hlater
    refine .check_bind (fun _ _ => ?_) hlater
    obtain rfl := MultiHopEnvelope.advanceHop_eq_ok (codec_eq_ok.mp hadvance)
    have hsource : e.source ≠ s.localNode := by
      intro heq
      have hmem : here ∈ e.path := mem_of_getElem? (required_eq_ok.mp hnext)
      exact hrelay (heq ▸ hhere ▸ hmem)
    exact hobserved (e.atHop (e.hopIndex.toNat + 1)) _ hsource rfl

end

lemma Observed.localNode {epoch : UInt64} (h : Observed f f' now epoch source pathId sequence) :
    f'.localNode = f.localNode := by
  obtain ⟨w, -, rfl⟩ := h
  exact expireRetainedNeighborMaps_localNode f now

lemma Untouched.localNode (h : Untouched f f' now) : f'.localNode = f.localNode := by
  rcases h with rfl | rfl
  · rfl
  · exact expireRetainedNeighborMaps_localNode f now

lemma encapsulateSelected_localNode (f : BoundedOverlayForwarder) (now : Instant)
    (path : OverlayPath) (selection : OverlayPathSelection) (pathId : PathId) (sequence : UInt64)
    (inner : List UInt8) :
    (exec (encapsulateSelected now path selection pathId sequence inner) f).2.localNode
      = f.localNode :=
  Triple.final (R := (·.localNode = f.localNode))
    ((encapsulateSelected_effect f now path selection pathId sequence inner).post
      (fun _ _ h => h.2.localNode) fun _ _ h => h.1.localNode)

lemma receive_localNode (f : BoundedOverlayForwarder) (now : Instant) (previousHop : NodeId)
    (datagram : List UInt8) :
    (exec (receive now previousHop datagram) f).2.localNode = f.localNode := by
  refine Triple.final (R := (·.localNode = f.localNode)) ((receive_effect f now previousHop datagram).post
    (fun _ f' h => ?_) fun _ _ h => h.localNode)
  obtain ⟨e, -, -, hobserved⟩ := h
  exact hobserved.localNode

lemma new_localNode {node : NodeId} {config : OverlayForwarderConfig}
    (h : new node neighborMap config = .ok f) : f.localNode = node := by
  simp only [new, bind_eq_ok, pure_eq_ok_iff] at h
  obtain ⟨_, -, _, -, rfl⟩ := h
  rfl

lemma updateNeighborMap_localNode {later : Instant}
    (h : f.updateNeighborMap now later neighborMap = .ok f') : f'.localNode = f.localNode := by
  simp only [updateNeighborMap, bind_eq_ok] at h
  obtain ⟨_, -, _, -, h⟩ := h
  split_ifs at h
  · obtain rfl := Except.ok.inj h
    exact expireRetainedNeighborMaps_localNode f now
  · obtain rfl := Except.ok.inj h
    exact expireRetainedNeighborMaps_localNode f now

lemma encapsulateSelected_of_prepared {action : OverlayForwardAction}
    (hinner : f.validateInnerDatagram inner = .ok ()) (hid : ¬∀ byte ∈ pathId.val, byte = 0)
    (hselected : exec (validateSelectedPath now path selection) f = (.ok nodes, f'))
    (hprepare : f'.prepareAction path nodes pathId sequence inner = .ok action) :
    exec (encapsulateSelected now path selection pathId sequence inner) f =
      match f'.replayWindow.observe path.topologyEpoch f'.localNode pathId sequence with
      | .ok w => (.ok action, { f' with replayWindow := w })
      | .error e => (.error e, f') := by
  have hreject : rejectIf (∀ byte ∈ pathId.val, byte = 0) OverlayForwarderError.invalidPathId
      = .ok () := rejectIf_eq_ok.mpr hid
  rw [encapsulateSelected, exec_get_bind, exec_check_bind hinner, exec_check_bind hreject,
    exec_bind_of_ok hselected, exec_get_bind, exec_check_bind hprepare, exec_bind, observe,
    exec_get_bind]
  cases hobserve : f'.replayWindow.observe path.topologyEpoch f'.localNode pathId sequence with
  | error | ok => rfl

end BoundedOverlayForwarder

end HeteroNetwork
