import HeteroNetwork.Lib.Ranking
import HeteroNetwork.Endpoints
import HeteroNetwork.Signal.Acl

/-!
# Negotiation of paths

The answer names the candidates of the target, the kind of path to try first and the relays to fall back to.
Both ends ask on their own, and meet at a relay only if they are told the same relays in the same order.
-/

namespace HeteroNetwork

open Std (TreeMap)

open Checked OrderedMap Ranking ControlPlane List

/-! ## Ranking of relays -/

section Rendezvous

variable (sha256 : List UInt8 → List UInt8) (first second : NodeId)

def relayPairRendezvousScore (relay : NodeId) : List UInt8 :=
  let (first, second) := if first ≤ second then (first, second) else (second, first)
  sha256 ([first, second, relay].foldl
    (fun hasher node => hasher ++ BigEndian.toBytes 8 node.asBytes.length ++ node.asBytes)
    (utf8 "heteronetwork-relay-pair-rendezvous-v1"))

/-- The relay with the highest score comes first. -/
def relayPairRendezvousOrdering : NodeId → NodeId → Ordering :=
  byScore (relayPairRendezvousScore sha256 first second) id

lemma relayPairRendezvousOrdering_comm :
    relayPairRendezvousOrdering sha256 second first =
      relayPairRendezvousOrdering sha256 first second := by
  have hscore : relayPairRendezvousScore sha256 second first =
      relayPairRendezvousScore sha256 first second := by
    funext relay
    unfold relayPairRendezvousScore
    rcases lt_trichotomy first second with hlt | rfl | hgt
    · rw [if_neg hlt.not_ge, if_pos hlt.le]
    · rfl
    · rw [if_pos hgt.le, if_neg hgt.not_ge]
  rw [relayPairRendezvousOrdering, relayPairRendezvousOrdering, hscore]

end Rendezvous

def ipv4IsPrivateOrLinkLocal (ip : BitVec 32) : Bool :=
  octet ip 0 = 10 || (octet ip 0 = 172 && 16 ≤ octet ip 1 && octet ip 1 ≤ 31) ||
    (octet ip 0 = 192 && octet ip 1 = 168) || (octet ip 0 = 169 && octet ip 1 = 254)

/-- `Ipv6Addr::is_unique_local` or `is_unicast_link_local`. -/
def ipv6IsUniqueOrLinkLocal (ip : BitVec 128) : Bool :=
  segment ip 0 &&& 0xfe00#16 = 0xfc00#16 || segment ip 0 &&& 0xffc0#16 = 0xfe80#16

def privateIpAddrsShareSubnet : IpAddr → IpAddr → Bool
  | .v4 left, .v4 right =>
    ipv4IsPrivateOrLinkLocal left && ipv4IsPrivateOrLinkLocal right &&
      left &&& 0xffffff00#32 = right &&& 0xffffff00#32
  | .v6 left, .v6 right =>
    ipv6IsUniqueOrLinkLocal left && ipv6IsUniqueOrLinkLocal right && left >>> 64 = right >>> 64
  | _, _ => false

namespace Signal

/-! ## Requests and answers -/

inductive NatMappingBehavior where
  | unknown
  | noNat
  | endpointIndependent
  | addressDependent
  | addressAndPortDependent
deriving DecidableEq

inductive NatTraversalStrategy where
  | directCandidate
  | coordinatedHolePunch
  | relayPreferred
  | insufficientData
deriving DecidableEq

/-- The parts of a classification that decide about a path; the confidence is kept by its bits. -/
structure NatClassification where
  mappingBehavior : NatMappingBehavior
  strategy : NatTraversalStrategy
  confidence : UInt32
  assessedAt : Timestamp
deriving DecidableEq

structure PathMetrics where
  latencyMs : Option UInt32
  lossPpm : UInt32
  jitterMs : Option UInt32
  relayLoad : Option UInt32
  stability : UInt32
deriving DecidableEq

/-- `PathMetrics::default`, with the bits of `1.0` for the stability. -/
def PathMetrics.default : PathMetrics := ⟨none, 0, none, none, 0x3f800000⟩

structure PathQualityObservation where
  selectedState : PathState
  selectedCandidate : Option EndpointCandidate
  relayNode : Option NodeId
  metrics : PathMetrics
  sampleCount : UInt16
  successfulSampleCount : UInt16
  observedAt : Timestamp
deriving DecidableEq

structure SignalPathRequest where
  source : NodeId
  target : NodeId
  sourceCandidates : List EndpointCandidate
  sourceNatClassification : Option NatClassification
  desiredRoutes : List IpNet

structure SignalPathResponse where
  key : PeerPathKey
  targetCandidates : List EndpointCandidate
  relayCandidates : List ControlPlane.NodeRecord
  preferredState : PathState
  score : PathScore
deriving DecidableEq

/-- Code that the service calls and arithmetic on `f32`, which is carried by its bits. -/
structure PathEnv where
  sha256 : List UInt8 → List UInt8
  parseUrl : String → Option ParsedUrl
  validateNatClassification : NodeId → NatClassification → Timestamp → Except SignalError Unit
  validatePathQualityObservation :
    NodeId → NodeId → PathQualityObservation → Timestamp → Except SignalError Unit
  /-- `confidence.is_finite() && confidence * 100.0 >= min_confidence_percent as f32`. -/
  meetsConfidence : UInt32 → UInt8 → Bool
  /-- `active_sessions as f32 / max_sessions as f32`. -/
  sessionLoad : UInt32 → UInt32 → UInt32
  /-- `PathScore::calculate`. -/
  calculate : PathState → PathMetrics → Bool → UInt32 → PathScore

def signalTimestampMaxFutureSkewSeconds : ℕ := 300

def timestampNotAfterSkew (timestamp now : Timestamp) : Bool :=
  timestamp ≤ now + seconds signalTimestampMaxFutureSkewSeconds

def validateEndpointCandidates (nodeId : NodeId) (candidates : List EndpointCandidate)
    (now : Timestamp) : Except SignalError Unit := do
  match candidates.find? fun candidate => candidate.nodeId ≠ nodeId with
  | some candidate => throw (.candidateOwnerMismatch nodeId candidate.nodeId)
  | none => pure ()
  match candidates.findSome? fun candidate =>
      match validateKindAddress candidate with
      | .error reason => some (candidate, reason)
      | .ok () => none with
  | some (candidate, reason) =>
    throw (.candidateInvalid nodeId candidate.kind candidate.addr reason)
  | none => pure ()
  match candidates.find? fun candidate => !timestampNotAfterSkew candidate.observedAt now with
  | some candidate =>
    throw (.candidateInvalid nodeId candidate.kind candidate.addr
      "observed_at is too far in the future")
  | none => pure ()

def freshEndpointCandidates (candidates : List EndpointCandidate) (now : Timestamp)
    (ttlSeconds : UInt64) : List EndpointCandidate :=
  candidates.filter fun candidate =>
    endpointCandidateIsFresh candidate now ttlSeconds && endpointAddrIsUsable candidate.addr

def natClassificationIsFresh (classification : NatClassification) (now : Timestamp)
    (ttlSeconds : UInt64) : Bool :=
  ageWithin now classification.assessedAt ttlSeconds

def freshStoredNatClassification (stored requested : Option NatClassification) (now : Timestamp)
    (ttlSeconds : UInt64) : Option NatClassification :=
  (stored.filter (natClassificationIsFresh · now ttlSeconds)).or
    (requested.filter (natClassificationIsFresh · now ttlSeconds))

/-! ## Which kind of path -/

section Preferred

variable (env : PathEnv) (policy : ClusterPolicy)

def natClassificationMeetsConfidence (classification : NatClassification) : Bool :=
  env.meetsConfidence classification.confidence policy.natClassificationMinConfidencePercent

/-- A classification without enough data does not speak against an attempt. -/
def natClassificationAllowsHolePunch : Option NatClassification → Bool
  | none => true
  | some classification =>
    if classification.strategy = .insufficientData then true
    else if ¬natClassificationMeetsConfidence env policy classification then false
    else classification.strategy = .directCandidate ∨
      classification.strategy = .coordinatedHolePunch

def hasGloballyRoutable (kind : EndpointCandidateKind) (candidates : List EndpointCandidate) : Bool :=
  candidates.any fun candidate =>
    candidate.kind = kind && socketAddrIsGloballyRoutable candidate.addr

def localUdpCandidatesSharePrivateSubnet (source target : List EndpointCandidate) : Bool :=
  source.any fun sourceCandidate =>
    sourceCandidate.kind = .localUdp && endpointAddrIsUsable sourceCandidate.addr &&
      target.any fun targetCandidate =>
        targetCandidate.kind = .localUdp && endpointAddrIsUsable targetCandidate.addr &&
          privateIpAddrsShareSubnet sourceCandidate.addr.ip targetCandidate.addr.ip

def publicSourceCanReachPortStableNatTarget (source target : List EndpointCandidate)
    (targetNatClassification : Option NatClassification) : Bool :=
  hasGloballyRoutable .publicUdp source && hasGloballyRoutable .stunReflexive target &&
    targetNatClassification.any fun classification =>
      natClassificationMeetsConfidence env policy classification &&
        classification.mappingBehavior = .endpointIndependent

variable (sourceCandidates : List EndpointCandidate)
  (sourceNatClassification : Option NatClassification) (targetCandidates : List EndpointCandidate)
  (targetNatClassification : Option NatClassification)

def preferredState : PathState :=
  if policy.allowIpv6Direct ∧ sourceCandidates.any (·.kind = .ipv6) ∧
      targetCandidates.any (·.kind = .ipv6) then .directIpv6
  else if targetCandidates.any (·.kind = .publicUdp) then .directPublic
  else if policy.allowNatTraversal ∧
      localUdpCandidatesSharePrivateSubnet sourceCandidates targetCandidates then .directNatTraversal
  else if policy.allowNatTraversal ∧ publicSourceCanReachPortStableNatTarget env policy
      sourceCandidates targetCandidates targetNatClassification then .directNatTraversal
  else if policy.allowNatTraversal ∧ hasGloballyRoutable .stunReflexive sourceCandidates ∧
      hasGloballyRoutable .stunReflexive targetCandidates ∧
      natClassificationAllowsHolePunch env policy sourceNatClassification ∧
      natClassificationAllowsHolePunch env policy targetNatClassification then .directNatTraversal
  else .unreachable

end Preferred

/-! ## Its score -/

def PathState.isDirect : PathState → Bool
  | .directPublic | .directIpv6 | .directNatTraversal => true
  | .relay | .unreachable => false

def allowsSelectedCandidateKind : PathState → EndpointCandidateKind → Bool
  | .directPublic, .publicUdp | .directIpv6, .ipv6 | .directNatTraversal, .stunReflexive
  | .directNatTraversal, .localUdp => true
  | _, _ => false

/-- The cheapest candidate, of these the one with the highest priority. -/
def selectedTargetCandidate (state : PathState) (targetCandidates : List EndpointCandidate) :
    Option EndpointCandidate :=
  (targetCandidates.filter fun candidate => allowsSelectedCandidateKind state candidate.kind).argmin
    fun candidate => toLex (candidate.cost.toNat, OrderDual.toDual candidate.priority.toNat)

def endpointCandidateIdentityMatches (left right : EndpointCandidate) : Bool :=
  left.nodeId = right.nodeId ∧ left.kind = right.kind ∧ left.addr = right.addr

def matchingPathObservationMetrics (state : PathState) (targetCandidates : List EndpointCandidate)
    (relayCandidates : List ControlPlane.NodeRecord) (observation : Option PathQualityObservation)
    (now : Timestamp) (ttlSeconds : UInt64) : Option PathMetrics := do
  let observation ← observation
  guard (observation.selectedState = state ∧ ageWithin now observation.observedAt ttlSeconds)
  guard <|
    if PathState.isDirect state then
      (selectedTargetCandidate state targetCandidates).any fun selected =>
        observation.selectedCandidate.any (endpointCandidateIdentityMatches selected)
    else if state = .relay then
      relayCandidates.head?.any fun relay => observation.relayNode = some relay.nodeId
    else false
  pure observation.metrics

def endpointKindMinCost (candidates : List EndpointCandidate) (kind : EndpointCandidateKind) : ℕ :=
  (((candidates.filter (·.kind = kind)).map fun candidate => candidate.cost.toNat).min?).getD 0

def saturatingAddCost (a b : ℕ) : UInt32 := UInt32.ofNat (min (a + b) (2 ^ 32 - 1))

def pathCandidateCost (state : PathState) (sourceCandidates targetCandidates : List EndpointCandidate) :
    UInt32 :=
  match state with
  | .directIpv6 => saturatingAddCost (endpointKindMinCost sourceCandidates .ipv6)
      (endpointKindMinCost targetCandidates .ipv6)
  | .directPublic => UInt32.ofNat (endpointKindMinCost targetCandidates .publicUdp)
  | .directNatTraversal => saturatingAddCost (endpointKindMinCost sourceCandidates .stunReflexive)
      (endpointKindMinCost targetCandidates .stunReflexive)
  | .relay | .unreachable => 0

def relayLoad (env : PathEnv) (relayCandidates : List ControlPlane.NodeRecord) : Option UInt32 :=
  (relayCandidates.head?.bind ControlPlane.NodeRecord.relayCapability).map fun capability =>
    if capability.maxSessions = 0 then 0x3f800000
    else env.sessionLoad capability.activeSessions capability.maxSessions

section Coordinator

variable (env : PathEnv) (policy : ClusterPolicy)

def hasEligibleRelay (node : ControlPlane.NodeRecord) : Bool :=
  node.relayCapability.any (isEligibleRelay env.parseUrl)

def rankedRelays (source target : NodeId) (relays : List ControlPlane.NodeRecord) :
    List ControlPlane.NodeRecord :=
  sortBy (fun left right =>
      relayPairRendezvousOrdering env.sha256 source target left.nodeId right.nodeId)
    (relays.filter fun relay =>
      (relay.nodeId ≠ source && relay.nodeId ≠ target) && hasEligibleRelay env relay)

/-- `SignalCoordinator::negotiate_with_observation`. -/
def SignalCoordinator.negotiateWithObservation (request : SignalPathRequest)
    (target : ControlPlane.NodeRecord) (targetNatClassification : Option NatClassification)
    (relays : List ControlPlane.NodeRecord) (observation : Option PathQualityObservation)
    (now : Timestamp) : SignalPathResponse :=
  let sourceCandidates := freshEndpointCandidates request.sourceCandidates now
    policy.endpointCandidateTtlSeconds
  let targetCandidates := freshEndpointCandidates target.endpointCandidates now
    policy.endpointCandidateTtlSeconds
  let preferred := preferredState env policy sourceCandidates request.sourceNatClassification
    targetCandidates targetNatClassification
  let relayCandidates := rankedRelays env request.source request.target relays
  let usableState :=
    if preferred = .unreachable ∧ policy.allowRelayFallback ∧ ¬relayCandidates.isEmpty then .relay
    else preferred
  let observed := (matchingPathObservationMetrics usableState targetCandidates relayCandidates
    observation now policy.pathQualityObservationTtlSeconds).getD .default
  let metrics := { observed with relayLoad := relayLoad env relayCandidates }
  { key := ⟨request.source, request.target⟩
    targetCandidates
    relayCandidates
    preferredState := usableState
    score := env.calculate usableState metrics true
      (pathCandidateCost usableState sourceCandidates targetCandidates) }

def aclDeniedSignalPathResponse (request : SignalPathRequest) : SignalPathResponse where
  key := ⟨request.source, request.target⟩
  targetCandidates := []
  relayCandidates := []
  preferredState := .unreachable
  score := env.calculate .unreachable .default false 0

end Coordinator

/-! ## The registry -/

/-- What the service knows about the nodes.  A record is filed under its own identifier. -/
structure SignalRegistry where
  policy : ClusterPolicy
  nodes : TreeMap NodeId ControlPlane.NodeRecord
  natClassifications : TreeMap NodeId NatClassification
  health : TreeMap NodeId NodeHealth
  keyed : ∀ (nodeId : NodeId) (node : ControlPlane.NodeRecord),
    nodes[nodeId]? = some node → node.nodeId = nodeId

namespace SignalRegistry

def new (policy : ClusterPolicy) : SignalRegistry where
  policy
  nodes := ∅
  natClassifications := ∅
  health := ∅
  keyed := by simp

def normalizeRelayCapability (env : PathEnv) (node : ControlPlane.NodeRecord) :
    ControlPlane.NodeRecord :=
  if hasEligibleRelay env node then node else { node with relayCapability := none }

/-- What `upsert_node_with_nat_and_health` stores once the record has passed its checks. -/
def upsertNode (env : PathEnv) (registry : SignalRegistry) (node : ControlPlane.NodeRecord)
    (natClassification : Option NatClassification) (health : Option NodeHealth) : SignalRegistry where
  policy := registry.policy
  nodes := registry.nodes.insert node.nodeId (normalizeRelayCapability env node)
  natClassifications := match natClassification with
    | some classification => registry.natClassifications.insert node.nodeId classification
    | none => registry.natClassifications.erase node.nodeId
  health := match health with
    | some health => registry.health.insert node.nodeId health
    | none => registry.health.erase node.nodeId
  keyed := by
    intro nodeId stored h
    rw [TreeMap.getElem?_insert] at h
    split_ifs at h with heq
    · rw [← Option.some.inj h, ← Std.LawfulEqOrd.eq_of_compare heq, normalizeRelayCapability]
      split_ifs
      · rfl
      · rfl
    · exact registry.keyed nodeId stored h

def removeNode (registry : SignalRegistry) (nodeId : NodeId) : SignalRegistry where
  policy := registry.policy
  nodes := registry.nodes.erase nodeId
  natClassifications := registry.natClassifications.erase nodeId
  health := registry.health.erase nodeId
  keyed := fun id node h => registry.keyed id node (getElem?_of_erase h)

variable (env : PathEnv) (registry : SignalRegistry)

def relayHealthAllows (health : Option NodeHealth) (now : Timestamp) : Bool :=
  health.any fun health =>
    health.state = .healthy && ageWithin now health.lastSeenAt registry.policy.relayHealthTtlSeconds

def relayCandidateAllowed (now : Timestamp) (node : ControlPlane.NodeRecord) : Bool :=
  hasEligibleRelay env node && registry.relayHealthAllows registry.health[node.nodeId]? now

def relayCandidates (now : Timestamp) : List ControlPlane.NodeRecord :=
  registry.nodes.values.filter (registry.relayCandidateAllowed env now)

def pairRelays (source target : ControlPlane.NodeRecord) (now : Timestamp) :
    List ControlPlane.NodeRecord :=
  (registry.relayCandidates env now).filter fun relay =>
    aclAllowsPeer source relay registry.policy && aclAllowsPeer target relay registry.policy

/-- The checks of `negotiate_with_observation`, with the records of both ends. -/
def pathEnds (request : SignalPathRequest) (observation : Option PathQualityObservation)
    (now : Timestamp) : Except SignalError (ControlPlane.NodeRecord × ControlPlane.NodeRecord) := do
  let source ← orError registry.nodes[request.source]? (.nodeNotFound request.source)
  validateEndpointCandidates request.source request.sourceCandidates now
  request.sourceNatClassification.forM (env.validateNatClassification request.source · now)
  let target ← orError registry.nodes[request.target]? (.nodeNotFound request.target)
  observation.forM (env.validatePathQualityObservation request.source request.target · now)
  validateDesiredRoutes target request.desiredRoutes
  pure (source, target)

/-- The answer to a request that is not denied.  The clock is read again for the relays, at
`relaysAt`. -/
def pathResponse (request : SignalPathRequest) (observation : Option PathQualityObservation)
    (source target : ControlPlane.NodeRecord) (now relaysAt : Timestamp) : SignalPathResponse :=
  let ttlSeconds := registry.policy.natClassificationTtlSeconds
  let sourceNatClassification := freshStoredNatClassification
    registry.natClassifications[request.source]? request.sourceNatClassification now ttlSeconds
  let targetNatClassification := registry.natClassifications[request.target]?.filter
    (natClassificationIsFresh · now ttlSeconds)
  SignalCoordinator.negotiateWithObservation env registry.policy
    { request with sourceNatClassification } target targetNatClassification
    (registry.pairRelays env source target relaysAt) observation now

def negotiateWithObservation (request : SignalPathRequest)
    (observation : Option PathQualityObservation) (now relaysAt : Timestamp) :
    Except SignalError SignalPathResponse := do
  let (source, target) ← registry.pathEnds env request observation now
  if ¬aclAllowsPath source target registry.policy request.desiredRoutes then
    pure (aclDeniedSignalPathResponse env request)
  else
    pure (registry.pathResponse env request observation source target now relaysAt)

/-! ### Relays of a pair -/

section Relays

variable {env : PathEnv} {registry : SignalRegistry} {now relaysAt : Timestamp}
  {source target node : ControlPlane.NodeRecord} {first second relay : NodeId}

lemma mem_nodes : node ∈ registry.nodes.values ↔ registry.nodes[node.nodeId]? = some node := by
  rw [mem_values]
  constructor
  · rintro ⟨nodeId, h⟩
    rwa [registry.keyed nodeId node h]
  · intro h
    exact ⟨node.nodeId, h⟩

lemma nodup_nodeIds : (registry.nodes.values.map ControlPlane.NodeRecord.nodeId).Nodup := by
  have hkeys : registry.nodes.values.map ControlPlane.NodeRecord.nodeId = registry.nodes.keys := by
    rw [values_eq_map_toList, map_map, ← TreeMap.map_fst_toList_eq_keys]
    refine map_congr_left fun e he => ?_
    exact registry.keyed e.1 e.2 (TreeMap.mem_toList_iff_getElem?_eq_some.mp he)
  rw [hkeys]
  exact nodup_keys registry.nodes

lemma mem_pairRelays :
    node ∈ registry.pairRelays env source target relaysAt ↔
      registry.nodes[node.nodeId]? = some node ∧
        registry.relayCandidateAllowed env relaysAt node = true ∧
        aclAllowsPeer source node registry.policy = true ∧
        aclAllowsPeer target node registry.policy = true := by
  simp only [pairRelays, relayCandidates, mem_filter, mem_nodes, Bool.and_eq_true, and_assoc]

lemma nodup_pairRelays :
    ((registry.pairRelays env source target relaysAt).map ControlPlane.NodeRecord.nodeId).Nodup :=
  nodup_nodeIds.sublist ((filter_sublist.trans filter_sublist).map _)

lemma pairRelays_comm :
    registry.pairRelays env target source relaysAt = registry.pairRelays env source target relaysAt :=
  filter_congr fun _ _ => Bool.and_comm _ _

lemma pairRelays_removeNode :
    ((registry.removeNode relay).pairRelays env source target relaysAt).Perm
      ((registry.pairRelays env source target relaysAt).filter fun node => node.nodeId ≠ relay) := by
  rw [perm_ext_iff_of_nodup nodup_pairRelays.of_map (nodup_pairRelays.of_map.filter _)]
  intro node
  rw [mem_filter, mem_pairRelays, mem_pairRelays]
  by_cases hne : node.nodeId = relay
  · simp [removeNode, hne]
  · have hcmp : compare relay node.nodeId ≠ .eq := fun h => hne (Std.LawfulEqOrd.eq_of_compare h).symm
    simp [removeNode, relayCandidateAllowed, relayHealthAllows, TreeMap.getElem?_erase, hcmp, hne]

instance : Std.TransCmp fun left right : ControlPlane.NodeRecord =>
    relayPairRendezvousOrdering env.sha256 first second left.nodeId right.nodeId :=
  inferInstanceAs (Std.TransCmp (byScore
    (fun node : ControlPlane.NodeRecord => relayPairRendezvousScore env.sha256 first second node.nodeId)
    ControlPlane.NodeRecord.nodeId))

variable {relays : List ControlPlane.NodeRecord}

lemma separates_relays (hnodup : (relays.map ControlPlane.NodeRecord.nodeId).Nodup) :
    Separates (fun left right : ControlPlane.NodeRecord =>
      relayPairRendezvousOrdering env.sha256 first second left.nodeId right.nodeId) relays :=
  .of_nodup (fun _ _ h => key_eq_of_byScore _ _ h) hnodup

lemma rankedRelays_comm :
    rankedRelays env second first relays = rankedRelays env first second relays := by
  unfold rankedRelays
  rw [relayPairRendezvousOrdering_comm]
  congr 1
  exact filter_congr fun node _ => by rw [Bool.and_comm (decide (node.nodeId ≠ second))]

lemma rankedRelays_removeNode :
    rankedRelays env first second ((registry.removeNode relay).pairRelays env source target relaysAt) =
      (rankedRelays env first second (registry.pairRelays env source target relaysAt)).filter
        fun node => node.nodeId ≠ relay := by
  unfold rankedRelays
  rw [← sortBy_filter _ (separates_relays (nodup_pairRelays.sublist (filter_sublist.map _))),
    filter_comm]
  refine sortBy_eq_of_perm ?_ (pairRelays_removeNode.filter _)
  exact separates_relays (nodup_pairRelays.sublist (filter_sublist.map _))

lemma mem_rankedRelays :
    node ∈ rankedRelays env first second relays ↔
      node ∈ relays ∧ (node.nodeId ≠ first ∧ node.nodeId ≠ second) ∧ hasEligibleRelay env node := by
  simp [rankedRelays]

lemma relayHealthAllows_eq_true {health : Option NodeHealth}
    (h : registry.relayHealthAllows health now = true) :
    ∃ report, health = some report ∧ report.state = .healthy ∧
      ageWithin now report.lastSeenAt registry.policy.relayHealthTtlSeconds = true := by
  cases health with
  | none => cases h
  | some report =>
    obtain ⟨hstate, hfresh⟩ := Bool.and_eq_true_iff.mp h
    exact ⟨report, rfl, of_decide_eq_true hstate, hfresh⟩

end Relays

section Answers

variable {env : PathEnv} {registry : SignalRegistry} {request : SignalPathRequest}
  {observation : Option PathQualityObservation} {now relaysAt : Timestamp}
  {source target : ControlPlane.NodeRecord} {response : SignalPathResponse} {relay : NodeId}

lemma pathEnds_eq_ok (h : registry.pathEnds env request observation now = .ok (source, target)) :
    registry.nodes[request.source]? = some source ∧ registry.nodes[request.target]? = some target := by
  simp only [pathEnds, bind_eq_ok, orError_eq_ok, pure_eq_ok_iff, Prod.mk.injEq] at h
  obtain ⟨_, hsource, _, _, _, _, _, htarget, _, _, _, _, rfl, rfl⟩ := h
  exact ⟨hsource, htarget⟩

lemma pathEnds_removeNode (hsource : request.source ≠ relay) (htarget : request.target ≠ relay) :
    (registry.removeNode relay).pathEnds env request observation now =
      registry.pathEnds env request observation now := by
  have hlookup : ∀ nodeId, nodeId ≠ relay →
      (registry.removeNode relay).nodes[nodeId]? = registry.nodes[nodeId]? := by
    intro nodeId hne
    exact (TreeMap.getElem?_erase ..).trans
      (if_neg fun h => hne (Std.LawfulEqOrd.eq_of_compare h).symm)
  rw [pathEnds, pathEnds, hlookup _ hsource, hlookup _ htarget]

lemma negotiate_eq_ok (hsource : registry.nodes[request.source]? = some source)
    (htarget : registry.nodes[request.target]? = some target)
    (hacl : aclAllowsPath source target registry.policy request.desiredRoutes = true)
    (h : registry.negotiateWithObservation env request observation now relaysAt = .ok response) :
    registry.pathEnds env request observation now = .ok (source, target) ∧
      response = registry.pathResponse env request observation source target now relaysAt := by
  rw [negotiateWithObservation, bind_eq_ok] at h
  obtain ⟨⟨source', target'⟩, hends, h⟩ := h
  obtain ⟨hsource', htarget'⟩ := pathEnds_eq_ok hends
  obtain rfl := Option.some.inj (hsource.symm.trans hsource')
  obtain rfl := Option.some.inj (htarget.symm.trans htarget')
  simp only [hacl, not_true_eq_false, if_false, pure_eq_ok_iff] at h
  exact ⟨hends, h.symm⟩

lemma negotiate_removeNode (hsource : request.source ≠ relay) (htarget : request.target ≠ relay)
    (hacl : aclAllowsPath source target registry.policy request.desiredRoutes = true)
    (hends : registry.pathEnds env request observation now = .ok (source, target)) :
    (registry.removeNode relay).negotiateWithObservation env request observation now relaysAt =
      .ok ((registry.removeNode relay).pathResponse env request observation source target now
        relaysAt) := by
  have hpolicy : (registry.removeNode relay).policy = registry.policy := rfl
  rw [negotiateWithObservation, pathEnds_removeNode hsource htarget, hends, ok_bind]
  simp only [hpolicy, hacl, not_true_eq_false, if_false]
  rfl

end Answers

/-- Both ends of a pair are told the same relays in the same order, whenever they ask; a node that leaves
does not move the others; and every relay is registered, another node than the two ends, eligible, healthy
and granted to both. -/
theorem relay_candidates_agree (env : PathEnv) (registry : SignalRegistry)
    (request reverse : SignalPathRequest) (observation observation' : Option PathQualityObservation)
    (now now' relaysAt : Timestamp) (source target : ControlPlane.NodeRecord)
    (response response' : SignalPathResponse)
    (hreverse : reverse.source = request.target ∧ reverse.target = request.source)
    (hsource : registry.nodes[request.source]? = some source)
    (htarget : registry.nodes[request.target]? = some target)
    (hacl : aclAllowsPath source target registry.policy request.desiredRoutes = true)
    (hacl' : aclAllowsPath target source registry.policy reverse.desiredRoutes = true)
    (hok : registry.negotiateWithObservation env request observation now relaysAt = .ok response)
    (hok' : registry.negotiateWithObservation env reverse observation' now' relaysAt = .ok response') :
    response'.relayCandidates = response.relayCandidates ∧
    (∀ relay, relay ≠ request.source → relay ≠ request.target →
      ∃ without, (registry.removeNode relay).negotiateWithObservation env request observation now
          relaysAt = .ok without ∧
        without.relayCandidates =
          response.relayCandidates.filter fun node => node.nodeId ≠ relay) ∧
    ∀ node ∈ response.relayCandidates, node.nodeId ≠ request.source ∧ node.nodeId ≠ request.target ∧
      registry.nodes[node.nodeId]? = some node ∧
      node.relayCapability.any (isEligibleRelay env.parseUrl) = true ∧
      (∃ health, registry.health[node.nodeId]? = some health ∧ health.state = .healthy ∧
        ageWithin relaysAt health.lastSeenAt registry.policy.relayHealthTtlSeconds = true) ∧
      aclAllowsPeer source node registry.policy = true ∧
      aclAllowsPeer target node registry.policy = true := by
  obtain ⟨hends, rfl⟩ := negotiate_eq_ok hsource htarget hacl hok
  obtain ⟨-, rfl⟩ := negotiate_eq_ok (hreverse.1 ▸ htarget) (hreverse.2 ▸ hsource) hacl' hok'
  refine ⟨?_, fun relay hne hne' => ?_, fun node hnode => ?_⟩
  · show rankedRelays env reverse.source reverse.target (registry.pairRelays env target source relaysAt) =
      rankedRelays env request.source request.target (registry.pairRelays env source target relaysAt)
    rw [hreverse.1, hreverse.2, rankedRelays_comm, pairRelays_comm]
  · exact ⟨_, negotiate_removeNode hne.symm hne'.symm hacl hends, rankedRelays_removeNode⟩
  · obtain ⟨hmem, ⟨hsource, htarget⟩, heligible⟩ := mem_rankedRelays.mp hnode
    obtain ⟨hstored, hallowed, haclSource, haclTarget⟩ := mem_pairRelays.mp hmem
    obtain ⟨health, hhealth, hfresh⟩ := relayHealthAllows_eq_true (Bool.and_eq_true_iff.mp hallowed).2
    exact ⟨hsource, htarget, hstored, heligible, ⟨health, hhealth, hfresh⟩, haclSource, haclTarget⟩

end SignalRegistry

/-! ## A registry with two relays -/

namespace SampleNegotiation

def env : PathEnv where
  sha256 := id
  parseUrl := fun _ => some ⟨"https", some (.domain "relay"), some 443⟩
  validateNatClassification := fun _ _ _ => .ok ()
  validatePathQualityObservation := fun _ _ _ _ => .ok ()
  meetsConfidence := fun _ _ => true
  sessionLoad := fun _ _ => 0
  calculate := fun _ _ _ _ => ⟨0, []⟩

def node (nodeId : NodeId) : ControlPlane.NodeRecord :=
  { ControlPlane.sampleNode with
    nodeId
    relayCapability := some ⟨true, some (.v4 0x08080808#32 51820), some "https://relay", 10, 0, 100,
      true⟩ }

def registry : SignalRegistry :=
  [⟨"s"⟩, ⟨"t"⟩, ⟨"a"⟩, ⟨"b"⟩].foldl
    (fun registry nodeId => registry.upsertNode env (node nodeId) none
      (some ⟨.healthy, 0, none, none, none⟩))
    (SignalRegistry.new (ControlPlane.SampleAcl.policy []))

def request (source target : NodeId) : SignalPathRequest := ⟨source, target, [], none, []⟩

def response (source target : NodeId) : SignalPathResponse where
  key := ⟨source, target⟩
  targetCandidates := []
  relayCandidates := [node ⟨"b"⟩, node ⟨"a"⟩]
  preferredState := .relay
  score := ⟨0, []⟩

theorem relay_candidates_agree_sample :
    registry.negotiateWithObservation env (request ⟨"s"⟩ ⟨"t"⟩) none 0 0 =
      .ok (response ⟨"s"⟩ ⟨"t"⟩) ∧
    registry.negotiateWithObservation env (request ⟨"t"⟩ ⟨"s"⟩) none 0 0 =
      .ok (response ⟨"t"⟩ ⟨"s"⟩) ∧
    ∃ without, (registry.removeNode ⟨"b"⟩).negotiateWithObservation env (request ⟨"s"⟩ ⟨"t"⟩) none 0 0 =
        .ok without ∧
      without.relayCandidates = [node ⟨"a"⟩] := by
  have hok : registry.negotiateWithObservation env (request ⟨"s"⟩ ⟨"t"⟩) none 0 0 =
      .ok (response ⟨"s"⟩ ⟨"t"⟩) := by decide +kernel
  have hok' : registry.negotiateWithObservation env (request ⟨"t"⟩ ⟨"s"⟩) none 0 0 =
      .ok (response ⟨"t"⟩ ⟨"s"⟩) := by decide +kernel
  obtain ⟨-, hremoved, -⟩ := SignalRegistry.relay_candidates_agree env registry
    (request ⟨"s"⟩ ⟨"t"⟩) (request ⟨"t"⟩ ⟨"s"⟩) none none 0 0 0 (node ⟨"s"⟩) (node ⟨"t"⟩)
    (response ⟨"s"⟩ ⟨"t"⟩) (response ⟨"t"⟩ ⟨"s"⟩) ⟨rfl, rfl⟩ (by decide +kernel) (by decide +kernel)
    (by decide +kernel) (by decide +kernel) hok hok'
  obtain ⟨without, hwithout, hrelays⟩ := hremoved ⟨"b"⟩ (by decide) (by decide)
  exact ⟨hok, hok', without, hwithout, hrelays.trans (by decide +kernel)⟩

end SampleNegotiation

end Signal

end HeteroNetwork
