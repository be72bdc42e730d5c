import HeteroNetwork.Endpoints
import HeteroNetwork.ControlPlane.Acl

/-!
# Gateways of clients

A client keeps one tunnel to a gateway, to which all nodes send packets for it.  Both sides compute the
gateway from the stored selection and the best four gateways, but the client ranks the nodes it may see and
a node ranks all nodes.
-/

namespace HeteroNetwork

open Std (TreeMap)

open OrderedMap List

def IpNet.toTuple : IpNet → Bool ×ₗ ℕ ×ₗ ℕ
  | .v4 net => toLex (false, toLex (net.addr.toNat, net.prefixLen.val))
  | .v6 net => toLex (true, toLex (net.addr.toNat, net.prefixLen.val))

lemma IpNet.toTuple_injective : Function.Injective IpNet.toTuple := by
  rintro (⟨addr, len⟩ | ⟨addr, len⟩) (⟨addr', len'⟩ | ⟨addr', len'⟩) h
  · simp only [toTuple, toLex_inj, Prod.mk.injEq, BitVec.toNat_inj, Fin.val_inj] at h
    obtain ⟨-, rfl, rfl⟩ := h
    rfl
  · simp [toTuple] at h
  · simp [toTuple] at h
  · simp only [toTuple, toLex_inj, Prod.mk.injEq, BitVec.toNat_inj, Fin.val_inj] at h
    obtain ⟨-, rfl, rfl⟩ := h
    rfl

instance : LinearOrder IpNet := LinearOrder.lift' IpNet.toTuple IpNet.toTuple_injective

instance : Std.LawfulEqOrd IpNet := ⟨compare_eq_iff_eq.mp⟩

namespace ControlPlane

def maxClientGateways : ℕ := 4

/-! ## Candidates -/

section Candidates

variable (displayAddr : SocketAddr → String) (healthByNode : TreeMap NodeId NodeHealth)
  (now : Timestamp) (policy : ClusterPolicy)

def clientGatewayHealthAllows (health : Option NodeHealth) : Bool :=
  match health with
  | none => true
  | some health => health.state = .healthy && ageWithin now health.lastSeenAt policy.relayHealthTtlSeconds

/-- The rank of a kind of candidate; the others are not for clients. -/
def clientGatewayKindRank : EndpointCandidateKind → Option ℕ
  | .ipv6 => if policy.allowIpv6Direct then some 0 else none
  | .publicUdp => some 1
  | .stunReflexive | .localUdp | .relay => none

/-- `(rank, cost, u16::MAX - priority, addr)`, compared from the left. -/
abbrev GatewayScore := ℕ ×ₗ ℕ ×ₗ ℕ ×ₗ String

def clientGatewayCandidateScore (node : NodeRecord) : Option GatewayScore :=
  if node.isAdministrativelyStopped then none
  else
    let candidates := node.endpointCandidates.filter fun candidate =>
      candidate.nodeId = node.nodeId && (validateKindAddress candidate).isOk &&
        endpointAddrIsUsable candidate.addr && socketAddrIsGloballyRoutable candidate.addr &&
        endpointCandidateIsFresh candidate now policy.endpointCandidateTtlSeconds
    (candidates.filterMap fun candidate =>
      (clientGatewayKindRank policy candidate.kind).map fun rank =>
        (toLex (rank, toLex (candidate.cost.toNat, toLex (65535 - candidate.priority.toNat,
          displayAddr candidate.addr))) : GatewayScore)).min?

abbrev RankedGateway := (Bool ×ₗ GatewayScore ×ₗ String) × NodeRecord

def rankClientGateway (node : NodeRecord) : Option RankedGateway :=
  if node.role.isClient then none
  else if !clientGatewayHealthAllows now policy healthByNode[node.nodeId]? then none
  else (clientGatewayCandidateScore displayAddr now policy node).map fun score =>
    (toLex (decide (node.role.asStr ≠ "gateway"), toLex (score, node.nodeId.asStr)), node)

def selectClientGateways (nodes : List NodeRecord) : List NodeRecord :=
  (((nodes.filterMap (rankClientGateway displayAddr healthByNode now policy)).insertionSort
    fun left right => left.1 ≤ right.1).take maxClientGateways).map Prod.snd

end Candidates

/-! ## Routes through a gateway -/

def vpnHostCidr : IpAddr → IpNet
  | .v4 ip => .v4 ⟨ip, 32⟩
  | .v6 ip => .v6 ⟨ip, 128⟩

def projectedGatewayHostRoute (gateway target : NodeRecord) : Route where
  id := "client-via-" ++ target.nodeId.asStr
  cidr := vpnHostCidr target.vpnIp
  advertisedBy := gateway.nodeId
  via := some gateway.nodeId
  metric := 10
  tags := target.tags

def gatewayRouteForClient (gatewayId : NodeId) (client : NodeRecord) : Route where
  id := "client-" ++ client.nodeId.asStr
  cidr := vpnHostCidr client.vpnIp
  advertisedBy := gatewayId
  via := some gatewayId
  metric := 10
  tags := client.tags

def preference (route : Route) : ℕ ×ₗ String := toLex (route.metric.toNat, route.id)

def insertPreferredGatewayRoute (routes : TreeMap IpNet Route) (route : Route) :
    TreeMap IpNet Route :=
  if routes[route.cidr]?.all fun current => preference route < preference current then
    routes.insert route.cidr route
  else routes

/-- The routes of a node by their prefix; a later route replaces an earlier one. -/
def routesByCidr (routes : List Route) : TreeMap IpNet Route :=
  .ofList (routes.map fun route => (route.cidr, route))

section Projection

variable (now : Timestamp) (policy : ClusterPolicy)

def filterClientGatewayEndpointCandidates (node : NodeRecord) : NodeRecord :=
  { node with
    endpointCandidates := node.endpointCandidates.filter fun candidate =>
      (candidate.kind = .publicUdp || candidate.kind = .ipv6) &&
        (candidate.kind ≠ .ipv6 || policy.allowIpv6Direct) && candidate.nodeId = node.nodeId &&
        (validateKindAddress candidate).isOk && socketAddrIsGloballyRoutable candidate.addr &&
        endpointCandidateIsFresh candidate now policy.endpointCandidateTtlSeconds
    relayCapability := none }

def filterServedEndpointCandidates (node : NodeRecord) : NodeRecord :=
  { node with
    endpointCandidates := node.endpointCandidates.filter fun candidate =>
      endpointCandidateIsFresh candidate now policy.endpointCandidateTtlSeconds &&
        endpointAddrIsUsable candidate.addr }

def routeViaGateway (gatewayId : NodeId) (node : NodeRecord) (route : Route) : Route where
  id := "client-via-" ++ node.nodeId.asStr ++ "-" ++ route.id
  cidr := route.cidr
  advertisedBy := gatewayId
  via := some gatewayId
  metric := route.metric
  tags := route.tags

def projectNode (gateway : NodeRecord) (routes : TreeMap IpNet Route) (node : NodeRecord) :
    TreeMap IpNet Route :=
  if node.nodeId = gateway.nodeId then routes
  else (node.routes.map (routeViaGateway gateway.nodeId node)).foldl insertPreferredGatewayRoute
    (insertPreferredGatewayRoute routes (projectedGatewayHostRoute gateway node))

def projectClientGateway (visibleNodes : List NodeRecord) (gateway : NodeRecord) : NodeRecord :=
  filterClientGatewayEndpointCandidates now policy
    { gateway with
      routes := (visibleNodes.foldl (projectNode gateway) (routesByCidr gateway.routes)).values }

end Projection

/-! ## The two maps -/

section Maps

variable (displayAddr : SocketAddr → String) (peers : List NodeRecord)
  (healthByNode : TreeMap NodeId NodeHealth)
  (selections : TreeMap NodeId ClientGatewaySelection) (policy : ClusterPolicy) (now : Timestamp)

def visibleNodes (client : NodeRecord) : List NodeRecord :=
  (peers.filter fun peer => peer.nodeId ≠ client.nodeId && !peer.role.isClient).filterMap fun peer =>
    aclFilterPeer client peer policy

def clientGateways (client : NodeRecord) : List NodeRecord :=
  selectClientGateways displayAddr healthByNode now policy (visibleNodes peers policy client)

def gatewayIds : List NodeId :=
  (selectClientGateways displayAddr healthByNode now policy peers).map NodeRecord.nodeId

/-- `rotate_left` to the selected gateway, if it is one of the list. -/
def rotateToSelected (selected : Option ClientGatewaySelection) (gateways : List NodeRecord) :
    List NodeRecord :=
  match selected with
  | none => gateways
  | some selected =>
    match gateways.findIdx? fun gateway => gateway.nodeId = selected.gatewayNodeId with
    | some index => gateways.rotate index
    | none => gateways

def clientGatewayPeerMap (source : NodeRecord) : List NodeRecord :=
  (rotateToSelected selections[source.nodeId]?
    (clientGateways displayAddr peers healthByNode policy now source)).map
      (projectClientGateway now policy (visibleNodes peers policy source))

def visibleClients (source : NodeRecord) : TreeMap NodeId NodeRecord :=
  .ofList ((peers.filter fun peer => peer.role.isClient).filterMap fun client =>
    (aclFilterPeer source client policy).map fun visible => (visible.nodeId, visible))

def selectedGateway (clientId : NodeId) : Option NodeId :=
  ((selections[clientId]?.map ClientGatewaySelection.gatewayNodeId).filter fun gateway =>
      gateway ∈ gatewayIds displayAddr peers healthByNode policy now).or
    (gatewayIds displayAddr peers healthByNode policy now).head?

def selectedGatewayByClient (source : NodeRecord) : TreeMap NodeId NodeId :=
  .ofList ((visibleClients peers policy source).values.filterMap fun client =>
    (selectedGateway displayAddr peers healthByNode selections policy now client.nodeId).map fun gateway =>
      (client.nodeId, gateway))

def clientRoutes (source : NodeRecord) : List Route :=
  (visibleClients peers policy source).values.filterMap fun client =>
    match (selectedGatewayByClient displayAddr peers healthByNode selections policy now
        source)[client.nodeId]? with
    | none => none
    | some gateway =>
      if gateway = source.nodeId then none else some (gatewayRouteForClient gateway client)

def clientRoutesByGateway (source : NodeRecord) : TreeMap NodeId (List Route) :=
  (clientRoutes displayAddr peers healthByNode selections policy now source).foldl
    (fun byGateway route =>
      byGateway.insert route.advertisedBy (byGateway.getD route.advertisedBy [] ++ [route])) ∅

def nodeEntry (source peer : NodeRecord) : Option NodeRecord :=
  (aclFilterPeer source peer policy).map fun visible =>
    filterServedEndpointCandidates now policy
      (match (clientRoutesByGateway displayAddr peers healthByNode selections policy now
          source)[visible.nodeId]? with
        | some routes =>
          { visible with
            routes := (routes.foldl insertPreferredGatewayRoute (routesByCidr visible.routes)).values }
        | none => visible)

/-- The entry of a client: only its gateway has it as a peer. -/
def clientEntry (source peer : NodeRecord) : Option NodeRecord :=
  if (selectedGatewayByClient displayAddr peers healthByNode selections policy now
      source)[peer.nodeId]? ≠ some source.nodeId then none
  else (visibleClients peers policy source)[peer.nodeId]?.map (filterServedEndpointCandidates now policy)

def nodePeerMapWithClients (source : NodeRecord) : List NodeRecord :=
  (peers.filter fun peer => peer.nodeId ≠ source.nodeId).filterMap fun peer =>
    if peer.role.isClient then
      clientEntry displayAddr peers healthByNode selections policy now source peer
    else nodeEntry displayAddr peers healthByNode selections policy now source peer

def desiredGateway (client : NodeRecord) (requestedGateway : Option NodeId) : Option NodeId :=
  let gateways := clientGateways displayAddr peers healthByNode policy now client
  (requestedGateway.filter fun requested => gateways.any fun gateway => gateway.nodeId = requested).or
    (gateways.head?.map NodeRecord.nodeId)

/-- The selections after the update, and whether they have changed. -/
def updateClientGatewaySelection (client : NodeRecord) (requestedGateway : Option NodeId) :
    TreeMap NodeId ClientGatewaySelection × Bool :=
  let previous := selections[client.nodeId]?
  match desiredGateway displayAddr peers healthByNode policy now client requestedGateway with
  | some gatewayNodeId =>
    if previous.map ClientGatewaySelection.gatewayNodeId ≠ some gatewayNodeId then
      (selections.insert client.nodeId ⟨client.nodeId, gatewayNodeId, now⟩, true)
    else (selections, false)
  | none =>
    if previous.isSome then (selections.erase client.nodeId, true) else (selections, false)

end Maps

section Preferred

def Keyed (routes : TreeMap IpNet Route) : Prop :=
  ∀ (cidr : IpNet) (route : Route), routes[cidr]? = some route → route.cidr = cidr

variable {routes : TreeMap IpNet Route} {route : Route} {cidr : IpNet}

lemma keyed_routesByCidr (routes : List Route) : Keyed (routesByCidr routes) := by
  intro cidr route h
  obtain ⟨listed, -, hpair⟩ := mem_map.mp (mem_of_getElem?_ofList h)
  obtain ⟨hkey, rfl⟩ := Prod.mk.inj hpair
  exact hkey

lemma Keyed.insertPreferred (h : Keyed routes) (route : Route) :
    Keyed (insertPreferredGatewayRoute routes route) := by
  rw [insertPreferredGatewayRoute]
  split_ifs
  · intro cidr kept hkept
    by_cases heq : route.cidr = cidr
    · subst heq
      rw [TreeMap.getElem?_insert_self] at hkept
      rw [← Option.some.inj hkept]
    · exact h cidr kept (by rwa [getElem?_insert_ne heq] at hkept)
  · exact h

lemma mem_insertPreferred :
    cidr ∈ insertPreferredGatewayRoute routes route ↔ cidr = route.cidr ∨ cidr ∈ routes := by
  rw [insertPreferredGatewayRoute]
  split_ifs with hpreferred
  · rw [TreeMap.mem_insert, Std.LawfulEqCmp.compare_eq_iff_eq, eq_comm]
  · refine ⟨.inr, ?_⟩
    rintro (rfl | hmem)
    · cases hcurrent : routes[route.cidr]? with
      | none => simp [hcurrent] at hpreferred
      | some current => exact mem_of_getElem? hcurrent
    · exact hmem

lemma exists_preferred {offered : List Route} (hkeyed : Keyed routes) (hroute : route ∈ offered) :
    ∃ kept ∈ (offered.foldl insertPreferredGatewayRoute routes).values, kept.cidr = route.cidr := by
  have hrun : ∀ (offered : List Route) (routes : TreeMap IpNet Route), Keyed routes →
      Keyed (offered.foldl insertPreferredGatewayRoute routes) ∧
      ∀ cidr, cidr ∈ offered.foldl insertPreferredGatewayRoute routes ↔
        cidr ∈ routes ∨ ∃ route ∈ offered, cidr = route.cidr := by
    intro offered
    induction offered with
    | nil => exact fun routes hkeyed => ⟨hkeyed, by simp⟩
    | cons first rest ih =>
      intro routes hkeyed
      obtain ⟨hkept, hmem⟩ := ih _ (hkeyed.insertPreferred first)
      refine ⟨hkept, fun cidr => ?_⟩
      rw [foldl_cons, hmem, mem_insertPreferred, exists_mem_cons_iff, or_assoc, or_left_comm]
  obtain ⟨hkept, hmem⟩ := hrun offered routes hkeyed
  obtain ⟨kept, hget⟩ := mem_iff_exists.mp ((hmem route.cidr).mpr (.inr ⟨route, hroute, rfl⟩))
  exact ⟨kept, mem_values.mpr ⟨_, hget⟩, hkept _ _ hget⟩

end Preferred

section Client

variable {displayAddr : SocketAddr → String} {peers : List NodeRecord}
  {healthByNode : TreeMap NodeId NodeHealth}
  {selections : TreeMap NodeId ClientGatewaySelection} {policy : ClusterPolicy} {now : Timestamp}
  {client : NodeRecord} {requested : Option NodeId}

lemma gatewayNodeId_update :
    (updateClientGatewaySelection displayAddr peers healthByNode selections policy now client
      requested).1[client.nodeId]?.map ClientGatewaySelection.gatewayNodeId =
      desiredGateway displayAddr peers healthByNode policy now client requested := by
  rw [updateClientGatewaySelection]
  cases hdesired : desiredGateway displayAddr peers healthByNode policy now client requested with
  | some gateway =>
    dsimp only
    split_ifs with hchanged
    · rw [TreeMap.getElem?_insert_self]
      rfl
    · exact not_not.mp hchanged
  | none =>
    dsimp only
    split_ifs with hprevious
    · rw [TreeMap.getElem?_erase_self]
      rfl
    · rw [Option.not_isSome_iff_eq_none.mp hprevious]
      rfl

lemma desiredGateway_cases :
    (clientGateways displayAddr peers healthByNode policy now client = [] ∧
      desiredGateway displayAddr peers healthByNode policy now client requested = none) ∨
    ∃ gateway ∈ clientGateways displayAddr peers healthByNode policy now client,
      desiredGateway displayAddr peers healthByNode policy now client requested =
        some gateway.nodeId := by
  rw [desiredGateway]
  cases hgateways : clientGateways displayAddr peers healthByNode policy now client with
  | nil => exact .inl ⟨rfl, by cases requested <;> rfl⟩
  | cons first rest =>
    right
    cases hfilter : requested.filter fun requested =>
        (first :: rest).any fun gateway => gateway.nodeId = requested with
    | none => exact ⟨first, mem_cons_self, by simp⟩
    | some wanted =>
      obtain ⟨hwanted, hany⟩ := Option.filter_eq_some_iff.mp hfilter
      obtain ⟨gateway, hmem, hid⟩ := any_eq_true.mp hany
      exact ⟨gateway, hmem, by simp [of_decide_eq_true hid]⟩

lemma head?_rotateToSelected {selected : ClientGatewaySelection} {gateways : List NodeRecord}
    {gateway : NodeRecord} (hmem : gateway ∈ gateways)
    (hselected : selected.gatewayNodeId = gateway.nodeId) :
    (rotateToSelected (some selected) gateways).head?.map NodeRecord.nodeId = some gateway.nodeId := by
  rw [rotateToSelected]
  cases hindex : gateways.findIdx? fun g => g.nodeId = selected.gatewayNodeId with
  | none =>
    rw [findIdx?_eq_none_iff] at hindex
    have hne := hindex gateway hmem
    rw [hselected] at hne
    simp at hne
  | some index =>
    obtain ⟨hlt, hid, -⟩ := findIdx?_eq_some_iff_getElem.mp hindex
    dsimp only
    rw [head?_rotate hlt, getElem?_eq_getElem hlt, Option.map_some,
      of_decide_eq_true hid, hselected]

lemma head?_clientGatewayPeerMap :
    (clientGatewayPeerMap displayAddr peers healthByNode
      (updateClientGatewaySelection displayAddr peers healthByNode selections policy now client
        requested).1 policy now client).head?.map NodeRecord.nodeId =
      desiredGateway displayAddr peers healthByNode policy now client requested := by
  have hprojected : ∀ gateways : List NodeRecord,
      (gateways.map (projectClientGateway now policy (visibleNodes peers policy client))).head?.map
        NodeRecord.nodeId = gateways.head?.map NodeRecord.nodeId := by
    intro gateways
    cases gateways <;> rfl
  have hstored := @gatewayNodeId_update displayAddr peers healthByNode selections policy now client
    requested
  rw [clientGatewayPeerMap, hprojected]
  rcases @desiredGateway_cases displayAddr peers healthByNode policy now client requested with
    ⟨hnone, hdesired⟩ | ⟨gateway, hmem, hdesired⟩
  · rw [hdesired, Option.map_eq_none_iff] at hstored
    rw [hdesired, hnone, hstored]
    rfl
  · rw [hdesired] at hstored ⊢
    obtain ⟨selected, hselected, hid⟩ := Option.map_eq_some_iff.mp hstored
    rw [hselected]
    exact head?_rotateToSelected hmem hid

lemma desiredGateway_eq_some_iff {gateway : NodeId} :
    desiredGateway displayAddr peers healthByNode policy now client requested = some gateway ↔
      (requested = some gateway ∧
        ∃ g ∈ clientGateways displayAddr peers healthByNode policy now client, g.nodeId = gateway) ∨
      ((∀ g ∈ clientGateways displayAddr peers healthByNode policy now client,
          requested ≠ some g.nodeId) ∧
        (clientGateways displayAddr peers healthByNode policy now client).head?.map
          NodeRecord.nodeId = some gateway) := by
  rw [desiredGateway]
  generalize clientGateways displayAddr peers healthByNode policy now client = gateways
  cases requested with
  | none => simp
  | some wanted =>
    by_cases hwanted : ∃ g ∈ gateways, g.nodeId = wanted
    · have hany : (gateways.any fun g => g.nodeId = wanted) = true := by simpa using hwanted
      have hsome : ¬∀ g ∈ gateways, some wanted ≠ some g.nodeId := by
        obtain ⟨g, hg, rfl⟩ := hwanted
        exact fun h => h g hg rfl
      rw [Option.filter_some, if_pos hany, Option.some_or]
      constructor
      · rintro ⟨⟩
        exact .inl ⟨rfl, hwanted⟩
      · rintro (⟨h, -⟩ | ⟨h, -⟩)
        · exact h
        · exact absurd h hsome
    · have hany : (gateways.any fun g => g.nodeId = wanted) = false := by simpa using hwanted
      have hnone : ∀ g ∈ gateways, some wanted ≠ some g.nodeId := fun g hg h =>
        hwanted ⟨g, hg, (Option.some.inj h).symm⟩
      rw [Option.filter_some, if_neg (Bool.not_eq_true _ ▸ hany), Option.none_or]
      constructor
      · exact fun h => .inr ⟨hnone, h⟩
      · rintro (⟨h, hg⟩ | ⟨-, h⟩)
        · exact absurd (Option.some.inj h ▸ hg) hwanted
        · exact h

end Client

/-! ## The nodes' side -/

section Node

variable {displayAddr : SocketAddr → String} {peers : List NodeRecord}
  {healthByNode : TreeMap NodeId NodeHealth}
  {selections : TreeMap NodeId ClientGatewaySelection} {policy : ClusterPolicy} {now : Timestamp}
  {client node visible gateway : NodeRecord}

lemma mem_selectClientGateways {nodes : List NodeRecord}
    (h : gateway ∈ selectClientGateways displayAddr healthByNode now policy nodes) :
    gateway ∈ nodes ∧ gateway.role.isClient = false := by
  obtain ⟨ranked, hranked, rfl⟩ := mem_map.mp h
  have hsorted := mem_of_mem_take hranked
  obtain ⟨node, hnode, hrank⟩ := mem_filterMap.mp ((mem_insertionSort _).mp hsorted)
  rw [rankClientGateway] at hrank
  split_ifs at hrank with hclient
  obtain ⟨score, -, rfl⟩ := Option.map_eq_some_iff.mp hrank
  exact ⟨hnode, Bool.not_eq_true _ ▸ hclient⟩

lemma selectedGateway_mem {clientId gatewayId : NodeId}
    (h : selectedGateway displayAddr peers healthByNode selections policy now clientId =
      some gatewayId) : gatewayId ∈ gatewayIds displayAddr peers healthByNode policy now := by
  rcases Option.or_eq_some_iff.mp h with h | ⟨-, h⟩
  · exact of_decide_eq_true (Option.filter_eq_some_iff.mp h).2
  · exact mem_of_mem_head? h

lemma selectedGateway_eq_iff {clientId : NodeId} {stored : Option NodeId}
    (hstored : selections[clientId]?.map ClientGatewaySelection.gatewayNodeId = stored) :
    selectedGateway displayAddr peers healthByNode selections policy now clientId = stored ↔
      (stored = none ∧ gatewayIds displayAddr peers healthByNode policy now = []) ∨
      ∃ g ∈ gatewayIds displayAddr peers healthByNode policy now, stored = some g := by
  rw [selectedGateway, hstored]
  generalize gatewayIds displayAddr peers healthByNode policy now = ids
  cases stored with
  | none => simp
  | some g =>
    by_cases hmem : g ∈ ids
    · simp [Option.filter_some_pos, hmem]
    · -- the fallback is in the list, so it is another gateway
      have hhead : ids.head? ≠ some g := fun h => hmem (mem_of_mem_head? h)
      simp [Option.filter_some_neg, hmem, hhead]

lemma nodeId_of_visibleClients {id : NodeId} (h : (visibleClients peers policy node)[id]? = some visible) :
    visible.nodeId = id := by
  obtain ⟨other, -, hmap⟩ := mem_filterMap.mp (mem_of_getElem?_ofList h)
  obtain ⟨record, -, hpair⟩ := Option.map_eq_some_iff.mp hmap
  obtain ⟨hkey, rfl⟩ := Prod.mk.inj hpair
  exact hkey

lemma nodeId_clientEntry {peer entry : NodeRecord}
    (h : clientEntry displayAddr peers healthByNode selections policy now node peer = some entry) :
    entry.nodeId = peer.nodeId := by
  rw [clientEntry] at h
  split_ifs at h
  obtain ⟨found, hfound, rfl⟩ := Option.map_eq_some_iff.mp h
  show found.nodeId = peer.nodeId
  exact nodeId_of_visibleClients hfound

lemma nodeId_nodeEntry {peer entry : NodeRecord}
    (h : nodeEntry displayAddr peers healthByNode selections policy now node peer = some entry) :
    entry.nodeId = peer.nodeId := by
  obtain ⟨found, hfound, rfl⟩ := Option.map_eq_some_iff.mp h
  obtain ⟨routes, rfl⟩ := aclFilterPeer_eq_some hfound
  dsimp only [filterServedEndpointCandidates]
  split <;> rfl

lemma nodeId_of_visible (h : aclFilterPeer node client policy = some visible) :
    visible.nodeId = client.nodeId := by
  obtain ⟨routes, rfl⟩ := aclFilterPeer_eq_some h
  rfl

lemma cidr_of_visible {gateway : NodeId} (h : aclFilterPeer node client policy = some visible) :
    (gatewayRouteForClient gateway visible).cidr = vpnHostCidr client.vpnIp := by
  obtain ⟨routes, rfl⟩ := aclFilterPeer_eq_some h
  rfl

lemma exists_clientRoutesByGateway {route : Route}
    (h : route ∈ clientRoutes displayAddr peers healthByNode selections policy now node) :
    ∃ routes, (clientRoutesByGateway displayAddr peers healthByNode selections policy now
      node)[route.advertisedBy]? = some routes ∧ route ∈ routes := by
  have hmem : route ∈ (clientRoutesByGateway displayAddr peers healthByNode selections policy now
      node).getD route.advertisedBy [] :=
    (mem_getD_grouped Route.advertisedBy _ _).mpr (.inr ⟨h, rfl⟩)
  rw [TreeMap.getD_eq_getD_getElem?] at hmem
  cases hroutes : (clientRoutesByGateway displayAddr peers healthByNode selections policy now
      node)[route.advertisedBy]? with
  | none =>
    rw [hroutes] at hmem
    cases hmem
  | some routes =>
    rw [hroutes] at hmem
    exact ⟨routes, rfl, hmem⟩

section Visible

variable (hnodup : (peers.map NodeRecord.nodeId).Nodup) (hclient : client ∈ peers)
  (hrole : client.role.isClient = true) (hvisible : aclFilterPeer node client policy = some visible)

include hnodup hclient hrole hvisible

lemma getElem?_visibleClients : (visibleClients peers policy node)[client.nodeId]? = some visible := by
  have hid : visible.nodeId = client.nodeId := nodeId_of_visible hvisible
  have hlisted : (client.nodeId, visible) ∈ (peers.filter fun peer => peer.role.isClient).filterMap
      fun client => (aclFilterPeer node client policy).map fun visible => (visible.nodeId, visible) :=
    mem_filterMap.mpr ⟨client, mem_filter.mpr ⟨hclient, hrole⟩, by rw [hvisible, ← hid]; rfl⟩
  obtain ⟨found, hfound, hmem⟩ := exists_getElem?_ofList hlisted
  obtain ⟨other, hother, hmap⟩ := mem_filterMap.mp hmem
  obtain ⟨record, hrecord, hpair⟩ := Option.map_eq_some_iff.mp hmap
  obtain ⟨hkey, rfl⟩ := Prod.mk.inj hpair
  -- node ids are distinct, so the entry comes from the client itself
  obtain rfl : other = client := inj_on_of_nodup_map hnodup (mem_filter.mp hother).1 hclient
    ((nodeId_of_visible hrecord).symm.trans hkey)
  rw [hrecord] at hvisible
  rw [visibleClients, hfound, hvisible]

lemma getElem?_selectedGatewayByClient :
    (selectedGatewayByClient displayAddr peers healthByNode selections policy now
      node)[client.nodeId]? =
      selectedGateway displayAddr peers healthByNode selections policy now client.nodeId := by
  have hid : visible.nodeId = client.nodeId := nodeId_of_visible hvisible
  have hvalue : visible ∈ (visibleClients peers policy node).values :=
    mem_values.mpr ⟨_, getElem?_visibleClients hnodup hclient hrole hvisible⟩
  have hlisted : ∀ g, (client.nodeId, g) ∈ (visibleClients peers policy node).values.filterMap
      (fun client => (selectedGateway displayAddr peers healthByNode selections policy now
        client.nodeId).map fun gateway => (client.nodeId, gateway)) ↔
      selectedGateway displayAddr peers healthByNode selections policy now client.nodeId = some g := by
    intro g
    rw [mem_filterMap]
    constructor
    · rintro ⟨other, -, hmap⟩
      obtain ⟨found, hfound, hpair⟩ := Option.map_eq_some_iff.mp hmap
      obtain ⟨hkey, rfl⟩ := Prod.mk.inj hpair
      rw [← hkey, hfound]
    · intro hselected
      exact ⟨visible, hvalue, by rw [hid, hselected]; rfl⟩
  refine Option.ext fun g => ⟨fun h => (hlisted g).mp (mem_of_getElem?_ofList h), fun h => ?_⟩
  obtain ⟨found, hfound, hmem⟩ := exists_getElem?_ofList ((hlisted g).mpr h)
  rw [selectedGatewayByClient, hfound, ← (hlisted found).mp hmem]
  exact h

lemma listed_iff (hnode : node ∈ peers) (hnodeRole : node.role.isClient = false) :
    (∃ entry ∈ nodePeerMapWithClients displayAddr peers healthByNode selections policy now node,
      entry.nodeId = client.nodeId) ↔
    selectedGateway displayAddr peers healthByNode selections policy now client.nodeId =
      some node.nodeId := by
  have hne : client.nodeId ≠ node.nodeId := by
    intro heq
    rw [inj_on_of_nodup_map hnodup hclient hnode heq, hnodeRole] at hrole
    cases hrole
  rw [← getElem?_selectedGatewayByClient hnodup hclient hrole hvisible]
  constructor
  · rintro ⟨entry, hentry, hid⟩
    obtain ⟨peer, hpeer, hmap⟩ := mem_filterMap.mp hentry
    have hpeerId : entry.nodeId = peer.nodeId := by
      split_ifs at hmap
      · exact nodeId_clientEntry hmap
      · exact nodeId_nodeEntry hmap
    obtain rfl : peer = client := inj_on_of_nodup_map hnodup (mem_filter.mp hpeer).1 hclient
      (hpeerId.symm.trans hid)
    rw [if_pos hrole, clientEntry] at hmap
    split_ifs at hmap with hgateway
    exact not_not.mp hgateway
  · intro hgateway
    refine ⟨filterServedEndpointCandidates now policy visible, ?_, ?_⟩
    · refine mem_filterMap.mpr ⟨client, mem_filter.mpr ⟨hclient, decide_eq_true hne⟩, ?_⟩
      rw [if_pos hrole, clientEntry, if_neg (not_not.mpr hgateway),
        getElem?_visibleClients hnodup hclient hrole hvisible]
      rfl
    · change visible.nodeId = client.nodeId
      exact nodeId_of_visible hvisible

lemma routed_of_selected (hgateway : gateway ∈ peers)
    (hselected : selectedGateway displayAddr peers healthByNode selections policy now client.nodeId =
      some gateway.nodeId) (hne : gateway.nodeId ≠ node.nodeId) {seen : NodeRecord}
    (hseen : aclFilterPeer node gateway policy = some seen) :
    ∃ entry ∈ nodePeerMapWithClients displayAddr peers healthByNode selections policy now node,
      entry.nodeId = gateway.nodeId ∧ ∃ route ∈ entry.routes, route.cidr = vpnHostCidr client.vpnIp := by
  have hgatewayRole : gateway.role.isClient = false := by
    obtain ⟨other, hother, hid⟩ := mem_map.mp (selectedGateway_mem hselected)
    obtain ⟨hpeer, hotherRole⟩ := mem_selectClientGateways hother
    rwa [inj_on_of_nodup_map hnodup hpeer hgateway hid] at hotherRole
  have hroute : gatewayRouteForClient gateway.nodeId visible ∈
      clientRoutes displayAddr peers healthByNode selections policy now node := by
    refine mem_filterMap.mpr
      ⟨visible, mem_values.mpr ⟨_, getElem?_visibleClients hnodup hclient hrole hvisible⟩, ?_⟩
    rw [nodeId_of_visibleClients (getElem?_visibleClients hnodup hclient hrole hvisible),
      getElem?_selectedGatewayByClient hnodup hclient hrole hvisible, hselected]
    exact if_neg hne
  obtain ⟨routes, hroutes, hmem⟩ := exists_clientRoutesByGateway hroute
  have hseenId : seen.nodeId = gateway.nodeId := nodeId_of_visible hseen
  obtain ⟨kept, hkept, hkeptCidr⟩ := exists_preferred (keyed_routesByCidr seen.routes) hmem
  refine ⟨filterServedEndpointCandidates now policy { seen with
    routes := (routes.foldl insertPreferredGatewayRoute (routesByCidr seen.routes)).values },
    mem_filterMap.mpr ⟨gateway, mem_filter.mpr ⟨hgateway, decide_eq_true hne⟩, ?_⟩,
    hseenId, kept, hkept, hkeptCidr.trans (cidr_of_visible hvisible)⟩
  rw [if_neg (Bool.eq_false_iff.mp hgatewayRole), nodeEntry, hseen, Option.map_some, hseenId]
  rw [show (clientRoutesByGateway displayAddr peers healthByNode selections policy now
    node)[gateway.nodeId]? = some routes from hroutes]

end Visible

end Node

/-! ## Agreement -/

/-- Through which gateway a node reaches a client, whether it is the gateway itself, and otherwise that the
gateway, if the node may see it, has a route to the client. -/
structure Reaches (displayAddr : SocketAddr → String) (peers : List NodeRecord)
    (healthByNode : TreeMap NodeId NodeHealth)
    (selections : TreeMap NodeId ClientGatewaySelection) (policy : ClusterPolicy) (now : Timestamp)
    (node client : NodeRecord) (first : Option NodeId) : Prop where
  selected : (selectedGatewayByClient displayAddr peers healthByNode selections policy now
    node)[client.nodeId]? = first
  listed : (∃ entry ∈ nodePeerMapWithClients displayAddr peers healthByNode selections policy now node,
    entry.nodeId = client.nodeId) ↔ first = some node.nodeId
  routed : ∀ gateway ∈ peers, first = some gateway.nodeId → gateway.nodeId ≠ node.nodeId →
    (aclFilterPeer node gateway policy).isSome →
    ∃ entry ∈ nodePeerMapWithClients displayAddr peers healthByNode selections policy now node,
      entry.nodeId = gateway.nodeId ∧ ∃ route ∈ entry.routes, route.cidr = vpnHostCidr client.vpnIp

section Agreement

variable (displayAddr : SocketAddr → String) (peers : List NodeRecord)
  (healthByNode : TreeMap NodeId NodeHealth)
  (selections : TreeMap NodeId ClientGatewaySelection) (policy : ClusterPolicy) (now : Timestamp)
  (client : NodeRecord) (requested : Option NodeId)

end Agreement

namespace SampleGateways

def node (id : String) (tags : Finset Tag) : NodeRecord :=
  { sampleNode with
    nodeId := ⟨id⟩
    tags := tags
    endpointCandidates := [⟨⟨id⟩, .publicUdp, .v4 0x08080808#32 51820, 0, 0, 0, .interfaceScan⟩] }

def client : NodeRecord :=
  { sampleNode with nodeId := ⟨"phone"⟩, role := ⟨"client"⟩, vpnIp := .v4 0x0a000009#32 }

def peers : List NodeRecord :=
  [node "a" ∅, node "b" ∅, node "c" ∅, node "d" ∅, node "e" {⟨"blue"⟩}, client]

def rules : List AclRule :=
  [{ SampleAcl.rule .allow [] with fromRoles := {⟨"client"⟩}, toTags := {⟨"blue"⟩} },
    { SampleAcl.rule .allow [] with fromRoles := {⟨"node"⟩} }]

def selections (rules : List AclRule) : TreeMap NodeId ClientGatewaySelection :=
  (updateClientGatewaySelection (fun _ => "") peers ∅ ∅ (SampleAcl.policy rules) 0 client none).1

end SampleGateways

end ControlPlane

end HeteroNetwork
