import HeteroNetwork.ControlPlane.ClientGateways

/-!
# Two ways to tell a node about clients

The peer map of a node lists all its peers, with the clients it serves among them and the routes to the
others merged into those of their gateways.  The projection beside a neighbour map lists only the clients it
serves and one record for each gateway.  `Served` is what both compute of a client.
-/

namespace HeteroNetwork

open OrderedMap Std List

namespace ControlPlane

/-! ## The projection -/

section Projection

variable (displayAddr : SocketAddr → String) (healthByNode : TreeMap NodeId NodeHealth)
  (selections : TreeMap NodeId ClientGatewaySelection) (policy : ClusterPolicy) (now : Timestamp)

structure ClientForms where
  directClients : List NodeRecord
  routesByGateway : TreeMap NodeId (TreeMap IpNet Route)

/-- One turn of the loop; `gateway` is the selected gateway. -/
def ClientForms.add (source : NodeRecord) (forms : ClientForms) (client : NodeRecord) :
    Option NodeId → ClientForms
  | none => forms
  | some gateway =>
    if gateway = source.nodeId then
      { forms with
        directClients := forms.directClients ++ [filterServedEndpointCandidates now policy client] }
    else
      { forms with
        routesByGateway := forms.routesByGateway.insert gateway
          (insertPreferredGatewayRoute (forms.routesByGateway.getD gateway ∅)
            (gatewayRouteForClient gateway client)) }

def clientForms (source : NodeRecord) (backboneNodes visibleClients : List NodeRecord) : ClientForms :=
  visibleClients.foldl (fun forms client => forms.add policy now source client
    (selectedGateway displayAddr backboneNodes healthByNode selections policy now client.nodeId)) ⟨[], ∅⟩

def projectedGateway (source : NodeRecord) (gatewaysById : TreeMap NodeId NodeRecord)
    (entry : NodeId × TreeMap IpNet Route) : Option NodeRecord := do
  let gateway ← gatewaysById[entry.1]?
  let visible ← aclFilterPeer source gateway policy
  return filterServedEndpointCandidates now policy { visible with routes := entry.2.values }

def nodeClientRouteProjection (source : NodeRecord) (backboneNodes clients : List NodeRecord) :
    List NodeRecord :=
  if clients.isEmpty then []
  else
    let gateways := selectClientGateways displayAddr healthByNode now policy backboneNodes
    let gatewaysById : TreeMap NodeId NodeRecord := .ofList (gateways.map fun gateway => (gateway.nodeId, gateway))
    let forms := clientForms displayAddr healthByNode selections policy now source backboneNodes
      (clients.filterMap fun client => aclFilterPeer source client policy)
    let projection := forms.directClients ++
      forms.routesByGateway.toList.filterMap (projectedGateway policy now source gatewaysById)
    projection.insertionSort fun left right => left.nodeId ≤ right.nodeId

end Projection

section Preferred

variable {offered : List Route} {routes : TreeMap IpNet Route} {route : Route}

lemma mem_of_preferred (h : route ∈ (offered.foldl insertPreferredGatewayRoute routes).values) :
    route ∈ routes.values ∨ route ∈ offered := by
  induction offered generalizing routes with
  | nil => exact .inl h
  | cons first rest ih =>
    obtain hkept | hrest := ih h
    · rw [insertPreferredGatewayRoute] at hkept
      split_ifs at hkept
      · obtain ⟨cidr, hget⟩ := mem_values.mp hkept
        by_cases hcidr : first.cidr = cidr
        · subst hcidr
          rw [TreeMap.getElem?_insert_self] at hget
          exact .inr (mem_cons.mpr (.inl (Option.some.inj hget).symm))
        · rw [getElem?_insert_ne hcidr] at hget
          exact .inl (mem_values.mpr ⟨cidr, hget⟩)
      · exact .inl hkept
    · exact .inr (mem_cons_of_mem _ hrest)

lemma mem_of_mem_routesByCidr {own : List Route} (h : route ∈ (routesByCidr own).values) : route ∈ own := by
  obtain ⟨cidr, hget⟩ := mem_values.mp h
  obtain ⟨listed, hlisted, hpair⟩ := mem_map.mp (mem_of_getElem?_ofList hget)
  rw [← (Prod.mk.inj hpair).2]
  exact hlisted

lemma mem_preferred_iff {cidr : IpNet} (hkeyed : Keyed routes)
    (hroutes : ∀ kept ∈ routes.values, kept.cidr ≠ cidr)
    (hoffered : ∀ first ∈ offered, ∀ second ∈ offered, first.cidr = cidr → second.cidr = cidr →
      first = second) (hcidr : route.cidr = cidr) :
    route ∈ (offered.foldl insertPreferredGatewayRoute routes).values ↔ route ∈ offered := by
  constructor
  · intro h
    exact (mem_of_preferred h).resolve_left fun hkept => hroutes route hkept hcidr
  · intro h
    obtain ⟨kept, hkept, hsame⟩ := exists_preferred hkeyed h
    have hkeptCidr : kept.cidr = cidr := hsame.trans hcidr
    have hmem := (mem_of_preferred hkept).resolve_left fun hold => hroutes kept hold hkeptCidr
    rwa [← hoffered kept hmem route h hkeptCidr hcidr]

end Preferred

section Forms

variable {policy : ClusterPolicy} {now : Timestamp} {source : NodeRecord} (select : NodeId → Option NodeId)

def offeredRoutes (source : NodeRecord) (gateway : NodeId) (visibleClients : List NodeRecord) : List Route :=
  visibleClients.filterMap fun client =>
    if select client.nodeId = some gateway ∧ gateway ≠ source.nodeId then
      some (gatewayRouteForClient gateway client)
    else none

lemma mem_directClients {entry : NodeRecord} (visibleClients : List NodeRecord) (forms : ClientForms) :
    entry ∈ (visibleClients.foldl (fun forms client =>
      forms.add policy now source client (select client.nodeId)) forms).directClients ↔
    entry ∈ forms.directClients ∨ ∃ client ∈ visibleClients, select client.nodeId = some source.nodeId ∧
      entry = filterServedEndpointCandidates now policy client := by
  induction visibleClients generalizing forms with
  | nil => simp
  | cons client rest ih =>
    rw [foldl_cons, ih, exists_mem_cons_iff, ← or_assoc]
    refine or_congr_left ?_
    cases hselect : select client.nodeId with
    | none => simp [ClientForms.add]
    | some gateway =>
      by_cases hsource : gateway = source.nodeId
      · simp [ClientForms.add, hsource]
      · simp [ClientForms.add, hsource]

lemma getD_add {gateway : NodeId} {selected : Option NodeId} {client : NodeRecord} {forms : ClientForms} :
    (forms.add policy now source client selected).routesByGateway.getD gateway ∅ =
      if selected = some gateway ∧ gateway ≠ source.nodeId then
        insertPreferredGatewayRoute (forms.routesByGateway.getD gateway ∅) (gatewayRouteForClient gateway client)
      else forms.routesByGateway.getD gateway ∅ := by
  cases selected with
  | none =>
    rw [if_neg fun h => nomatch h.1]
    rfl
  | some other =>
    rw [ClientForms.add]
    by_cases hsource : other = source.nodeId
    · rw [if_pos hsource, if_neg]
      rintro ⟨hother, hne⟩
      exact hne (Option.some.inj hother ▸ hsource)
    · rw [if_neg hsource]
      by_cases hother : other = gateway
      · subst hother
        rw [if_pos ⟨rfl, hsource⟩, TreeMap.getD_insert_self]
      · rw [if_neg fun h => hother (Option.some.inj h.1), TreeMap.getD_insert,
          if_neg fun h => hother (LawfulEqOrd.eq_of_compare h)]

lemma getD_routesByGateway (gateway : NodeId) (visibleClients : List NodeRecord) (forms : ClientForms) :
    (visibleClients.foldl (fun forms client =>
      forms.add policy now source client (select client.nodeId)) forms).routesByGateway.getD gateway ∅ =
    (offeredRoutes select source gateway visibleClients).foldl insertPreferredGatewayRoute
      (forms.routesByGateway.getD gateway ∅) := by
  induction visibleClients generalizing forms with
  | nil => rfl
  | cons client rest ih =>
    rw [foldl_cons, ih, getD_add, offeredRoutes, offeredRoutes, filterMap_cons]
    split_ifs
    · rfl
    · rfl

end Forms

/-! ## Clients and their gateways -/

section Served

variable {displayAddr : SocketAddr → String} {peers : List NodeRecord}
  {healthByNode : TreeMap NodeId NodeHealth}
  {selections : TreeMap NodeId ClientGatewaySelection} {policy : ClusterPolicy} {now : Timestamp}
  {source client visible : NodeRecord} {gateway : NodeId} {route : Route}

/-- A client that the source may see, and the gateway through which it is reached. -/
structure Served (displayAddr : SocketAddr → String) (peers : List NodeRecord)
    (healthByNode : TreeMap NodeId NodeHealth)
    (selections : TreeMap NodeId ClientGatewaySelection) (policy : ClusterPolicy) (now : Timestamp)
    (source client visible : NodeRecord) (gateway : NodeId) : Prop where
  member : client ∈ peers
  role : client.role.isClient = true
  visible : aclFilterPeer source client policy = some visible
  selected : selectedGateway displayAddr peers healthByNode selections policy now client.nodeId = some gateway

def Offers (displayAddr : SocketAddr → String) (peers : List NodeRecord)
    (healthByNode : TreeMap NodeId NodeHealth)
    (selections : TreeMap NodeId ClientGatewaySelection) (policy : ClusterPolicy) (now : Timestamp)
    (source : NodeRecord) (gateway : NodeId) (route : Route) : Prop :=
  gateway ≠ source.nodeId ∧ ∃ client visible,
    Served displayAddr peers healthByNode selections policy now source client visible gateway ∧
      route = gatewayRouteForClient gateway visible

lemma role_of_visible (h : aclFilterPeer source client policy = some visible) :
    visible.role = client.role := by
  obtain ⟨routes, rfl⟩ := aclFilterPeer_eq_some h
  rfl

lemma routes_of_visible (h : aclFilterPeer source client policy = some visible) (hroute : route ∈ visible.routes) :
    route ∈ client.routes := by
  rw [aclFilterPeer] at h
  dsimp only at h
  split_ifs at h
  · obtain rfl := Option.some.inj h
    exact hroute
  · obtain rfl := Option.some.inj h
    exact mem_of_mem_filter hroute

lemma vpnHostCidr_injective : Function.Injective vpnHostCidr := by
  rintro (ip | ip) (ip' | ip') h
  · cases h
    rfl
  · cases h
  · cases h
  · cases h
    rfl

lemma selectClientGateways_backbone :
    selectClientGateways displayAddr healthByNode now policy (peers.filter fun peer => !peer.role.isClient) =
      selectClientGateways displayAddr healthByNode now policy peers := by
  rw [selectClientGateways, filterMap_filter, selectClientGateways]
  refine congrArg (fun ranked : List RankedGateway => ((ranked.insertionSort fun left right =>
    left.1 ≤ right.1).take maxClientGateways).map Prod.snd) (filterMap_congr fun peer _ => ?_)
  cases hrole : peer.role.isClient with
  | false => rfl
  | true =>
    rw [rankClientGateway, if_pos hrole]
    rfl

lemma selectedGateway_backbone :
    selectedGateway displayAddr (peers.filter fun peer => !peer.role.isClient) healthByNode selections policy
      now = selectedGateway displayAddr peers healthByNode selections policy now := by
  funext clientId
  rw [selectedGateway, gatewayIds, selectClientGateways_backbone, selectedGateway, gatewayIds]

lemma exists_gateway {clientId : NodeId}
    (h : selectedGateway displayAddr peers healthByNode selections policy now clientId = some gateway) :
    ∃ node ∈ selectClientGateways displayAddr healthByNode now policy peers, node.nodeId = gateway :=
  mem_map.mp (selectedGateway_mem h)

/-! ### In the peer map -/

section

variable (hnodup : (peers.map NodeRecord.nodeId).Nodup)
include hnodup

lemma mem_clientRoutes :
    route ∈ clientRoutes displayAddr peers healthByNode selections policy now source ↔
      Offers displayAddr peers healthByNode selections policy now source route.advertisedBy route := by
  constructor
  · intro h
    obtain ⟨visible, hvalue, hroute⟩ := mem_filterMap.mp h
    obtain ⟨id, hget⟩ := mem_values.mp hvalue
    obtain ⟨client, hclient, hmap⟩ := mem_filterMap.mp (mem_of_getElem?_ofList hget)
    obtain ⟨found, hvisible, hpair⟩ := Option.map_eq_some_iff.mp hmap
    obtain ⟨-, rfl⟩ := Prod.mk.inj hpair
    obtain ⟨hmember, hrole⟩ := mem_filter.mp hclient
    rw [nodeId_of_visible hvisible, getElem?_selectedGatewayByClient hnodup hmember hrole hvisible] at hroute
    split at hroute
    · cases hroute
    · next gateway hselected =>
        split_ifs at hroute with hsource
        obtain rfl := Option.some.inj hroute
        exact ⟨hsource, client, found, ⟨hmember, hrole, hvisible, hselected⟩, rfl⟩
  · rintro ⟨hsource, client, visible, hserved, hroute⟩
    refine mem_filterMap.mpr ⟨visible, mem_values.mpr
      ⟨_, getElem?_visibleClients hnodup hserved.member hserved.role hserved.visible⟩, ?_⟩
    rw [nodeId_of_visible hserved.visible,
      getElem?_selectedGatewayByClient hnodup hserved.member hserved.role hserved.visible, hserved.selected]
    dsimp only
    rw [if_neg hsource, ← hroute]

lemma mem_clientRoutesByGateway :
    route ∈ (clientRoutesByGateway displayAddr peers healthByNode selections policy now source).getD gateway [] ↔
      Offers displayAddr peers healthByNode selections policy now source gateway route := by
  rw [clientRoutesByGateway, mem_getD_grouped Route.advertisedBy, mem_clientRoutes hnodup]
  constructor
  · rintro (h | ⟨h, rfl⟩)
    · cases h
    · exact h
  · intro h
    right
    have hgateway : route.advertisedBy = gateway := by
      obtain ⟨-, client, visible, -, rfl⟩ := h
      rfl
    rw [hgateway]
    exact ⟨h, rfl⟩

lemma visible_of_getElem? (hmember : client ∈ peers)
    (h : (visibleClients peers policy source)[client.nodeId]? = some visible) :
    aclFilterPeer source client policy = some visible := by
  obtain ⟨other, hother, hmap⟩ := mem_filterMap.mp (mem_of_getElem?_ofList h)
  obtain ⟨found, hvisible, hpair⟩ := Option.map_eq_some_iff.mp hmap
  obtain ⟨hid, rfl⟩ := Prod.mk.inj hpair
  obtain rfl : other = client := inj_on_of_nodup_map hnodup (mem_filter.mp hother).1 hmember
    ((nodeId_of_visible hvisible).symm.trans hid)
  exact hvisible

lemma Served.ne_gateway
    (h : Served displayAddr peers healthByNode selections policy now source client visible gateway) :
    client.nodeId ≠ gateway := by
  obtain ⟨node, hnode, rfl⟩ := exists_gateway h.selected
  obtain ⟨hpeer, hrole⟩ := mem_selectClientGateways hnode
  intro hid
  rw [← inj_on_of_nodup_map hnodup h.member hpeer hid, h.role] at hrole
  cases hrole

end

variable {entry : NodeRecord}

lemma clientEntry_eq_some {peer : NodeRecord} (hnodup : (peers.map NodeRecord.nodeId).Nodup)
    (hmember : peer ∈ peers) (hrole : peer.role.isClient = true) :
    clientEntry displayAddr peers healthByNode selections policy now source peer = some entry ↔
      ∃ visible, Served displayAddr peers healthByNode selections policy now source peer visible
        source.nodeId ∧ entry = filterServedEndpointCandidates now policy visible := by
  rw [clientEntry]
  constructor
  · intro h
    split_ifs at h with hgateway
    obtain ⟨visible, hget, rfl⟩ := Option.map_eq_some_iff.mp h
    have hvisible := visible_of_getElem? hnodup hmember hget
    rw [not_not, getElem?_selectedGatewayByClient hnodup hmember hrole hvisible] at hgateway
    exact ⟨visible, ⟨hmember, hrole, hvisible, hgateway⟩, rfl⟩
  · rintro ⟨visible, hserved, rfl⟩
    rw [getElem?_selectedGatewayByClient hnodup hmember hrole hserved.visible, hserved.selected,
      if_neg (not_not.mpr rfl), getElem?_visibleClients hnodup hmember hrole hserved.visible]
    rfl

lemma role_nodeEntry {peer : NodeRecord}
    (h : nodeEntry displayAddr peers healthByNode selections policy now source peer = some entry) :
    entry.role = peer.role := by
  obtain ⟨visible, hvisible, rfl⟩ := Option.map_eq_some_iff.mp h
  rw [← role_of_visible hvisible]
  dsimp only [filterServedEndpointCandidates]
  split <;> rfl

lemma direct_peerMap (hnodup : (peers.map NodeRecord.nodeId).Nodup) :
    entry ∈ nodePeerMapWithClients displayAddr peers healthByNode selections policy now source ∧
        entry.role.isClient = true ↔
      ∃ client visible, Served displayAddr peers healthByNode selections policy now source client visible
        source.nodeId ∧ entry = filterServedEndpointCandidates now policy visible := by
  constructor
  · rintro ⟨hentry, hrole⟩
    obtain ⟨peer, hpeer, hmap⟩ := mem_filterMap.mp hentry
    split_ifs at hmap with hclient
    · exact ⟨peer, (clientEntry_eq_some hnodup (mem_filter.mp hpeer).1 hclient).mp hmap⟩
    · rw [role_nodeEntry hmap] at hrole
      exact absurd hrole hclient
  · rintro ⟨client, visible, hserved, rfl⟩
    refine ⟨mem_filterMap.mpr ⟨client, mem_filter.mpr
      ⟨hserved.member, decide_eq_true (hserved.ne_gateway hnodup)⟩, ?_⟩, ?_⟩
    · rw [if_pos hserved.role]
      exact (clientEntry_eq_some hnodup hserved.member hserved.role).mpr ⟨visible, hserved, rfl⟩
    · change visible.role.isClient = true
      rw [role_of_visible hserved.visible, hserved.role]

/-! ### In the projection -/

def clusterProjection (displayAddr : SocketAddr → String) (peers : List NodeRecord)
    (healthByNode : TreeMap NodeId NodeHealth)
    (selections : TreeMap NodeId ClientGatewaySelection) (policy : ClusterPolicy) (now : Timestamp)
    (source : NodeRecord) : List NodeRecord :=
  nodeClientRouteProjection displayAddr healthByNode selections policy now source
    (peers.filter fun peer => !peer.role.isClient) (peers.filter fun peer => peer.role.isClient)

/-- The clients that the source may see, as the loop visits them. -/
def seenClients (peers : List NodeRecord) (policy : ClusterPolicy) (source : NodeRecord) : List NodeRecord :=
  (peers.filter fun peer => peer.role.isClient).filterMap fun client => aclFilterPeer source client policy

section Cluster

variable (displayAddr peers healthByNode selections policy now source)

def clusterForms : ClientForms :=
  clientForms displayAddr healthByNode selections policy now source peers (seenClients peers policy source)

def clusterGateways : TreeMap NodeId NodeRecord :=
  .ofList ((selectClientGateways displayAddr healthByNode now policy peers).map fun gateway =>
    (gateway.nodeId, gateway))

end Cluster

lemma mem_clusterProjection :
    entry ∈ clusterProjection displayAddr peers healthByNode selections policy now source ↔
      entry ∈ (clusterForms displayAddr peers healthByNode selections policy now source).directClients ∨
      ∃ (id : NodeId) (routes : TreeMap IpNet Route),
        (clusterForms displayAddr peers healthByNode selections policy now source).routesByGateway[id]? =
          some routes ∧
        projectedGateway policy now source (clusterGateways displayAddr peers healthByNode policy now)
          (id, routes) = some entry := by
  have hforms : clientForms displayAddr healthByNode selections policy now source
      (peers.filter fun peer => !peer.role.isClient) ((peers.filter fun peer => peer.role.isClient).filterMap
        fun client => aclFilterPeer source client policy) =
      clusterForms displayAddr peers healthByNode selections policy now source := by
    rw [clusterForms, clientForms, selectedGateway_backbone, clientForms, seenClients]
  rw [clusterProjection, nodeClientRouteProjection]
  split_ifs with hempty
  · -- without clients the loop collects nothing
    rw [List.isEmpty_iff] at hempty
    rw [clusterForms, seenClients, hempty]
    simp [clientForms]
  · rw [mem_insertionSort, mem_append, mem_filterMap, selectClientGateways_backbone, hforms,
      Prod.exists]
    simp only [TreeMap.mem_toList_iff_getElem?_eq_some]
    rfl

lemma mem_seenClients : visible ∈ seenClients peers policy source ↔
    ∃ client ∈ peers, client.role.isClient = true ∧ aclFilterPeer source client policy = some visible := by
  simp only [seenClients, mem_filterMap, mem_filter, and_assoc]

lemma mem_offeredRoutes :
    route ∈ offeredRoutes (selectedGateway displayAddr peers healthByNode selections policy now) source gateway
        (seenClients peers policy source) ↔
      Offers displayAddr peers healthByNode selections policy now source gateway route := by
  rw [offeredRoutes, mem_filterMap]
  constructor
  · rintro ⟨visible, hseen, hroute⟩
    obtain ⟨client, hmember, hrole, hvisible⟩ := mem_seenClients.mp hseen
    split_ifs at hroute with hselected
    rw [nodeId_of_visible hvisible] at hselected
    exact ⟨hselected.2, client, visible, ⟨hmember, hrole, hvisible, hselected.1⟩, (Option.some.inj hroute).symm⟩
  · rintro ⟨hsource, client, visible, hserved, rfl⟩
    refine ⟨visible, mem_seenClients.mpr ⟨client, hserved.member, hserved.role, hserved.visible⟩, ?_⟩
    rw [if_pos ⟨(nodeId_of_visible hserved.visible).symm ▸ hserved.selected, hsource⟩]

lemma mem_directClients_cluster :
    entry ∈ (clusterForms displayAddr peers healthByNode selections policy now source).directClients ↔
      ∃ client visible, Served displayAddr peers healthByNode selections policy now source client visible
        source.nodeId ∧ entry = filterServedEndpointCandidates now policy visible := by
  rw [clusterForms, clientForms, mem_directClients]
  constructor
  · rintro (h | ⟨visible, hseen, hselected, rfl⟩)
    · cases h
    · obtain ⟨client, hmember, hrole, hvisible⟩ := mem_seenClients.mp hseen
      rw [nodeId_of_visible hvisible] at hselected
      exact ⟨client, visible, ⟨hmember, hrole, hvisible, hselected⟩, rfl⟩
  · rintro ⟨client, visible, hserved, rfl⟩
    refine .inr ⟨visible, mem_seenClients.mpr ⟨client, hserved.member, hserved.role, hserved.visible⟩, ?_, rfl⟩
    rw [nodeId_of_visible hserved.visible]
    exact hserved.selected

lemma projectedGateway_eq_some {routes : TreeMap IpNet Route}
    (h : projectedGateway policy now source (clusterGateways displayAddr peers healthByNode policy now)
      (gateway, routes) = some entry) :
    ∃ node ∈ peers, node.role.isClient = false ∧ node.nodeId = gateway ∧ ∃ visible,
      aclFilterPeer source node policy = some visible ∧
      entry = filterServedEndpointCandidates now policy { visible with routes := routes.values } := by
  obtain ⟨node, hnode, hseen⟩ := Option.bind_eq_some_iff.mp h
  obtain ⟨visible, hvisible, hentry⟩ := Option.bind_eq_some_iff.mp hseen
  obtain ⟨listed, hlisted, hpair⟩ := mem_map.mp (mem_of_getElem?_ofList hnode)
  obtain ⟨hid, rfl⟩ := Prod.mk.inj hpair
  obtain ⟨hmember, hrole⟩ := mem_selectClientGateways hlisted
  exact ⟨listed, hmember, hrole, hid, visible, hvisible, (Option.some.inj hentry).symm⟩

lemma getElem?_clusterGateways {node : NodeRecord} (hnodup : (peers.map NodeRecord.nodeId).Nodup)
    (hmember : node ∈ peers)
    (h : ∃ listed ∈ selectClientGateways displayAddr healthByNode now policy peers,
      listed.nodeId = node.nodeId) :
    (clusterGateways displayAddr peers healthByNode policy now)[node.nodeId]? = some node := by
  obtain ⟨listed, hlisted, hid⟩ := h
  obtain ⟨found, hfound, hmem⟩ := exists_getElem?_ofList (mem_map.mpr
    ⟨listed, hlisted, by rw [hid]⟩ : (node.nodeId, listed) ∈ (selectClientGateways displayAddr healthByNode now
      policy peers).map fun gateway => (gateway.nodeId, gateway))
  obtain ⟨other, hother, hpair⟩ := mem_map.mp hmem
  obtain ⟨hsame, rfl⟩ := Prod.mk.inj hpair
  rw [clusterGateways, hfound,
    inj_on_of_nodup_map hnodup (mem_selectClientGateways hother).1 hmember hsame]

lemma direct_projection :
    entry ∈ clusterProjection displayAddr peers healthByNode selections policy now source ∧
        entry.role.isClient = true ↔
      ∃ client visible, Served displayAddr peers healthByNode selections policy now source client visible
        source.nodeId ∧ entry = filterServedEndpointCandidates now policy visible := by
  rw [mem_clusterProjection, mem_directClients_cluster]
  constructor
  · rintro ⟨hdirect | ⟨id, routes, -, hprojected⟩, hrole⟩
    · exact hdirect
    · obtain ⟨node, -, hnode, -, visible, hvisible, rfl⟩ := projectedGateway_eq_some hprojected
      change visible.role.isClient = true at hrole
      rw [role_of_visible hvisible, hnode] at hrole
      cases hrole
  · rintro ⟨client, visible, hserved, rfl⟩
    refine ⟨.inl ⟨client, visible, hserved, rfl⟩, ?_⟩
    change visible.role.isClient = true
    rw [role_of_visible hserved.visible, hserved.role]

section Hosts

variable (hvpn : ((peers.filter fun peer => peer.role.isClient).map NodeRecord.vpnIp).Nodup)

include hvpn

lemma offers_unique {first second : Route}
    (hfirst : Offers displayAddr peers healthByNode selections policy now source gateway first)
    (hsecond : Offers displayAddr peers healthByNode selections policy now source gateway second)
    (hcidr : first.cidr = second.cidr) : first = second := by
  obtain ⟨-, client, visible, hserved, rfl⟩ := hfirst
  obtain ⟨-, other, visible', hserved', rfl⟩ := hsecond
  rw [cidr_of_visible hserved.visible, cidr_of_visible hserved'.visible] at hcidr
  obtain rfl : client = other := inj_on_of_nodup_map hvpn
    (mem_filter.mpr ⟨hserved.member, hserved.role⟩)
    (mem_filter.mpr ⟨hserved'.member, hserved'.role⟩) (vpnHostCidr_injective hcidr)
  rw [Option.some.inj (hserved.visible.symm.trans hserved'.visible)]

variable (hnodup : (peers.map NodeRecord.nodeId).Nodup)
  (hroutes : ∀ node ∈ peers, ∀ own ∈ node.routes, own.cidr ≠ route.cidr)

include hnodup hroutes

lemma mem_routes_nodeEntry {peer entry : NodeRecord} (hmember : peer ∈ peers)
    (h : nodeEntry displayAddr peers healthByNode selections policy now source peer = some entry) :
    route ∈ entry.routes ↔
      Offers displayAddr peers healthByNode selections policy now source peer.nodeId route := by
  obtain ⟨visible, hvisible, rfl⟩ := Option.map_eq_some_iff.mp h
  have hown : ∀ own ∈ visible.routes, own.cidr ≠ route.cidr := fun own hmem =>
    hroutes peer hmember own (routes_of_visible hvisible hmem)
  have hoffers : ∀ offered : Route, offered ∈ (clientRoutesByGateway displayAddr peers healthByNode
      selections policy now source).getD visible.nodeId [] ↔
      Offers displayAddr peers healthByNode selections policy now source peer.nodeId offered := by
    rw [nodeId_of_visible hvisible]
    exact fun _ => mem_clientRoutesByGateway hnodup
  simp only [TreeMap.getD_eq_getD_getElem?] at hoffers
  rw [← hoffers route]
  cases hget : (clientRoutesByGateway displayAddr peers healthByNode selections policy now
      source)[visible.nodeId]? with
  | none => exact iff_of_false (fun hmem => hown route hmem rfl) not_mem_nil
  | some offered =>
    rw [hget] at hoffers
    refine mem_preferred_iff (keyed_routesByCidr visible.routes)
      (fun own hmem => hown own (mem_of_mem_routesByCidr hmem)) ?_ rfl
    intro first hfirst second hsecond hcidr hcidr'
    exact offers_unique hvpn ((hoffers first).mp hfirst) ((hoffers second).mp hsecond)
      (hcidr.trans hcidr'.symm)

lemma routed_peerMap :
    (∃ entry ∈ nodePeerMapWithClients displayAddr peers healthByNode selections policy now source,
      entry.nodeId = gateway ∧ route ∈ entry.routes) ↔
    Offers displayAddr peers healthByNode selections policy now source gateway route ∧
      ∃ node ∈ peers, node.nodeId = gateway ∧ (aclFilterPeer source node policy).isSome = true := by
  constructor
  · rintro ⟨entry, hentry, rfl, hroute⟩
    obtain ⟨peer, hpeer, hmap⟩ := mem_filterMap.mp hentry
    have hmember := (mem_filter.mp hpeer).1
    split_ifs at hmap with hclient
    · -- a client has no routes but its own
      obtain ⟨visible, hserved, rfl⟩ := (clientEntry_eq_some hnodup hmember hclient).mp hmap
      exact absurd rfl (hroutes peer hmember route (routes_of_visible hserved.visible hroute))
    · rw [nodeId_nodeEntry hmap]
      refine ⟨(mem_routes_nodeEntry hvpn hnodup hroutes hmember hmap).mp hroute, peer, hmember, rfl, ?_⟩
      obtain ⟨visible, hvisible, -⟩ := Option.map_eq_some_iff.mp hmap
      rw [hvisible]
      rfl
  · rintro ⟨hoffers, node, hmember, rfl, hseen⟩
    obtain ⟨visible, hvisible⟩ := Option.isSome_iff_exists.mp hseen
    have hrole : node.role.isClient = false := by
      obtain ⟨-, client, _, hserved, -⟩ := hoffers
      obtain ⟨other, hother, hid⟩ := exists_gateway hserved.selected
      obtain ⟨hpeer, hotherRole⟩ := mem_selectClientGateways hother
      rwa [inj_on_of_nodup_map hnodup hpeer hmember hid] at hotherRole
    obtain ⟨entry, hentry⟩ : ∃ entry,
        nodeEntry displayAddr peers healthByNode selections policy now source node = some entry :=
      ⟨_, by rw [nodeEntry, hvisible]; rfl⟩
    refine ⟨entry, mem_filterMap.mpr ⟨node, mem_filter.mpr ⟨hmember, decide_eq_true hoffers.1⟩, ?_⟩,
      nodeId_nodeEntry hentry, (mem_routes_nodeEntry hvpn hnodup hroutes hmember hentry).mpr hoffers⟩
    rw [if_neg (Bool.eq_false_iff.mp hrole), hentry]

lemma routed_projection :
    (∃ entry ∈ clusterProjection displayAddr peers healthByNode selections policy now source,
      entry.nodeId = gateway ∧ route ∈ entry.routes) ↔
    Offers displayAddr peers healthByNode selections policy now source gateway route ∧
      ∃ node ∈ peers, node.nodeId = gateway ∧ (aclFilterPeer source node policy).isSome = true := by
  have hoffered : ∀ routes : TreeMap IpNet Route,
      (clusterForms displayAddr peers healthByNode selections policy now source).routesByGateway.getD
        gateway ∅ = routes →
      (route ∈ routes.values ↔
        Offers displayAddr peers healthByNode selections policy now source gateway route) := by
    rintro routes rfl
    rw [clusterForms, clientForms, getD_routesByGateway, ← mem_offeredRoutes]
    refine mem_preferred_iff ?_ ?_ ?_ rfl
    · exact fun cidr kept hkept => by simp at hkept
    · intro kept hkept
      obtain ⟨cidr, hget⟩ := mem_values.mp hkept
      simp at hget
    · intro first hfirst second hsecond hcidr hcidr'
      exact offers_unique hvpn (mem_offeredRoutes.mp hfirst) (mem_offeredRoutes.mp hsecond)
        (hcidr.trans hcidr'.symm)
  constructor
  · rintro ⟨entry, hentry, rfl, hroute⟩
    obtain hdirect | ⟨id, routes, hget, hprojected⟩ := mem_clusterProjection.mp hentry
    · -- a client has no routes but its own
      obtain ⟨client, visible, hserved, rfl⟩ := mem_directClients_cluster.mp hdirect
      exact absurd rfl (hroutes client hserved.member route (routes_of_visible hserved.visible hroute))
    · obtain ⟨node, hmember, -, rfl, visible, hvisible, rfl⟩ := projectedGateway_eq_some hprojected
      have hid : visible.nodeId = node.nodeId := nodeId_of_visible hvisible
      refine ⟨(hoffered routes ?_).mp hroute, node, hmember, hid.symm, ?_⟩
      · rw [TreeMap.getD_eq_getD_getElem?]
        change Option.getD (clusterForms displayAddr peers healthByNode selections policy now
          source).routesByGateway[visible.nodeId]? ∅ = routes
        rw [hid, hget]
        rfl
      · rw [hvisible]
        rfl
  · rintro ⟨hoffers, node, hmember, rfl, hseen⟩
    obtain ⟨visible, hvisible⟩ := Option.isSome_iff_exists.mp hseen
    have hgateway : (clusterGateways displayAddr peers healthByNode policy now)[node.nodeId]? = some node := by
      obtain ⟨-, client, _, hserved, -⟩ := hoffers
      exact getElem?_clusterGateways hnodup hmember (exists_gateway hserved.selected)
    have hroute := (hoffered _ rfl).mpr hoffers
    rw [TreeMap.getD_eq_getD_getElem?] at hroute
    cases hget : (clusterForms displayAddr peers healthByNode selections policy now
        source).routesByGateway[node.nodeId]? with
    | none =>
      rw [hget] at hroute
      obtain ⟨cidr, hnone⟩ := mem_values.mp hroute
      simp at hnone
    | some routes =>
      rw [hget] at hroute
      have hid : visible.nodeId = node.nodeId := nodeId_of_visible hvisible
      refine ⟨filterServedEndpointCandidates now policy { visible with routes := routes.values },
        mem_clusterProjection.mpr (.inr ⟨node.nodeId, routes, hget, ?_⟩), hid, hroute⟩
      rw [projectedGateway, hgateway, Option.bind_eq_bind, Option.bind_some, hvisible]
      rfl

end Hosts

/-! ### One form for each client -/

section Forms

variable {entry : NodeRecord} (hnodup : (peers.map NodeRecord.nodeId).Nodup) (hmember : client ∈ peers)
  (hrole : client.role.isClient = true) (hid : entry.nodeId = client.nodeId)

include hnodup hmember hrole hid

lemma role_of_mem_peerMap
    (h : entry ∈ nodePeerMapWithClients displayAddr peers healthByNode selections policy now source) :
    entry.role.isClient = true := by
  obtain ⟨peer, hpeer, hmap⟩ := mem_filterMap.mp h
  split_ifs at hmap with hclient
  · obtain ⟨visible, hserved, rfl⟩ := (clientEntry_eq_some hnodup (mem_filter.mp hpeer).1 hclient).mp hmap
    change visible.role.isClient = true
    rw [role_of_visible hserved.visible, hclient]
  · rw [nodeId_nodeEntry hmap] at hid
    rw [inj_on_of_nodup_map hnodup (mem_filter.mp hpeer).1 hmember hid] at hclient
    exact absurd hrole hclient

lemma role_of_mem_projection
    (h : entry ∈ clusterProjection displayAddr peers healthByNode selections policy now source) :
    entry.role.isClient = true := by
  obtain hdirect | ⟨id, routes, -, hprojected⟩ := mem_clusterProjection.mp h
  · exact (direct_projection.mpr (mem_directClients_cluster.mp hdirect)).2
  · obtain ⟨node, hnode, hnodeRole, -, visible, hvisible, rfl⟩ := projectedGateway_eq_some hprojected
    change visible.nodeId = client.nodeId at hid
    rw [nodeId_of_visible hvisible] at hid
    rw [inj_on_of_nodup_map hnodup hnode hmember hid, hrole] at hnodeRole
    cases hnodeRole

end Forms

lemma selected_of_direct (hid : entry.nodeId = client.nodeId)
    (h : ∃ other visible, Served displayAddr peers healthByNode selections policy now source other visible
      source.nodeId ∧ entry = filterServedEndpointCandidates now policy visible) :
    selectedGateway displayAddr peers healthByNode selections policy now client.nodeId =
      some source.nodeId := by
  obtain ⟨other, visible, hserved, rfl⟩ := h
  change visible.nodeId = client.nodeId at hid
  rw [nodeId_of_visible hserved.visible] at hid
  rw [← hid]
  exact hserved.selected

lemma Offers.selected (hvpn : ((peers.filter fun peer => peer.role.isClient).map NodeRecord.vpnIp).Nodup)
    (hmember : client ∈ peers) (hrole : client.role.isClient = true)
    (hcidr : route.cidr = vpnHostCidr client.vpnIp)
    (h : Offers displayAddr peers healthByNode selections policy now source gateway route) :
    gateway ≠ source.nodeId ∧
      selectedGateway displayAddr peers healthByNode selections policy now client.nodeId = some gateway := by
  obtain ⟨hsource, other, visible, hserved, rfl⟩ := h
  rw [cidr_of_visible hserved.visible] at hcidr
  obtain rfl : other = client := inj_on_of_nodup_map hvpn
    (mem_filter.mpr ⟨hserved.member, hserved.role⟩) (mem_filter.mpr ⟨hmember, hrole⟩)
    (vpnHostCidr_injective hcidr)
  exact ⟨hsource, hserved.selected⟩

end Served

/-- **The two ways agree**: on the clients and their records, and on the gateway that has the route for the
address of a client; and neither has a client in both forms. -/
theorem client_forms_agree (displayAddr : SocketAddr → String) (peers : List NodeRecord)
    (healthByNode : TreeMap NodeId NodeHealth)
    (selections : TreeMap NodeId ClientGatewaySelection) (policy : ClusterPolicy) (now : Timestamp)
    (source : NodeRecord) (hnodup : (peers.map NodeRecord.nodeId).Nodup)
    (hvpn : ((peers.filter fun peer => peer.role.isClient).map NodeRecord.vpnIp).Nodup)
    (hroutes : ∀ node ∈ peers, ∀ own ∈ node.routes, ∀ client ∈ peers, client.role.isClient = true →
      own.cidr ≠ vpnHostCidr client.vpnIp) :
    let projection := nodeClientRouteProjection displayAddr healthByNode selections policy now source
      (peers.filter fun peer => !peer.role.isClient) (peers.filter fun peer => peer.role.isClient)
    let peerMap := nodePeerMapWithClients displayAddr peers healthByNode selections policy now source
    (∀ entry : NodeRecord, entry.role.isClient = true → (entry ∈ projection ↔ entry ∈ peerMap)) ∧
    ∀ client ∈ peers, client.role.isClient = true →
      (∀ (gateway : NodeId) (route : Route), route.cidr = vpnHostCidr client.vpnIp →
        ((∃ entry ∈ projection, entry.nodeId = gateway ∧ route ∈ entry.routes) ↔
          ∃ entry ∈ peerMap, entry.nodeId = gateway ∧ route ∈ entry.routes)) ∧
      ∀ told ∈ [projection, peerMap], ¬((∃ entry ∈ told, entry.nodeId = client.nodeId) ∧
        ∃ entry ∈ told, ∃ route ∈ entry.routes, route.cidr = vpnHostCidr client.vpnIp) := by
  intro projection peerMap
  refine ⟨fun entry hrole => ?_, fun client hmember hrole => ⟨fun gateway route hcidr => ?_, ?_⟩⟩
  · have hdirect : entry ∈ projection ∧ entry.role.isClient = true ↔
        entry ∈ peerMap ∧ entry.role.isClient = true := direct_projection.trans (direct_peerMap hnodup).symm
    exact ⟨fun h => (hdirect.mp ⟨h, hrole⟩).1, fun h => (hdirect.mpr ⟨h, hrole⟩).1⟩
  · have hother : ∀ node ∈ peers, ∀ own ∈ node.routes, own.cidr ≠ route.cidr := fun node hnode own hown =>
      hcidr ▸ hroutes node hnode own hown client hmember hrole
    exact (routed_projection hvpn hnodup hother).trans (routed_peerMap hvpn hnodup hother).symm
  · rintro told htold ⟨⟨entry, hentry, hid⟩, gateway, hgateway, route, hroute, hcidr⟩
    have hother : ∀ node ∈ peers, ∀ own ∈ node.routes, own.cidr ≠ route.cidr := fun node hnode own hown =>
      hcidr ▸ hroutes node hnode own hown client hmember hrole
    -- the gateway would be the source in the one form and another node in the other
    have hclash : selectedGateway displayAddr peers healthByNode selections policy now client.nodeId =
        some source.nodeId → ¬Offers displayAddr peers healthByNode selections policy now source
          gateway.nodeId route := by
      intro hdirect hoffers
      obtain ⟨hne, hselected⟩ := hoffers.selected hvpn hmember hrole hcidr
      exact hne (Option.some.inj (hselected.symm.trans hdirect))
    obtain rfl | rfl := List.mem_pair.mp htold
    · exact hclash (selected_of_direct hid (direct_projection.mp
        ⟨hentry, role_of_mem_projection hnodup hmember hrole hid hentry⟩))
        ((routed_projection hvpn hnodup hother).mp ⟨gateway, hgateway, rfl, hroute⟩).1
    · exact hclash (selected_of_direct hid ((direct_peerMap hnodup).mp
        ⟨hentry, role_of_mem_peerMap hnodup hmember hrole hid hentry⟩))
        ((routed_peerMap hvpn hnodup hother).mp ⟨gateway, hgateway, rfl, hroute⟩).1

namespace SampleGateways

def tablet : NodeRecord := { client with nodeId := ⟨"tablet"⟩, vpnIp := .v4 0x0a00000a#32 }

def chosen : TreeMap NodeId ClientGatewaySelection :=
  (∅ : TreeMap NodeId ClientGatewaySelection).insert ⟨"tablet"⟩ ⟨⟨"tablet"⟩, ⟨"b"⟩, 0⟩

theorem client_forms_agree_two :
    client ∈ nodePeerMapWithClients (fun _ => "") (tablet :: peers) ∅ chosen (SampleAcl.policy []) 0
      (node "a" ∅) ∧
    ∃ entry ∈ nodePeerMapWithClients (fun _ => "") (tablet :: peers) ∅ chosen (SampleAcl.policy []) 0
      (node "a" ∅), entry.nodeId = ⟨"b"⟩ ∧ gatewayRouteForClient ⟨"b"⟩ tablet ∈ entry.routes := by
  obtain ⟨hdirect, hrouted⟩ := client_forms_agree (fun _ => "") (tablet :: peers) ∅ chosen
    (SampleAcl.policy []) 0 (node "a" ∅) (by decide +kernel) (by decide +kernel) (by decide +kernel)
  exact ⟨(hdirect client (by decide +kernel)).mp (by decide +kernel),
    ((hrouted tablet (by decide +kernel) (by decide +kernel)).1 ⟨"b"⟩ (gatewayRouteForClient ⟨"b"⟩ tablet)
      rfl).mp (by decide +kernel)⟩

end SampleGateways

end ControlPlane

end HeteroNetwork
