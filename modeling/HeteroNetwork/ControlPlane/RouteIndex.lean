import HeteroNetwork.Lib.PrefixTable
import HeteroNetwork.ControlPlane.Acl

/-!
# The index of overlay routes

A destination is resolved to the node that owns it or, failing that, to one that advertises a prefix with
it.  The index finds what `naiveDestination` finds by going through everything (`resolve_build`).
-/

namespace HeteroNetwork

open Cidr OrderedMap List PrefixTable

namespace ControlPlane

/-! ## Building -/

structure IndexedOverlayRoute where
  nodeId : NodeId
  route : Route
deriving DecidableEq

def IndexedOverlayRoute.rank (indexed : IndexedOverlayRoute) : ℕ ×ₗ NodeId ×ₗ String :=
  toLex (indexed.route.metric.toNat, toLex (indexed.nodeId, indexed.route.id))

def overlayRouteIsSelfOwned (node : NodeRecord) (route : Route) : Bool :=
  route.advertisedBy = node.nodeId && (route.via.isNone || route.via = some node.nodeId)

structure OverlayRouteIndex where
  vpnOwnerByIp : Std.TreeMap IpAddr NodeId
  ipv4ByPrefix : PrefixTable IndexedOverlayRoute
  ipv6ByPrefix : PrefixTable IndexedOverlayRoute

namespace OverlayRouteIndex

def empty : OverlayRouteIndex := ⟨∅, .empty 32, .empty 128⟩

def addRoute (index : OverlayRouteIndex) (indexed : IndexedOverlayRoute) : OverlayRouteIndex :=
  match indexed.route.cidr with
  | .v4 cidr => { index with ipv4ByPrefix := index.ipv4ByPrefix.push cidr indexed }
  | .v6 cidr => { index with ipv6ByPrefix := index.ipv6ByPrefix.push cidr indexed }

/-- A route as it is indexed, without the bits that do not matter. -/
def indexedRoute (node : NodeRecord) (route : Route) : IndexedOverlayRoute :=
  ⟨node.nodeId, { route with cidr := route.cidr.trunc }⟩

def addNode (index : OverlayRouteIndex) (node : NodeRecord) : OverlayRouteIndex :=
  (node.routes.filter (overlayRouteIsSelfOwned node)).foldl
    (fun index route => index.addRoute (indexedRoute node route))
    { index with vpnOwnerByIp := index.vpnOwnerByIp.insertIfNew node.vpnIp node.nodeId }

def build (nodes : List NodeRecord) : OverlayRouteIndex :=
  let index := (nodes.insertionSort fun left right => left.nodeId ≤ right.nodeId).foldl addNode empty
  { index with
    ipv4ByPrefix := index.ipv4ByPrefix.sortBy fun left right => left.rank ≤ right.rank
    ipv6ByPrefix := index.ipv6ByPrefix.sortBy fun left right => left.rank ≤ right.rank }

end OverlayRouteIndex

/-! ## Resolving -/

def ipv4PrefixKey (address : BitVec 32) (prefixLen : ℕ) : BitVec 32 :=
  if prefixLen = 0 then 0 else address &&& (BitVec.allOnes 32 <<< (32 - prefixLen))

def ipv6PrefixKey (address : BitVec 128) (prefixLen : ℕ) : BitVec 128 :=
  if prefixLen = 0 then 0 else address &&& (BitVec.allOnes 128 <<< (128 - prefixLen))

def hexPadded (width n : ℕ) : String :=
  let digits := Nat.toDigits 16 n
  String.ofList (List.replicate (width - digits.length) '0' ++ digits)

def overlayDestinationRouteId : IpAddr → String
  | .v4 destination => "overlay-v4-" ++ hexPadded 8 destination.toNat
  | .v6 destination => "overlay-v6-" ++ hexPadded 32 destination.toNat

def overlayDestinationHostCidr : IpAddr → IpNet
  | .v4 destination => .v4 ⟨destination, 32⟩
  | .v6 destination => .v6 ⟨destination, 128⟩

def activeNodesById (activeNodes : List NodeRecord) : Std.TreeMap NodeId ℕ :=
  .ofList (activeNodes.zipIdx.map fun e => (e.1.nodeId, e.2))

section Resolve

variable (source : NodeRecord) (activeNodes : List NodeRecord) (byId : Std.TreeMap NodeId ℕ)
  (destination : IpAddr) (policy : ClusterPolicy)

def activeNode (id : NodeId) : Option NodeRecord := byId[id]?.bind fun index => activeNodes[index]?

/-- The route that is told to the source.  With rules in force it is only about the destination. -/
def answerRoute (route : Route) : Route :=
  if policy.aclRules.isEmpty then route
  else { route with
    id := overlayDestinationRouteId destination
    cidr := overlayDestinationHostCidr destination }

def resolveCandidate (candidate : IndexedOverlayRoute) : Option NodeRecord :=
  match activeNode activeNodes byId candidate.nodeId with
  | none => none
  | some target =>
    if target.nodeId = source.nodeId ∨ (policy.aclRules ≠ [] ∧
        ¬aclAllowsRouteDestination source target policy candidate.route destination) then none
    else some { target with routes := [answerRoute destination policy candidate.route] }

def resolveIndexedRoute (candidates : List IndexedOverlayRoute) : Option NodeRecord :=
  candidates.findSome? (resolveCandidate source activeNodes byId destination policy)

def resolveOwner (targetId : NodeId) : Option NodeRecord := do
  let target ← activeNode activeNodes byId targetId
  if target.nodeId = source.nodeId then none
  else if policy.aclRules.isEmpty then some target
  else if aclAllowsPeer source target policy then aclFilterPeer source target policy
  else none

def OverlayRouteIndex.resolveDestination (index : OverlayRouteIndex) : Option NodeRecord :=
  match index.vpnOwnerByIp[destination]? with
  | some targetId => resolveOwner source activeNodes byId policy targetId
  | none =>
    match destination with
    | .v4 address => (List.range 33).reverse.findSome? fun prefixLen =>
      (index.ipv4ByPrefix.get? prefixLen (ipv4PrefixKey address prefixLen)).bind
        (resolveIndexedRoute source activeNodes byId destination policy)
    | .v6 address => (List.range 129).reverse.findSome? fun prefixLen =>
      (index.ipv6ByPrefix.get? prefixLen (ipv6PrefixKey address prefixLen)).bind
        (resolveIndexedRoute source activeNodes byId destination policy)

end Resolve

/-! ## What a lookup should find -/

def routeRank (e : NodeRecord × Route) : ℕᵒᵈ ×ₗ ℕ ×ₗ NodeId ×ₗ String :=
  toLex (OrderDual.toDual e.2.cidr.prefixLen,
    toLex (e.2.metric.toNat, toLex (e.1.nodeId, e.2.id)))

section Naive

variable (nodes activeNodes : List NodeRecord) (source : NodeRecord) (destination : IpAddr)
  (policy : ClusterPolicy)

def ownerOf : Option NodeRecord :=
  (nodes.filter fun node => node.vpnIp = destination).argmin NodeRecord.nodeId

def ownRoutes : List (NodeRecord × Route) :=
  nodes.flatMap fun node => (node.routes.filter (overlayRouteIsSelfOwned node)).map fun route =>
    (node, route)

/-- The source may be sent to this node for the destination. -/
def usable (node : NodeRecord) (route : Route) : Bool :=
  node ∈ activeNodes && node.nodeId ≠ source.nodeId &&
    (policy.aclRules.isEmpty || aclAllowsRouteDestination source node policy route destination)

def bestRoute : Option (NodeRecord × Route) :=
  ((ownRoutes nodes).filter fun e =>
    e.2.cidr.contains destination && usable activeNodes source destination policy e.1 e.2).argmin
      routeRank

def naiveDestination : Option NodeRecord :=
  match ownerOf nodes destination with
  | some owner =>
    if owner ∈ activeNodes ∧ owner.nodeId ≠ source.nodeId ∧
        (policy.aclRules = [] ∨ aclAllowsPeer source owner policy) then
      some (if policy.aclRules = [] then owner
        else { owner with routes := owner.routes.filter (aclAllowsRoute source owner policy) })
    else none
  | none => (bestRoute nodes activeNodes source destination policy).map fun e =>
    { e.1 with
      routes := [answerRoute destination policy { e.2 with cidr := e.2.cidr.trunc }] }

end Naive

/-! ## Keys and owners -/

lemma ipv4PrefixKey_eq (address : BitVec 32) (len : ℕ) :
    ipv4PrefixKey address len = address &&& mask 32 len := by
  rw [ipv4PrefixKey]
  split_ifs with hlen
  · rw [hlen]
    simp [mask]
  · rfl

lemma ipv6PrefixKey_eq (address : BitVec 128) (len : ℕ) :
    ipv6PrefixKey address len = address &&& mask 128 len := by
  rw [ipv6PrefixKey]
  split_ifs with hlen
  · rw [hlen]
    simp [mask]
  · rfl

open IndexedOverlayRoute

section Build

variable {nodes : List NodeRecord} {index : OverlayRouteIndex} {ip : IpAddr}

def IndexedOverlayRoute.v4Net (indexed : IndexedOverlayRoute) : Option Ipv4Net :=
  match indexed.route.cidr with
  | .v4 cidr => some cidr
  | .v6 _ => none

def IndexedOverlayRoute.v6Net (indexed : IndexedOverlayRoute) : Option Ipv6Net :=
  match indexed.route.cidr with
  | .v4 _ => none
  | .v6 cidr => some cidr

def indexedRoutes (nodes : List NodeRecord) : List IndexedOverlayRoute :=
  (ownRoutes nodes).map fun e => OverlayRouteIndex.indexedRoute e.1 e.2

namespace OverlayRouteIndex

lemma vpnOwnerByIp_addRoutes {indexed : List IndexedOverlayRoute} :
    (indexed.foldl addRoute index).vpnOwnerByIp = index.vpnOwnerByIp := by
  induction indexed generalizing index with
  | nil => rfl
  | cons i indexed ih =>
    rw [foldl_cons, ih, addRoute]
    split
    · rfl
    · rfl

lemma addNode_eq (node : NodeRecord) :
    index.addNode node = (indexedRoutes [node]).foldl addRoute
      { index with vpnOwnerByIp := index.vpnOwnerByIp.insertIfNew node.vpnIp node.nodeId } := by
  simp [addNode, indexedRoutes, ownRoutes, foldl_map]

lemma getElem?_vpnOwnerByIp :
    (nodes.foldl addNode index).vpnOwnerByIp[ip]? = (index.vpnOwnerByIp[ip]?).or
      ((nodes.find? fun node => node.vpnIp = ip).map NodeRecord.nodeId) := by
  induction nodes generalizing index with
  | nil => simp
  | cons node nodes ih =>
    rw [foldl_cons, ih, addNode_eq, vpnOwnerByIp_addRoutes, Std.TreeMap.getElem?_insertIfNew,
      find?_cons]
    by_cases hip : node.vpnIp = ip
    · subst hip
      by_cases hmem : node.vpnIp ∈ index.vpnOwnerByIp
      · simp [hmem]
      · simp [hmem]
    · have hne : ¬(compare node.vpnIp ip = .eq ∧ node.vpnIp ∉ index.vpnOwnerByIp) :=
        fun h => hip (compare_eq_iff_eq.mp h.1)
      rw [if_neg hne]
      simp [hip]

lemma vpnOwnerByIp_build : (build nodes).vpnOwnerByIp[ip]? = (ownerOf nodes ip).map NodeRecord.nodeId := by
  show ((nodes.insertionSort _).foldl addNode empty).vpnOwnerByIp[ip]? = _
  rw [getElem?_vpnOwnerByIp, FirstMin.find?_insertionSort, empty, Std.TreeMap.getElem?_emptyc,
    Option.none_or, ownerOf]

lemma foldl_addRoute_congr {index' : OverlayRouteIndex} (indexed : List IndexedOverlayRoute)
    (h4 : index.ipv4ByPrefix = index'.ipv4ByPrefix) (h6 : index.ipv6ByPrefix = index'.ipv6ByPrefix) :
    (indexed.foldl addRoute index).ipv4ByPrefix = (indexed.foldl addRoute index').ipv4ByPrefix ∧
      (indexed.foldl addRoute index).ipv6ByPrefix = (indexed.foldl addRoute index').ipv6ByPrefix := by
  induction indexed generalizing index index' with
  | nil => exact ⟨h4, h6⟩
  | cons i indexed ih =>
    rw [foldl_cons, foldl_cons]
    apply ih
    · rw [addRoute, addRoute]
      split
      · rw [h4]
      · exact h4
    · rw [addRoute, addRoute]
      split
      · exact h6
      · rw [h6]

lemma foldl_addNode (nodes : List NodeRecord) (index : OverlayRouteIndex) :
    (nodes.foldl addNode index).ipv4ByPrefix =
        ((indexedRoutes nodes).foldl addRoute index).ipv4ByPrefix ∧
      (nodes.foldl addNode index).ipv6ByPrefix =
        ((indexedRoutes nodes).foldl addRoute index).ipv6ByPrefix := by
  induction nodes generalizing index with
  | nil => exact ⟨rfl, rfl⟩
  | cons node nodes ih =>
    have hsplit : indexedRoutes (node :: nodes) = indexedRoutes [node] ++ indexedRoutes nodes := by
      simp [indexedRoutes, ownRoutes]
    obtain ⟨h4, h6⟩ := ih (index.addNode node)
    rw [foldl_cons, h4, h6, hsplit, foldl_append, addNode_eq]
    obtain ⟨h4, h6⟩ := @foldl_addRoute_congr
      { index with vpnOwnerByIp := index.vpnOwnerByIp.insertIfNew node.vpnIp node.nodeId } index
      (indexedRoutes [node]) rfl rfl
    exact foldl_addRoute_congr (indexedRoutes nodes) h4 h6

lemma foldl_addRoute (indexed : List IndexedOverlayRoute) :
    (indexed.foldl addRoute empty).ipv4ByPrefix =
        ofList v4Net indexed ∧
      (indexed.foldl addRoute empty).ipv6ByPrefix =
        ofList v6Net indexed := by
  induction indexed using List.reverseRecOn with
  | nil => exact ⟨rfl, rfl⟩
  | append_singleton indexed i ih =>
    rw [foldl_append, foldl_cons, foldl_nil, ofList_append_singleton,
      ofList_append_singleton, ← ih.1, ← ih.2, addRoute, v4Net,
      v6Net]
    cases i.route.cidr with
    | v4 | v6 => exact ⟨rfl, rfl⟩

def ordered (nodes : List NodeRecord) : List NodeRecord :=
  nodes.insertionSort fun left right => left.nodeId ≤ right.nodeId

lemma tables_build (nodes : List NodeRecord) :
    (build nodes).ipv4ByPrefix =
        (ofList v4Net (indexedRoutes (ordered nodes))).sortBy
          (fun left right => left.rank ≤ right.rank) ∧
      (build nodes).ipv6ByPrefix =
        (ofList v6Net (indexedRoutes (ordered nodes))).sortBy
          (fun left right => left.rank ≤ right.rank) := by
  obtain ⟨h4, h6⟩ := foldl_addNode (ordered nodes) empty
  obtain ⟨h4', h6'⟩ := foldl_addRoute (indexedRoutes (ordered nodes))
  rw [← h4', ← h6', ← h4, ← h6]
  exact ⟨rfl, rfl⟩

end OverlayRouteIndex

end Build

/-! ## Active nodes -/

section Resolve

variable {nodes activeNodes : List NodeRecord} {source node : NodeRecord} {destination : IpAddr}
  {policy : ClusterPolicy} {route : Route} {id : NodeId}

lemma activeNode_eq_some (hids : (activeNodes.map NodeRecord.nodeId).Nodup) :
    activeNode activeNodes (activeNodesById activeNodes) id = some node ↔
      node ∈ activeNodes ∧ node.nodeId = id := by
  have hkeys : ((activeNodes.zipIdx.map fun e => (e.1.nodeId, e.2)).map Prod.fst).Nodup := by
    rw [map_map]
    show (activeNodes.zipIdx.map (NodeRecord.nodeId ∘ Prod.fst)).Nodup
    rwa [← map_map, zipIdx_map_fst]
  have hindex : ∀ i, (activeNodesById activeNodes)[id]? = some i ↔
      ∃ target, activeNodes[i]? = some target ∧ target.nodeId = id := by
    intro i
    rw [activeNodesById, getElem?_ofList hkeys, mem_map]
    constructor
    · rintro ⟨⟨target, j⟩, hmem, heq⟩
      obtain ⟨rfl, rfl⟩ := Prod.mk.inj heq
      exact ⟨target, mem_zipIdx_iff_getElem?.mp hmem, rfl⟩
    · rintro ⟨target, hget, rfl⟩
      exact ⟨(target, i), mem_zipIdx_iff_getElem?.mpr hget, rfl⟩
  rw [activeNode, Option.bind_eq_some_iff]
  constructor
  · rintro ⟨i, hi, hget⟩
    obtain ⟨target, hget', hid⟩ := (hindex i).mp hi
    rw [hget] at hget'
    obtain rfl := Option.some.inj hget'
    exact ⟨mem_of_getElem? hget, hid⟩
  · rintro ⟨hmem, hid⟩
    obtain ⟨i, hi⟩ := mem_iff_getElem?.mp hmem
    exact ⟨i, (hindex i).mpr ⟨node, hi, hid⟩, hi⟩

lemma activeNode_self (hids : (nodes.map NodeRecord.nodeId).Nodup) (hactive : activeNodes ⊆ nodes)
    (hactiveIds : (activeNodes.map NodeRecord.nodeId).Nodup) (hnode : node ∈ nodes) :
    activeNode activeNodes (activeNodesById activeNodes) node.nodeId =
      if node ∈ activeNodes then some node else none := by
  split_ifs with hmem
  · exact (activeNode_eq_some hactiveIds).mpr ⟨hmem, rfl⟩
  · refine Option.eq_none_iff_forall_ne_some.mpr fun target htarget => hmem ?_
    obtain ⟨hmem', hid⟩ := (activeNode_eq_some hactiveIds).mp htarget
    rwa [← inj_on_of_nodup_map hids (hactive hmem') hnode hid]

open OverlayRouteIndex

lemma resolveCandidate_indexedRoute (hids : (nodes.map NodeRecord.nodeId).Nodup)
    (hactive : activeNodes ⊆ nodes) (hactiveIds : (activeNodes.map NodeRecord.nodeId).Nodup)
    (hnode : node ∈ nodes) :
    resolveCandidate source activeNodes (activeNodesById activeNodes) destination policy
        (indexedRoute node route) =
      if usable activeNodes source destination policy node route then
        some { node with
          routes := [answerRoute destination policy { route with cidr := route.cidr.trunc }] }
      else none := by
  rw [resolveCandidate, indexedRoute, activeNode_self hids hactive hactiveIds hnode]
  by_cases hmem : node ∈ activeNodes
  · have hrejected : (node.nodeId = source.nodeId ∨ policy.aclRules ≠ [] ∧
        ¬aclAllowsRouteDestination source node policy { route with cidr := route.cidr.trunc }
          destination = true) ↔
        ¬usable activeNodes source destination policy node route = true := by
      have hallows : aclAllowsRouteDestination source node policy
          { route with cidr := route.cidr.trunc } destination =
            aclAllowsRouteDestination source node policy route destination := rfl
      simp only [usable, hmem, hallows, decide_true, Bool.true_and, Bool.and_eq_true, Bool.or_eq_true,
        decide_eq_true_eq, List.isEmpty_iff, not_and_or, not_or, not_not]
    rw [if_pos hmem]
    simp only [hrejected]
    by_cases husable : usable activeNodes source destination policy node route = true
    · rw [if_neg (not_not.mpr husable), if_pos husable]
    · rw [if_pos husable, if_neg husable]
  · simp [usable, hmem]

lemma filter_ownRoutes_ordered {p : NodeRecord × Route → Bool}
    (hp : ∀ e, p e = true → e.1.nodeId = id) :
    (ownRoutes (ordered nodes)).filter p = (ownRoutes nodes).filter p := by
  have hone : ∀ l : List NodeRecord,
      (ownRoutes l).filter p = (ownRoutes (l.filter fun node => node.nodeId = id)).filter p := by
    intro l
    induction l with
    | nil => rfl
    | cons node l ih =>
      have hcons : ∀ l', ownRoutes (node :: l') = ownRoutes [node] ++ ownRoutes l' := by
        simp [ownRoutes]
      rw [hcons, filter_append, ih, filter_cons]
      by_cases hid : node.nodeId = id
      · rw [if_pos (decide_eq_true hid), hcons (l.filter _), filter_append]
      · rw [if_neg (by simpa using hid)]
        have hnone : (ownRoutes [node]).filter p = [] := by
          refine filter_eq_nil_iff.mpr fun e he hpe => hid ?_
          simp only [ownRoutes, flatMap_cons, flatMap_nil, append_nil,
            mem_map] at he
          obtain ⟨route, -, rfl⟩ := he
          exact hp _ hpe
        rw [hnone, nil_append]
  have hsorted : (ordered nodes).filter (fun node => node.nodeId = id) =
      nodes.filter fun node => node.nodeId = id := by
    have htotal : Std.Total fun left right : NodeRecord => left.nodeId ≤ right.nodeId :=
      ⟨fun a b => le_total a.nodeId b.nodeId⟩
    have htrans : IsTrans NodeRecord fun left right => left.nodeId ≤ right.nodeId :=
      ⟨fun a b c => le_trans⟩
    rw [ordered, FirstMin.filter_insertionSort]
    refine List.Pairwise.insertionSort_eq ?_
    refine pairwise_iff_forall_sublist.mpr fun {a b} hsub => ?_
    have hmem : ∀ c ∈ [a, b], c.nodeId = id := fun c hc =>
      of_decide_eq_true (mem_filter.mp (hsub.subset hc)).2
    rw [hmem a (by simp), hmem b (by simp)]
  rw [hone, hsorted, ← hone]

lemma resolve_table {w : ℕ} {net : IndexedOverlayRoute → Option (Net w)} {addr : BitVec w}
    (hcontains : ∀ node route, (net (indexedRoute node route)).any (·.contains addr) =
      route.cidr.contains destination)
    (hlevel : ∀ node route, (net (indexedRoute node route)).isSome →
      level net (indexedRoute node route) = route.cidr.prefixLen)
    (hids : (nodes.map NodeRecord.nodeId).Nodup) (hactive : activeNodes ⊆ nodes)
    (hactiveIds : (activeNodes.map NodeRecord.nodeId).Nodup) :
    (List.range (w + 1)).reverse.findSome? (fun len =>
      (((ofList net (indexedRoutes (ordered nodes))).sortBy
        fun left right => left.rank ≤ right.rank).get? len (addr &&& mask w len)).bind
        (resolveIndexedRoute source activeNodes (activeNodesById activeNodes) destination policy)) =
    (bestRoute nodes activeNodes source destination policy).map fun e =>
      { e.1 with routes := [answerRoute destination policy { e.2 with cidr := e.2.cidr.trunc }] } := by
  have hnodes : ∀ e ∈ ownRoutes (ordered nodes), e.1 ∈ nodes := by
    intro e he
    obtain ⟨node, hnode, he⟩ := mem_flatMap.mp he
    obtain ⟨route, -, rfl⟩ := mem_map.mp he
    exact (mem_insertionSort _).mp hnode
  have hfilter : ((indexedRoutes (ordered nodes)).filter fun i => (net i).any (·.contains addr) &&
      (resolveCandidate source activeNodes (activeNodesById activeNodes) destination policy i).isSome) =
      ((ownRoutes (ordered nodes)).filter fun e => e.2.cidr.contains destination &&
        usable activeNodes source destination policy e.1 e.2).map fun e => indexedRoute e.1 e.2 := by
    rw [indexedRoutes, filter_map]
    refine congrArg (List.map _) (filter_congr fun e he => ?_)
    rw [Function.comp_apply, hcontains,
      resolveCandidate_indexedRoute hids hactive hactiveIds (hnodes e he)]
    split_ifs with husable
    · rw [husable]
      rfl
    · rw [Bool.eq_false_iff.mpr husable]
      rfl
  have hrank : ((ownRoutes (ordered nodes)).filter fun e => e.2.cidr.contains destination &&
      usable activeNodes source destination policy e.1 e.2).argmin
        (fun e => toLex (OrderDual.toDual (level net (indexedRoute e.1 e.2)),
          (indexedRoute e.1 e.2).rank)) = bestRoute nodes activeNodes source destination policy := by
    have hvalue : ∀ e ∈ (ownRoutes (ordered nodes)).filter fun e => e.2.cidr.contains destination &&
        usable activeNodes source destination policy e.1 e.2,
        toLex (OrderDual.toDual (level net (indexedRoute e.1 e.2)),
          (indexedRoute e.1 e.2).rank) = routeRank e := by
      intro e he
      obtain ⟨hcontained, -⟩ := Bool.and_eq_true_iff.mp (mem_filter.mp he).2
      rw [← hcontains e.1 e.2] at hcontained
      have hsome : (net (indexedRoute e.1 e.2)).isSome = true := by
        cases hnet : net (indexedRoute e.1 e.2) with
        | none => simp [hnet] at hcontained
        | some n => rfl
      rw [hlevel e.1 e.2 hsome]
      rfl
    rw [FirstMin.argmin_congr (g := routeRank) fun a ha b hb => by rw [hvalue a ha, hvalue b hb],
      bestRoute]
    refine FirstMin.argmin_eq_of_filter_eq fun k => ?_
    rw [filter_filter, filter_filter]
    refine @filter_ownRoutes_ordered nodes (ofLex (ofLex (ofLex k).2).2).1 _ fun e he => ?_
    have hk : routeRank e = k := by simpa using (Bool.and_eq_true_iff.mp he).1
    rw [← hk]
    rfl
  have hlookup := @findSome?_get? _ _ _ net (indexedRoutes (ordered nodes)) _ _
    rank
    (resolveCandidate source activeNodes (activeNodesById activeNodes) destination policy) addr
  refine hlookup.trans ?_
  rw [hfilter, FirstMin.argmin_map, hrank]
  cases hbest : bestRoute nodes activeNodes source destination policy with
  | none => rfl
  | some e =>
    obtain ⟨hmem, hgood⟩ := mem_filter.mp (argmin_mem hbest)
    obtain ⟨-, husable⟩ := Bool.and_eq_true_iff.mp hgood
    obtain ⟨node, hnode, he⟩ := mem_flatMap.mp hmem
    obtain ⟨route, -, rfl⟩ := mem_map.mp he
    rw [Option.map_some, Option.bind_some,
      resolveCandidate_indexedRoute hids hactive hactiveIds hnode, if_pos husable]
    rfl

lemma contains_trunc (cidr : IpNet) : cidr.trunc.contains destination = cidr.contains destination := by
  match cidr, destination with
  | .v4 _, .v4 _ | .v6 _, .v6 _ => exact Net.contains_trunc
  | .v4 _, .v6 _ | .v6 _, .v4 _ => rfl

lemma contains_v4Net (address : BitVec 32) :
    ((indexedRoute node route).v4Net.any (·.contains address) = route.cidr.contains (.v4 address)) ∧
      ((indexedRoute node route).v4Net.isSome → level v4Net
        (indexedRoute node route) = route.cidr.prefixLen) := by
  rw [← contains_trunc, level, v4Net, indexedRoute]
  cases route.cidr with
  | v4 net => exact ⟨rfl, fun _ => rfl⟩
  | v6 net => exact ⟨rfl, fun h => by cases h⟩

lemma contains_v6Net (address : BitVec 128) :
    ((indexedRoute node route).v6Net.any (·.contains address) = route.cidr.contains (.v6 address)) ∧
      ((indexedRoute node route).v6Net.isSome → level v6Net
        (indexedRoute node route) = route.cidr.prefixLen) := by
  rw [← contains_trunc, level, v6Net, indexedRoute]
  cases route.cidr with
  | v4 net => exact ⟨rfl, fun h => by cases h⟩
  | v6 net => exact ⟨rfl, fun _ => rfl⟩

lemma resolveOwner_eq (hids : (nodes.map NodeRecord.nodeId).Nodup) (hactive : activeNodes ⊆ nodes)
    (hactiveIds : (activeNodes.map NodeRecord.nodeId).Nodup) (hnode : node ∈ nodes) :
    resolveOwner source activeNodes (activeNodesById activeNodes) policy node.nodeId =
      if node ∈ activeNodes ∧ node.nodeId ≠ source.nodeId ∧
          (policy.aclRules = [] ∨ aclAllowsPeer source node policy) then
        some (if policy.aclRules = [] then node
          else { node with routes := node.routes.filter (aclAllowsRoute source node policy) })
      else none := by
  rw [resolveOwner, activeNode_self hids hactive hactiveIds hnode]
  by_cases hmem : node ∈ activeNodes
  · by_cases hsource : node.nodeId = source.nodeId
    · simp [hmem, hsource]
    · by_cases hrules : policy.aclRules = []
      · simp [hmem, hsource, hrules]
      · by_cases hallowed : aclAllowsPeer source node policy = true
        · simp [hmem, hsource, hrules, hallowed, aclFilterPeer_of_allowed hrules hallowed]
        · simp [hmem, hsource, hrules, hallowed]
  · simp [hmem]

/-- The index resolves a destination as a scan of all nodes and routes does; if nobody owns the destination,
it is in the one route of the answer. -/
theorem resolve_build (nodes activeNodes : List NodeRecord) (source : NodeRecord)
    (destination : IpAddr) (policy : ClusterPolicy) (hids : (nodes.map NodeRecord.nodeId).Nodup)
    (hactive : activeNodes ⊆ nodes) (hactiveIds : (activeNodes.map NodeRecord.nodeId).Nodup) :
    (build nodes).resolveDestination source activeNodes (activeNodesById activeNodes) destination
        policy = naiveDestination nodes activeNodes source destination policy ∧
    (ownerOf nodes destination = none → ∀ answer,
      (build nodes).resolveDestination source activeNodes (activeNodesById activeNodes) destination
        policy = some answer →
      ∃ route, answer.routes = [route] ∧ route.cidr.contains destination = true) := by
  refine (and_iff_left_of_imp fun hresolve howner answer hanswer => ?_).mpr ?_
  · rw [hresolve, naiveDestination, howner] at hanswer
    obtain ⟨e, hbest, rfl⟩ := Option.map_eq_some_iff.mp hanswer
    obtain ⟨hcontains, -⟩ := Bool.and_eq_true_iff.mp (List.mem_filter.mp (List.argmin_mem hbest)).2
    refine ⟨_, rfl, ?_⟩
    rw [answerRoute]
    split_ifs
    · rw [contains_trunc]
      exact hcontains
    · cases destination with
      | v4 address | v6 address => exact Net.contains_addr _
  · unfold resolveDestination naiveDestination
    rw [vpnOwnerByIp_build]
    cases howner : ownerOf nodes destination with
    | some owner =>
      have hnode : owner ∈ nodes := (List.mem_filter.mp (List.argmin_mem howner)).1
      exact resolveOwner_eq hids hactive hactiveIds hnode
    | none =>
      obtain ⟨h4, h6⟩ := tables_build nodes
      cases destination with
      | v4 address =>
        simp only [Option.map_none, ipv4PrefixKey_eq, h4]
        exact resolve_table (fun _ _ => (contains_v4Net address).1)
          (fun _ _ => (contains_v4Net address).2) hids hactive hactiveIds
      | v6 address =>
        simp only [Option.map_none, ipv6PrefixKey_eq, h6]
        exact resolve_table (fun _ _ => (contains_v6Net address).1)
          (fun _ _ => (contains_v6Net address).2) hids hactive hactiveIds

end Resolve

namespace SampleIndex

open SampleAcl (policy)

def node (name : String) (ip : BitVec 32) (routes : List (String × Ipv4Net × UInt32)) : NodeRecord :=
  { sampleNode with
    nodeId := ⟨name⟩
    vpnIp := .v4 ip
    routes := routes.map fun e => ⟨e.1, .v4 e.2.1, ⟨name⟩, none, e.2.2, ∅⟩ }

def nodes : List NodeRecord :=
  [node "d" 4 [("wide", ⟨0x0a000000#32, 8⟩, 1)], node "c" 3 [("lan", ⟨0x0a010000#32, 16⟩, 5)],
    node "b" 2 [("lan", ⟨0x0a010000#32, 16⟩, 9)], node "a" 1 []]

theorem resolve_build_fallback :
    ((OverlayRouteIndex.build nodes).resolveDestination (node "a" 1 [])
      (nodes.eraseIdx 1) (activeNodesById (nodes.eraseIdx 1)) (.v4 0x0a010203#32) (policy [])).map
        (fun answer => (answer.nodeId, answer.routes.map Route.cidr)) =
      some (⟨"b"⟩, [.v4 ⟨0x0a010000#32, 16⟩]) := by
  rw [(resolve_build nodes (nodes.eraseIdx 1) (node "a" 1 []) (.v4 0x0a010203#32) (policy [])
    (by decide +kernel) (List.eraseIdx_subset) (by decide +kernel)).1]
  decide +kernel

end SampleIndex

end ControlPlane

end HeteroNetwork
