import HeteroNetwork.Lib.DenyOverrides
import HeteroNetwork.ControlPlane.Records

/-!
# Access rules of the control plane

A policy's rules decide about peers, about advertised routes and about single destinations.  For a route, a
rule that allows has to contain the prefix and a rule that denies only has to overlap it; for a destination
both have to contain it.
-/

namespace HeteroNetwork

open DenyOverrides

/-! ## Prefixes -/

def ipnetContains : IpNet → IpNet → Bool
  | .v4 outer, .v4 inner => outer.prefixLen ≤ inner.prefixLen && outer.contains inner.addr
  | .v6 outer, .v6 inner => outer.prefixLen ≤ inner.prefixLen && outer.contains inner.addr
  | _, _ => false

def ipnetsOverlap (left right : IpNet) : Bool := ipnetContains left right || ipnetContains right left

def IpNet.isHostRoute : IpNet → Bool
  | .v4 net => net.prefixLen = 32
  | .v6 net => net.prefixLen = 128

section Prefixes

variable {outer inner left right : IpNet} {addr : IpAddr}

lemma contains_of_ipnetContains (h : ipnetContains outer inner = true)
    (haddr : inner.contains addr = true) : outer.contains addr = true := by
  match outer, inner, addr with
  | .v4 _, .v4 _, .v4 _ | .v6 _, .v6 _, .v6 _ =>
    obtain ⟨hle, hcontains⟩ := Bool.and_eq_true_iff.mp h
    exact Cidr.Net.contains_of_contains (of_decide_eq_true hle) hcontains haddr
  | .v4 _, .v6 _, _ | .v6 _, .v4 _, _ => cases h
  | _, .v4 _, .v6 _ | _, .v6 _, .v4 _ => cases haddr

lemma overlap_of_common (hleft : left.contains addr = true) (hright : right.contains addr = true) :
    ipnetsOverlap left right = true := by
  have hnested : ∀ {w : ℕ} (n m : Cidr.Net w) {a : BitVec w}, n.contains a = true →
      m.contains a = true → (decide (n.prefixLen ≤ m.prefixLen) && n.contains m.addr ||
        decide (m.prefixLen ≤ n.prefixLen) && m.contains n.addr) = true := by
    intro w n m a hn hm
    rcases le_total n.prefixLen m.prefixLen with hle | hle
    · simp [hle, Cidr.Net.contains_addr_of_common hle hn hm]
    · simp [hle, Cidr.Net.contains_addr_of_common hle hm hn]
  match left, right, addr with
  | .v4 n, .v4 m, .v4 _ | .v6 n, .v6 m, .v6 _ => exact hnested n m hleft hright
  | .v4 _, _, .v6 _ | .v6 _, _, .v4 _ => cases hleft
  | _, .v4 _, .v6 _ | _, .v6 _, .v4 _ => cases hright

lemma host_contains_iff (hhost : inner.isHostRoute = true) (haddr : inner.contains addr = true) :
    (ipnetContains outer inner = true ↔ outer.contains addr = true) ∧
      (ipnetsOverlap outer inner = true ↔ outer.contains addr = true) := by
  have hcontains : ipnetContains outer inner = true ↔ outer.contains addr = true := by
    refine ⟨fun h => contains_of_ipnetContains h haddr, fun h => ?_⟩
    match outer, inner, addr with
    | .v4 _, .v4 m, .v4 _ | .v6 _, .v6 m, .v6 _ =>
      have hlen : m.prefixLen = Fin.last _ := of_decide_eq_true hhost
      rw [Cidr.Net.eq_addr_of_contains hlen haddr] at h
      exact Bool.and_eq_true_iff.mpr ⟨decide_eq_true (hlen ▸ Fin.le_last _), h⟩
    | .v4 _, _, .v6 _ | .v6 _, _, .v4 _ => cases h
    | _, .v4 _, .v6 _ | _, .v6 _, .v4 _ => cases haddr
  refine ⟨hcontains, ?_, fun h => overlap_of_common h haddr⟩
  intro h
  rcases Bool.or_eq_true_iff.mp h with h | h
  · exact hcontains.mp h
  · -- a prefix inside a host route is that host
    match outer, inner, addr with
    | .v4 n, .v4 m, .v4 _ | .v6 n, .v6 m, .v6 _ =>
      have hlen : m.prefixLen = Fin.last _ := of_decide_eq_true hhost
      obtain ⟨-, hm⟩ := Bool.and_eq_true_iff.mp h
      have hn := Cidr.Net.eq_addr_of_contains hlen hm
      have ha := Cidr.Net.eq_addr_of_contains hlen haddr
      rw [ha, ← hn]
      exact n.contains_addr
    | .v4 _, .v6 _, _ | .v6 _, .v4 _, _ => cases h
    | _, .v4 _, .v6 _ | _, .v6 _, .v4 _ => cases haddr

end Prefixes

namespace ControlPlane

section Rules

variable (rule : AclRule) (source target : NodeRecord) (policy : ClusterPolicy)

def aclRuleMatchesNodeSelectors : Bool :=
  if rule.protocol ≠ .any then false
  else if rule.fromRoles.Nonempty ∧ source.role ∉ rule.fromRoles then false
  else if rule.toRoles.Nonempty ∧ target.role ∉ rule.toRoles then false
  else if rule.fromTags.Nonempty ∧ Disjoint rule.fromTags source.tags then false
  else if rule.toTags.Nonempty ∧ Disjoint rule.toTags target.tags then false
  else true

def aclRuleMatches (route : Option Route) : Bool :=
  if !aclRuleMatchesNodeSelectors rule source target then false
  else match route with
    | some route => rule.routes.isEmpty || rule.routes.any fun ruleRoute =>
      match rule.action with
      | .allow => ipnetContains ruleRoute route.cidr
      | .deny => ipnetsOverlap ruleRoute route.cidr
    | none => rule.routes.isEmpty

def aclRuleMatchesDestination (destination : IpAddr) : Bool :=
  aclRuleMatchesNodeSelectors rule source target &&
    (rule.routes.isEmpty || rule.routes.any fun ruleRoute => ruleRoute.contains destination)

def AclRule.isDeny : Bool := rule.action = .deny

/-! ## Decisions -/

def aclDecision (route : Option Route) : Option Bool :=
  scan (aclRuleMatches · source target route) AclRule.isDeny none policy.aclRules

def aclAllowsPeer : Bool :=
  if source.isAdministrativelyStopped || target.isAdministrativelyStopped then false
  else (aclDecision source target policy none).getD false

def aclAllowsRoute (route : Route) : Bool :=
  (aclDecision source target policy (some route)).getD false

/-- The route is passed but not looked at. -/
def aclAllowsRouteDestination (_route : Route) (destination : IpAddr) : Bool :=
  (scan (aclRuleMatchesDestination · source target destination) AclRule.isDeny none
    policy.aclRules).getD false

def aclFilterPeer : Option NodeRecord :=
  if source.isAdministrativelyStopped || target.isAdministrativelyStopped then none
  else if policy.aclRules.isEmpty then some target
  else
    let routes := target.routes.filter (aclAllowsRoute source target policy)
    if !aclAllowsPeer source target policy && routes.isEmpty then none
    else some { target with routes := routes }

end Rules

lemma aclFilterPeer_of_allowed {source target : NodeRecord} {policy : ClusterPolicy}
    (hrules : policy.aclRules ≠ []) (h : aclAllowsPeer source target policy = true) :
    aclFilterPeer source target policy =
      some { target with routes := target.routes.filter (aclAllowsRoute source target policy) } := by
  have hrunning : (source.isAdministrativelyStopped || target.isAdministrativelyStopped) = false := by
    by_contra hstopped
    rw [Bool.not_eq_false] at hstopped
    rw [aclAllowsPeer, if_pos hstopped] at h
    cases h
  simp [aclFilterPeer, hrunning, hrules, h]

lemma aclFilterPeer_eq_some {source target visible : NodeRecord} {policy : ClusterPolicy}
    (h : aclFilterPeer source target policy = some visible) :
    ∃ routes, visible = { target with routes := routes } := by
  rw [aclFilterPeer] at h
  dsimp only at h
  split_ifs at h
  · exact ⟨target.routes, (Option.some.inj h).symm⟩
  · exact ⟨_, (Option.some.inj h).symm⟩

/-! ## Routes and destinations -/

section Granularity

variable {source target : NodeRecord} {policy : ClusterPolicy} {rule : AclRule} {route : Route}
  {destination : IpAddr}

lemma aclRuleMatches_some :
    aclRuleMatches rule source target (some route) = true ↔
      aclRuleMatchesNodeSelectors rule source target = true ∧ (rule.routes.isEmpty = true ∨
        ∃ ruleRoute ∈ rule.routes, if rule.isDeny then ipnetsOverlap ruleRoute route.cidr = true
          else ipnetContains ruleRoute route.cidr = true) := by
  cases hselect : aclRuleMatchesNodeSelectors rule source target with
  | false => simp [aclRuleMatches, hselect]
  | true =>
    cases haction : rule.action with
    | allow | deny => simp [aclRuleMatches, hselect, AclRule.isDeny, haction]

lemma aclRuleMatchesDestination_iff :
    aclRuleMatchesDestination rule source target destination = true ↔
      aclRuleMatchesNodeSelectors rule source target = true ∧ (rule.routes.isEmpty = true ∨
        ∃ ruleRoute ∈ rule.routes, ruleRoute.contains destination = true) := by
  simp [aclRuleMatchesDestination]

lemma matchesDestination_of_allow (hcontains : route.cidr.contains destination = true)
    (hallow : rule.isDeny = false) (h : aclRuleMatches rule source target (some route) = true) :
    aclRuleMatchesDestination rule source target destination = true := by
  obtain ⟨hselect, hempty | ⟨ruleRoute, hmem, hfits⟩⟩ := aclRuleMatches_some.mp h
  · exact aclRuleMatchesDestination_iff.mpr ⟨hselect, .inl hempty⟩
  · rw [hallow, if_neg Bool.false_ne_true] at hfits
    exact aclRuleMatchesDestination_iff.mpr
      ⟨hselect, .inr ⟨ruleRoute, hmem, contains_of_ipnetContains hfits hcontains⟩⟩

lemma matches_of_denied_destination (hcontains : route.cidr.contains destination = true)
    (hdeny : rule.isDeny = true) (h : aclRuleMatchesDestination rule source target destination = true) :
    aclRuleMatches rule source target (some route) = true := by
  obtain ⟨hselect, hempty | ⟨ruleRoute, hmem, hfits⟩⟩ := aclRuleMatchesDestination_iff.mp h
  · exact aclRuleMatches_some.mpr ⟨hselect, .inl hempty⟩
  · refine aclRuleMatches_some.mpr ⟨hselect, .inr ⟨ruleRoute, hmem, ?_⟩⟩
    rw [if_pos hdeny]
    exact overlap_of_common hfits hcontains

lemma aclRuleMatches_host (hhost : route.cidr.isHostRoute = true)
    (hcontains : route.cidr.contains destination = true) :
    aclRuleMatches rule source target (some route) =
      aclRuleMatchesDestination rule source target destination := by
  rw [Bool.eq_iff_iff, aclRuleMatches_some, aclRuleMatchesDestination_iff]
  have hfits : ∀ ruleRoute : IpNet, (if rule.isDeny then ipnetsOverlap ruleRoute route.cidr = true
      else ipnetContains ruleRoute route.cidr = true) ↔ ruleRoute.contains destination = true := by
    intro ruleRoute
    obtain ⟨hallow, hdeny⟩ := @host_contains_iff ruleRoute _ _ hhost hcontains
    split_ifs
    · exact hdeny
    · exact hallow
  simp only [hfits]

/-- A route is allowed only if each of its destinations is, a host route exactly then, and the order of
the rules does not matter. -/
theorem acl_granularities_agree (source target : NodeRecord) (policy : ClusterPolicy) (route : Route) :
    (aclAllowsRoute source target policy route = true → ∀ destination,
      route.cidr.contains destination = true →
        aclAllowsRouteDestination source target policy route destination = true) ∧
    (route.cidr.isHostRoute = true → ∀ destination, route.cidr.contains destination = true →
      (aclAllowsRoute source target policy route = true ↔
        aclAllowsRouteDestination source target policy route destination = true)) ∧
    ∀ policy' : ClusterPolicy, policy'.aclRules.Perm policy.aclRules →
      aclAllowsRoute source target policy' route = aclAllowsRoute source target policy route ∧
      (∀ destination, aclAllowsRouteDestination source target policy' route destination =
        aclAllowsRouteDestination source target policy route destination) ∧
      aclAllowsPeer source target policy' = aclAllowsPeer source target policy := by
  refine ⟨?_, ?_, ?_⟩
  · intro h destination hcontains
    exact verdict_mono (fun rule _ => matchesDestination_of_allow hcontains)
      (fun rule _ => matches_of_denied_destination hcontains) h
  · intro hhost destination hcontains
    rw [aclAllowsRoute, aclDecision, aclAllowsRouteDestination]
    simp only [aclRuleMatches_host hhost hcontains]
  · intro policy' hperm
    have hverdict : ∀ applies : AclRule → Bool,
        verdict applies AclRule.isDeny policy'.aclRules =
          verdict applies AclRule.isDeny policy.aclRules := fun _ => verdict_perm hperm
    refine ⟨hverdict _, fun destination => hverdict _, ?_⟩
    have hpeer : (aclDecision source target policy' none).getD false =
        (aclDecision source target policy none).getD false := hverdict _
    rw [aclAllowsPeer, hpeer, aclAllowsPeer]

end Granularity

namespace SampleAcl

def rule (action : AclAction) (routes : List IpNet) : AclRule :=
  ⟨"rule", ∅, ∅, ∅, ∅, routes, .any, action⟩

def policy (rules : List AclRule) : ClusterPolicy where
  allowIpv6Direct := true
  allowNatTraversal := true
  allowRelayFallback := true
  idleTimeoutSeconds := 0
  overlayBlockSize := 0
  overlayMaxDegree := 0
  overlayDirectShortcutLimit := 0
  overlayOnDemandPeerLimit := 0
  overlayRouteScopes := []
  relayHealthTtlSeconds := 0
  endpointCandidateTtlSeconds := 0
  pathStateTtlSeconds := 0
  pathQualityObservationTtlSeconds := 0
  natClassificationTtlSeconds := 0
  natClassificationMinConfidencePercent := 0
  pinnedRoles := ∅
  pinnedTags := ∅
  aclRules := rules

def rules : List AclRule :=
  [rule .allow [.v4 ⟨0x0a000000#32, 8⟩], rule .deny [.v4 ⟨0x0a010000#32, 16⟩]]

def route : Route := ⟨"lan", .v4 ⟨0x0a020000#32, 16⟩, ⟨"t"⟩, none, 1, ∅⟩

theorem acl_granularities_agree_lan :
    aclAllowsRouteDestination sampleNode sampleNode (policy rules) route (.v4 0x0a020304#32) = true ∧
    aclAllowsRoute sampleNode sampleNode (policy rules.reverse) route = true := by
  obtain ⟨hdestinations, -, hperm⟩ := acl_granularities_agree sampleNode sampleNode (policy rules) route
  have hroute : aclAllowsRoute sampleNode sampleNode (policy rules) route = true := by decide +kernel
  refine ⟨hdestinations hroute _ (by decide +kernel), ?_⟩
  rw [(hperm (policy rules.reverse) (List.reverse_perm rules)).1]
  exact hroute

end SampleAcl

end ControlPlane

end HeteroNetwork
