import HeteroNetwork.ControlPlane.Acl

/-!
# Access rules of the signal service

The signal service reads the rules of the control plane with a matcher of its own: a rule has to contain a
requested prefix, whether it allows or denies.  So a denying rule inside a requested prefix stops only the
control plane.
-/

namespace HeteroNetwork

open Checked DenyOverrides ControlPlane

namespace Signal

inductive SignalError where
  | nodeNotFound (nodeId : NodeId)
  | candidateOwnerMismatch (nodeId candidateNodeId : NodeId)
  | candidateInvalid (nodeId : NodeId) (kind : EndpointCandidateKind) (addr : SocketAddr)
      (reason : String)
  | natClassificationInvalid (nodeId : NodeId) (reason : String)
  | desiredRouteInvalid (nodeId : NodeId) (route : IpNet) (reason : String)
  | pathQualityObservationInvalid (sourceNode targetNode : NodeId) (reason : String)
deriving DecidableEq

section Functions

variable (rule : AclRule) (source target : ControlPlane.NodeRecord) (policy : ClusterPolicy)

/-- One turn of the loop below; `seen` are the routes before this one. -/
def validateDesiredRoute (seen : Finset IpNet) (route : IpNet) :
    Except SignalError (Finset IpNet) := do
  rejectIf (route ≠ route.trunc)
    (.desiredRouteInvalid target.nodeId route "route CIDR must be canonical")
  rejectIf (route ∈ seen)
    (.desiredRouteInvalid target.nodeId route "desired routes must not repeat CIDR")
  rejectIf (¬target.routes.any fun advertised =>
      advertised.advertisedBy = target.nodeId && ipnetContains advertised.cidr route)
    (.desiredRouteInvalid target.nodeId route "route is not advertised by target")
  pure (insert route seen)

def validateDesiredRoutes (desiredRoutes : List IpNet) : Except SignalError Unit :=
  (fun _ => ()) <$> desiredRoutes.foldlM (validateDesiredRoute target) ∅

def aclRuleMatches (route : Option IpNet) : Bool :=
  if rule.protocol ≠ .any then false
  else if rule.fromRoles.Nonempty ∧ source.role ∉ rule.fromRoles then false
  else if rule.toRoles.Nonempty ∧ target.role ∉ rule.toRoles then false
  else if rule.fromTags.Nonempty ∧ Disjoint rule.fromTags source.tags then false
  else if rule.toTags.Nonempty ∧ Disjoint rule.toTags target.tags then false
  else match route with
    | some route => rule.routes.isEmpty || rule.routes.any fun allowed => ipnetContains allowed route
    | none => rule.routes.isEmpty

def aclDecision (route : Option IpNet) : Option Bool :=
  scan (aclRuleMatches · source target route) AclRule.isDeny none policy.aclRules

def aclAllowsPeer : Bool :=
  if policy.aclRules.isEmpty then true
  else (aclDecision source target policy none).getD false

def aclAllowsPath (desiredRoutes : List IpNet) : Bool :=
  if desiredRoutes.isEmpty then aclAllowsPeer source target policy
  else if policy.aclRules.isEmpty then true
  else desiredRoutes.all fun route => (aclDecision source target policy (some route)).getD false

/-- The rule is about the pair, and about the whole prefix. -/
def covers (cidr : IpNet) : Bool :=
  aclRuleMatchesNodeSelectors rule source target &&
    (rule.routes.isEmpty || rule.routes.any fun ruleRoute => ipnetContains ruleRoute cidr)

/-- The rule is about the pair, and about a part of the prefix. -/
def pierces (cidr : IpNet) : Bool :=
  aclRuleMatchesNodeSelectors rule source target &&
    rule.routes.any fun ruleRoute => ipnetContains cidr ruleRoute

end Functions

/-! ## The two matchers -/

section Compare

variable {rule : AclRule} {source target : ControlPlane.NodeRecord} {policy : ClusterPolicy}
  {route : ControlPlane.Route}

lemma aclRuleMatches_some {cidr : IpNet} :
    aclRuleMatches rule source target (some cidr) = covers rule source target cidr := by
  simp only [aclRuleMatches, covers, aclRuleMatchesNodeSelectors]
  split_ifs <;> rfl

lemma aclRuleMatches_none :
    aclRuleMatches rule source target none = ControlPlane.aclRuleMatches rule source target none := by
  have hselect : aclRuleMatches rule source target none =
      (aclRuleMatchesNodeSelectors rule source target && rule.routes.isEmpty) := by
    simp only [aclRuleMatches, aclRuleMatchesNodeSelectors]
    split_ifs <;> rfl
  rw [hselect, ControlPlane.aclRuleMatches]
  cases aclRuleMatchesNodeSelectors rule source target with
  | false | true => rfl

lemma controlPlane_matches_iff :
    ControlPlane.aclRuleMatches rule source target (some route) = true ↔
      covers rule source target route.cidr = true ∨
        rule.isDeny = true ∧ pierces rule source target route.cidr = true := by
  rw [ControlPlane.aclRuleMatches_some]
  simp only [covers, pierces, Bool.and_eq_true, Bool.or_eq_true, List.any_eq_true, ipnetsOverlap]
  cases rule.isDeny with
  | false => simp
  | true =>
    simp only [if_true, true_and, and_or_left, exists_or, or_assoc]

def Unpierced (source target : ControlPlane.NodeRecord) (policy : ClusterPolicy)
    (desiredRoutes : List IpNet) : Prop :=
  ∀ cidr ∈ desiredRoutes, ∀ rule ∈ policy.aclRules, rule.isDeny = true →
    pierces rule source target cidr = false

def Uncovered (source target : ControlPlane.NodeRecord) (policy : ClusterPolicy)
    (desiredRoutes : List IpNet) : Prop :=
  ∃ cidr ∈ desiredRoutes,
    (∃ rule ∈ policy.aclRules, rule.isDeny = true ∧ covers rule source target cidr = true) ∨
      ∀ rule ∈ policy.aclRules, rule.isDeny = false → covers rule source target cidr = false

lemma aclDecision_some_iff {cidr : IpNet} :
    (aclDecision source target policy (some cidr)).getD false = true ↔
      (∃ rule ∈ policy.aclRules, covers rule source target cidr = true ∧ rule.isDeny = false) ∧
        ∀ rule ∈ policy.aclRules, covers rule source target cidr = true → rule.isDeny = false := by
  rw [aclDecision, scan_getD_iff]
  simp [aclRuleMatches_some]

lemma aclAllowsPath_iff {desiredRoutes : List IpNet} (hrules : policy.aclRules ≠ [])
    (hroutes : desiredRoutes ≠ []) :
    aclAllowsPath source target policy desiredRoutes = true ↔
      ¬Uncovered source target policy desiredRoutes := by
  rw [aclAllowsPath, if_neg (by simpa using hroutes), if_neg (by simpa using hrules),
    List.all_eq_true]
  simp only [aclDecision_some_iff, Uncovered, not_exists, not_and, not_or, Bool.not_eq_true, not_forall]
  refine forall₂_congr fun cidr hcidr => ?_
  constructor
  · rintro ⟨⟨rule, hrule, hcovers, hallow⟩, hnone⟩
    refine ⟨fun rule hrule hdeny => ?_, rule, hrule, hallow, by simpa using hcovers⟩
    by_contra hcovers
    rw [hnone rule hrule (by simpa using hcovers)] at hdeny
    cases hdeny
  · rintro ⟨hnone, rule, hrule, hallow, hcovers⟩
    refine ⟨⟨rule, hrule, by simpa using hcovers, hallow⟩, fun rule hrule hcovers => ?_⟩
    by_contra hdeny
    rw [hnone rule hrule (by simpa using hdeny)] at hcovers
    cases hcovers

lemma aclAllowsRoute_iff
    (hgranted : (aclDecision source target policy (some route.cidr)).getD false = true) :
    aclAllowsRoute source target policy route = true ↔
      ∀ rule ∈ policy.aclRules, rule.isDeny = true → pierces rule source target route.cidr = false := by
  obtain ⟨⟨allowing, hmem, hcovers, hallow⟩, hnone⟩ := aclDecision_some_iff.mp hgranted
  have hverdict : aclAllowsRoute source target policy route = true ↔ _ := scan_getD_iff
  rw [hverdict]
  constructor
  · rintro ⟨-, hdenials⟩ rule hrule hdeny
    by_contra hpierces
    rw [hdenials rule hrule
      (controlPlane_matches_iff.mpr (.inr ⟨hdeny, by simpa using hpierces⟩))] at hdeny
    cases hdeny
  · intro hunpierced
    refine ⟨.inr ⟨allowing, hmem, controlPlane_matches_iff.mpr (.inl hcovers), hallow⟩, ?_⟩
    intro rule hrule hmatches
    rcases controlPlane_matches_iff.mp hmatches with hcovers | ⟨hdeny, hpierces⟩
    · exact hnone rule hrule hcovers
    · rw [hunpierced rule hrule hdeny] at hpierces
      cases hpierces

/-- The signal service grants only what the control plane grants exactly if the rules that cover a requested
prefix refuse it or no denying rule lies inside one.  About peers the two always agree. -/
theorem signal_path_enforces_iff (source target : ControlPlane.NodeRecord) (policy : ClusterPolicy)
    (desiredRoutes : List IpNet) (hrules : policy.aclRules ≠ [])
    (hsource : source.isAdministrativelyStopped = false)
    (htarget : target.isAdministrativelyStopped = false) (hroutes : desiredRoutes ≠ []) :
    ((aclAllowsPath source target policy desiredRoutes = true →
        ∀ route : ControlPlane.Route, route.cidr ∈ desiredRoutes →
          aclAllowsRoute source target policy route = true) ∧
      aclAllowsPeer source target policy = ControlPlane.aclAllowsPeer source target policy) ↔
    (Uncovered source target policy desiredRoutes ∨ Unpierced source target policy desiredRoutes) := by
  have hpeer : aclAllowsPeer source target policy =
      ControlPlane.aclAllowsPeer source target policy := by
    rw [aclAllowsPeer, if_neg (by simpa using hrules), ControlPlane.aclAllowsPeer, hsource, htarget,
      aclDecision, ControlPlane.aclDecision]
    simp only [aclRuleMatches_none, Bool.or_self, Bool.false_eq_true, if_false]
  have hdecisions : aclAllowsPath source target policy desiredRoutes = true →
      ∀ cidr ∈ desiredRoutes, (aclDecision source target policy (some cidr)).getD false = true := by
    rw [aclAllowsPath, if_neg (by simpa using hroutes), if_neg (by simpa using hrules)]
    exact fun h => List.all_eq_true.mp h
  constructor
  · rintro ⟨henforced, -⟩
    by_cases hgranted : aclAllowsPath source target policy desiredRoutes = true
    · right
      intro cidr hcidr
      let route : ControlPlane.Route := ⟨"", cidr, target.nodeId, none, 0, ∅⟩
      exact (@aclAllowsRoute_iff _ _ _ route (hdecisions hgranted cidr hcidr)).mp
        (henforced hgranted route hcidr)
    · left
      by_contra huncovered
      exact hgranted ((aclAllowsPath_iff hrules hroutes).mpr huncovered)
  · rintro hcondition
    refine ⟨fun hgranted route hroute => ?_, hpeer⟩
    rcases hcondition with huncovered | hunpierced
    · exact absurd huncovered ((aclAllowsPath_iff hrules hroutes).mp hgranted)
    · exact (aclAllowsRoute_iff (hdecisions hgranted route.cidr hroute)).mpr
        (hunpierced route.cidr hroute)

end Compare

namespace SampleSignal

open ControlPlane.SampleAcl (rules policy rule)

def wide : IpNet := .v4 ⟨0x0a000000#32, 8⟩

def narrow : IpNet := .v4 ⟨0x0a020000#32, 16⟩

def target : ControlPlane.NodeRecord :=
  { sampleNode with routes := [⟨"wide", wide, sampleNode.nodeId, none, 1, ∅⟩] }

/-- A path to all of `10.0.0.0/8` is granted although the control plane denies `10.1.0.0/16`. -/
theorem signal_grants_denied_route :
    (policy rules).aclRules ≠ [] ∧ sampleNode.isAdministrativelyStopped = false ∧
    target.isAdministrativelyStopped = false ∧ validateDesiredRoutes target [wide] = .ok () ∧
    aclAllowsPath sampleNode target (policy rules) [wide] = true ∧
    aclAllowsRoute sampleNode target (policy rules) ⟨"wide", wide, target.nodeId, none, 1, ∅⟩ =
      false := by
  decide +kernel

theorem signal_path_enforces_iff_narrow :
    validateDesiredRoutes target [narrow] = .ok () ∧
    aclAllowsPath sampleNode target (policy rules) [narrow] = true ∧
    aclAllowsRoute sampleNode target (policy rules) ⟨"narrow", narrow, target.nodeId, none, 1, ∅⟩ =
      true := by
  have hpath : aclAllowsPath sampleNode target (policy rules) [narrow] = true := by decide +kernel
  have hunpierced : Unpierced sampleNode target (policy rules) [narrow] := by
    unfold Unpierced
    decide +kernel
  have henforces := (signal_path_enforces_iff sampleNode target (policy rules) [narrow]
    (by decide +kernel) (by decide +kernel) (by decide +kernel) (by decide +kernel)).mpr
      (.inr hunpierced)
  exact ⟨by decide +kernel, hpath, henforces.1 hpath _ (by decide +kernel)⟩

end SampleSignal

end Signal

end HeteroNetwork
