import HeteroNetwork.Lib.Ranking
import HeteroNetwork.ControlPlane.RouteIndex

/-!
# Placement of Keycloak replicas

The nodes that run Keycloak are the first candidates in a ranking.  A candidate that comes or goes moves the
others by one place at most, so a placement changes by one replica at most.
-/

namespace HeteroNetwork.ControlPlane

open Ranking

structure KeycloakCandidateLease where
  clusterId : ClusterId
  nodeId : NodeId
  vpnIp : IpAddr
  version : String
  ready : Bool
  eligible : Bool
  generation : ℤ
  leaseExpiresAt : Timestamp
  updatedAt : Timestamp
deriving DecidableEq

structure KeycloakPlacement where
  placementId : String
  replicas : List KeycloakCandidateLease
deriving DecidableEq

section Selection

variable (sha256 : List UInt8 → List UInt8) (clusterId : ClusterId)

def keycloakScore (candidate : KeycloakCandidateLease) : List UInt8 :=
  sha256 (utf8 "heteronetwork-keycloak-placement-v1" ++ [0] ++ utf8 clusterId.asStr ++ [0] ++
    candidate.nodeId.asBytes)

def keycloakOrder : KeycloakCandidateLease → KeycloakCandidateLease → Ordering :=
  compareLex (fun left right => compare right.ready left.ready)
    (byScore (keycloakScore sha256 clusterId) KeycloakCandidateLease.nodeId)

def keycloakPlacementId (replicas : List KeycloakCandidateLease) : String :=
  let digest := sha256 (utf8 "heteronetwork-keycloak-placement-id-v1" ++ [0] ++ utf8 clusterId.asStr ++
    replicas.flatMap fun replica => 0 :: replica.nodeId.asBytes)
  String.join (digest.map fun byte => hexPadded 2 byte.toNat)

def selectKeycloakCandidates (candidates : List KeycloakCandidateLease) (desiredReplicas : ℕ) :
    KeycloakPlacement :=
  let replicas := sortBy (compareOn KeycloakCandidateLease.nodeId)
    (top (keycloakOrder sha256 clusterId) desiredReplicas candidates)
  ⟨keycloakPlacementId sha256 clusterId replicas, replicas⟩

instance : Std.TransCmp (keycloakOrder sha256 clusterId) :=
  haveI : Std.TransCmp fun (left right : KeycloakCandidateLease) => compare right.ready left.ready :=
    @Std.TransCmp.opposite _ (compareOn KeycloakCandidateLease.ready) inferInstance
  inferInstanceAs (Std.TransCmp (compareLex _ _))

end Selection

section Stability

variable {sha256 : List UInt8 → List UInt8} {clusterId : ClusterId}
  {candidates : List KeycloakCandidateLease} {desiredReplicas : ℕ} {candidate : KeycloakCandidateLease}

lemma separates_keycloakOrder (h : (candidates.map KeycloakCandidateLease.nodeId).Nodup) :
    Separates (keycloakOrder sha256 clusterId) candidates :=
  .of_nodup (fun _ _ heq => key_eq_of_byScore _ _ (Ordering.then_eq_eq.mp heq).2) h

lemma replicas_perm : (selectKeycloakCandidates sha256 clusterId candidates desiredReplicas).replicas.Perm
    (top (keycloakOrder sha256 clusterId) desiredReplicas candidates) :=
  sortBy_perm

lemma mem_replicas : candidate ∈
    (selectKeycloakCandidates sha256 clusterId candidates desiredReplicas).replicas ↔
      candidate ∈ top (keycloakOrder sha256 clusterId) desiredReplicas candidates :=
  replicas_perm.mem_iff

lemma select_congr {candidates' : List KeycloakCandidateLease}
    (h : top (keycloakOrder sha256 clusterId) desiredReplicas candidates =
      top (keycloakOrder sha256 clusterId) desiredReplicas candidates') :
    selectKeycloakCandidates sha256 clusterId candidates desiredReplicas =
      selectKeycloakCandidates sha256 clusterId candidates' desiredReplicas := by
  rw [selectKeycloakCandidates, selectKeycloakCandidates, h]

lemma ready_of_isLE {left right : KeycloakCandidateLease}
    (h : (keycloakOrder sha256 clusterId left right).isLE) (hready : right.ready = true) :
    left.ready = true := by
  have hle : (compare right.ready left.ready).isLE := (Ordering.isLE_then_iff_and.mp h).1
  rw [hready] at hle
  cases hleft : left.ready with
  | false =>
    rw [hleft] at hle
    cases hle
  | true => rfl

lemma length_kept {added : KeycloakCandidateLease}
    (hdistinct : ((added :: candidates).map KeycloakCandidateLease.nodeId).Nodup) :
    min desiredReplicas candidates.length - 1 ≤
      ((selectKeycloakCandidates sha256 clusterId candidates desiredReplicas).replicas.filter (· ∈
        (selectKeycloakCandidates sha256 clusterId (added :: candidates) desiredReplicas).replicas)).length := by
  have hnodup : (added :: candidates).Nodup := hdistinct.of_map
  have hsep := @separates_keycloakOrder sha256 clusterId _ hdistinct
  -- Without the new candidate the list is the one before.
  have hbefore : (added :: candidates).filter (· != added) = candidates := by
    rw [← hnodup.erase_eq_filter, List.erase_cons_head]
  have hkept : ((top (keycloakOrder sha256 clusterId) desiredReplicas (added :: candidates)).erase
      added).length ≤ ((selectKeycloakCandidates sha256 clusterId candidates
        desiredReplicas).replicas.filter (· ∈ (selectKeycloakCandidates sha256 clusterId
          (added :: candidates) desiredReplicas).replicas)).length := by
    refine (List.subperm_of_subset ((nodup_top hnodup).erase added) fun other hother => ?_).length_le
    rw [(nodup_top hnodup).mem_erase_iff] at hother
    have hstays := @mem_top_filter _ _ _ _ _ (· != added) _ hsep hother.2 (bne_iff_ne.mpr hother.1)
    rw [hbefore] at hstays
    rw [List.mem_filter, decide_eq_true_eq, mem_replicas, mem_replicas]
    exact ⟨hstays, hother.2⟩
  have hlength : min desiredReplicas (candidates.length + 1) - 1 ≤
      ((top (keycloakOrder sha256 clusterId) desiredReplicas (added :: candidates)).erase added).length := by
    simpa using List.le_length_erase (a := added)
      (l := top (keycloakOrder sha256 clusterId) desiredReplicas (added :: candidates))
  omega

lemma select_erase {removed : KeycloakCandidateLease}
    (hdistinct : (candidates.map KeycloakCandidateLease.nodeId).Nodup) :
    (∀ replica ∈ (selectKeycloakCandidates sha256 clusterId candidates desiredReplicas).replicas,
      replica ≠ removed → replica ∈
        (selectKeycloakCandidates sha256 clusterId (candidates.erase removed) desiredReplicas).replicas) ∧
    ((selectKeycloakCandidates sha256 clusterId (candidates.erase removed)
        desiredReplicas).replicas.filter (· ∉
          (selectKeycloakCandidates sha256 clusterId candidates desiredReplicas).replicas)).length ≤ 1 := by
  have hnodup : candidates.Nodup := hdistinct.of_map
  have hsep := @separates_keycloakOrder sha256 clusterId _ hdistinct
  rw [hnodup.erase_eq_filter]
  constructor
  · intro replica hreplica hne
    rw [mem_replicas] at hreplica ⊢
    exact mem_top_filter hsep hreplica (bne_iff_ne.mpr hne)
  · have hgone : ((top (keycloakOrder sha256 clusterId) desiredReplicas candidates).filter
        fun other => !(other != removed)).length ≤ 1 := by
      have hcount := List.nodup_iff_count_le_one.mp
        (@nodup_top _ (keycloakOrder sha256 clusterId) _ desiredReplicas hnodup) removed
      simpa [List.count_eq_length_filter, bne] using hcount
    simp only [mem_replicas]
    rw [(replicas_perm.filter _).length_eq]
    exact (length_filter_notMem_top_le hsep).trans hgone

end Stability

namespace SampleKeycloak

def lease (name : String) (ready : Bool) : KeycloakCandidateLease :=
  ⟨⟨"cluster-keycloak"⟩, ⟨name⟩, .v4 0x0afa0001#32, "26.6.4", ready, true, 1, 45, 0⟩

def leases : List KeycloakCandidateLease := [lease "a" true, lease "b" false, lease "c" true]

end SampleKeycloak

end HeteroNetwork.ControlPlane
