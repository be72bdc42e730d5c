import HeteroNetwork.Types

/-!
# Errors of the control plane

The variants of `ControlPlaneError` that the modelled functions return.  Times are counted in
nanoseconds, the resolution of `chrono::DateTime<Utc>`.
-/

namespace HeteroNetwork

/-- `chrono::DateTime<Utc>`, in nanoseconds. -/
abbrev Timestamp := ℤ

def seconds (n : ℤ) : ℤ := n * 1000000000

inductive TokenStatus where
  | active
  | revoked
  | expired
  | exhausted
deriving DecidableEq

inductive ControlPlaneError where
  | httpMeshCapacity
  | vpnPoolExhausted
  | vpnIpAlreadyAllocated (vpnIp : IpAddr)
  | nodeAlreadyExists (nodeId : NodeId)
  | nodeSignatureRequired (nodeId : NodeId)
  | nodeSignatureRejected (nodeId : NodeId) (reason : String)
  | nodeRequestReplay (nodeId : NodeId)
  | nodeRequestAuthenticationCapacity
  | nodeUpdateRejected (nodeId : NodeId) (reason : String)
  | nodeNotFound (nodeId : NodeId)
  | clusterPolicyChanged
  | overlayRouteCatalogChanged
  | nodeStateChanged (nodeId : NodeId)
  | relayDenied
  | tokenRejected (nonce : String) (status : TokenStatus)
  | tokenVerification (reason : String)
  | store (reason : String)
deriving DecidableEq

end HeteroNetwork
