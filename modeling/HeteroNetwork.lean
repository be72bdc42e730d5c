import HeteroNetwork.ControlPlane.Topology.Partition
import HeteroNetwork.ControlPlane.Topology.Placements
import HeteroNetwork.ControlPlane.Topology.NextHops
import HeteroNetwork.ControlPlane.Topology.Diameter
import HeteroNetwork.DnsNames
import HeteroNetwork.Headless.KernelRoutes
import HeteroNetwork.Headless.PacketSlots
import HeteroNetwork.Agent.ReplayRecency
import HeteroNetwork.Agent.OverlayNetwork
import HeteroNetwork.Agent.EngineEpochs
import HeteroNetwork.Agent.PeerSequences
import HeteroNetwork.ControlPlane.ManifestHistory
import HeteroNetwork.Quorum.Encoding
import HeteroNetwork.Quorum.Signer
import HeteroNetwork.Quorum.LocalSudo
import HeteroNetwork.ControlPlane.Heartbeats
import HeteroNetwork.Agent.ReassemblyFaults
import HeteroNetwork.Relay.AddressLearning
import HeteroNetwork.Relay.Announcements
import HeteroNetwork.ControlPlane.VpnAllocation
import HeteroNetwork.Signal.Negotiation
import HeteroNetwork.Signal.Members
import HeteroNetwork.Tunnel.Batches
import HeteroNetwork.ControlPlane.ClientProjection
import HeteroNetwork.ControlPlane.KeycloakPlacement
import HeteroNetwork.Kubernetes.PublicIngress
