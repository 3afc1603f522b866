import HologramLive.Oci.TagInvariant
import HologramLive.Oci.Isolation
import HologramLive.Registry.AnonymousTokens
import HologramLive.Oci.Interleavings
import HologramLive.Holo.Packaging
import HologramLive.Artifact.Completeness
import HologramLive.Buckets.RecipeAgreement
import HologramLive.Buckets.OctreeSharing
import HologramLive.Watch.Builds
import HologramLive.Sessions.Lifecycle
import HologramLive.Rpc.Routing
import HologramLive.Daemon.Exclusion
import HologramLive.Tls.Watcher
import HologramLive.Desktop.Restoring
import HologramLive.Chat.SessionContext
import HologramLive.Inference.Upstream
import HologramLive.Models.Integrity
import HologramLive.Rpc.Fidelity
import HologramLive.Registry.Pagination
import HologramLive.Names.Tells
import HologramLive.Holo.ViewPaths
import HologramLive.Oci.Removal
import HologramLive.Cluster.Pins
import HologramLive.Cluster.Transports
import HologramLive.Cluster.Provenance
import HologramLive.Holo.PlanBounds
import HologramLive.Watch.Calls
import HologramLive.Holo.StorageWrites
import HologramLive.Hub.RangeAnswers
import HologramLive.Daemon.SelfUpdate
import HologramLive.Daemon.Plugins
import HologramLive.Buckets.SealedNames
import HologramLive.Registry.Quantities
import HologramLive.Tensors.Pickle
import HologramLive.Daemon.Endpoints
import HologramLive.Holo.StorageGraph
import HologramLive.Artifact.Resume
import HologramLive.Registry.Escapes
import HologramLive.Oci.Grammars
import HologramLive.Cluster.Preimages
import HologramLive.Oci.RowKeys
import HologramLive.Registry.BlobRanges
import HologramLive.Registry.LoginMemory
import HologramLive.Oci.BlameExact
import HologramLive.Oci.ImportFixpoint
import HologramLive.Oci.UploadFaults
import HologramLive.Cluster.Ownership
import HologramLive.Objects.Streaming
import HologramLive.Registry.Timestamps
import HologramLive.Modules.Resolution
import HologramLive.Cluster.Evictions
import HologramLive.Cluster.Rotation
import HologramLive.Objects.Paging
import HologramLive.Cluster.Conversations
import HologramLive.Cluster.Deliveries
import HologramLive.Cluster.BlobMirror
import HologramLive.Oci.Transfers
