import Wenlan.Claims.DerivationFence
import Wenlan.Claims.OffsetMap
import Wenlan.Claims.Reconcile
import Wenlan.Claims.SupportLocators
import Wenlan.Maintenance.OrphanLease
import Wenlan.Maintenance.StartupRuns
import Wenlan.Relay.BoundedStore
import Wenlan.Relay.MaintenanceSafety
import Wenlan.Relay.PairingRuns
import Wenlan.Reverse.Streaming
import Wenlan.Genesis.CasHistory
import Wenlan.Genesis.FrontierScan
import Wenlan.Genesis.ObservedClaims
import Wenlan.Community.Cartography
import Wenlan.Community.Connectivity
import Wenlan.Community.GroupingAtomic
import Wenlan.Community.Prediction
import Wenlan.Community.RebindStability
import Wenlan.Chunking.Code
import Wenlan.Citations.Backfill
import Wenlan.Editor.AutosaveSafety
import Wenlan.Editor.MemoryWrites
import Wenlan.Editor.WordDiff
import Wenlan.Imports.CurrentBranch
import Wenlan.Imports.WholeConversations
import Wenlan.Okf.Recovery
import Wenlan.Outbox.DrainRuns
import Wenlan.Pages.DraftRuns
import Wenlan.Pages.MapEdges
import Wenlan.Presence.ReviewSafety
import Wenlan.Projection.ExternalEdits
import Wenlan.Projection.Index
import Wenlan.Projection.MoveRuns
import Wenlan.Retrieval.Capping
import Wenlan.Retrieval.FtsQuery
import Wenlan.Retrieval.Traversal
import Wenlan.Spaces.Rehoming
import Wenlan.Temporal.CueTotality
import Wenlan.Temporal.GroundingIdempotent
import Wenlan.Truth.Ceremony
import Wenlan.Updates.NamedVersion
import Wenlan.Updates.VersionsAgree
