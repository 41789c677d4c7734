import Zemo.Catalog.OneTruth
import Zemo.Channel.Outcomes
import Zemo.Cloud.Egress
import Zemo.Consent.SingleUse
import Zemo.Coordinator.AppendOnly
import Zemo.Coordinator.Approval
import Zemo.Coordinator.Idempotent
import Zemo.Coordinator.Lag
import Zemo.Coordinator.Offer
import Zemo.Coordinator.Scheduled
import Zemo.Coordinator.Staging
import Zemo.Desktop.FolderAccess
import Zemo.Domain.FileJournal
import Zemo.Domain.HexText
import Zemo.ExecutorV2.Framing
import Zemo.Extraction.MatroskaVideos
import Zemo.Extraction.Paragraphs
import Zemo.Extraction.ParserWorker
import Zemo.Extraction.SheetNames
import Zemo.Extraction.VideoFaults
import Zemo.Knowledge.Offsets
import Zemo.Knowledge.Reentry
import Zemo.Monitoring.GapOutcome
import Zemo.Monitoring.NoEventLost
import Zemo.Organizer.FittedPaths
import Zemo.Organizer.SmallGroups
import Zemo.Organizer.StoredRevision
import Zemo.Organizer.Taxonomy
import Zemo.Organizer.UserDecides
import Zemo.Organizer.WholeFolders
import Zemo.Persistence.Retention
import Zemo.Persistence.SqlScript
import Zemo.Plan.Staging
import Zemo.Rules.Store
import Zemo.Search.ChunkCoverage
import Zemo.Search.ModelInstall
import Zemo.Search.Reindexing
import Zemo.Search.SameAmount
import Zemo.Search.ShownMatch
import Zemo.Semantic.Drift
import Zemo.Simulation.AcceptedOnly
import Zemo.Watcher.NoChangeLost
import Zemo.Watcher.Polling
import Zemo.Worker.NativeRename
