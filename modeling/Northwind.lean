import Northwind.Library.NewestPerKey
import Northwind.Sources.Disk
import Northwind.Library.Memos
import Northwind.Sources.Trees
import Northwind.FakeForce.Catalog
import Northwind.FakeForce.LatestVersionView
import Northwind.FakeForce.Compaction
import Northwind.FakeForce.CompactionRuns
import Northwind.FakeForce.CompactionReader
import Northwind.FakeForce.CursorPages
import Northwind.FakeForce.BulkJobs
import Northwind.FakeForce.BulkQueryParts
import Northwind.FakeForce.CursorPinning
import Northwind.Library.TieOrders
import Northwind.FakeForce.BulkQueryResume
import Northwind.Simulator.CrmEvents
import Northwind.Simulator.CrmPublisher
import Northwind.Simulator.CrmRestart
import Northwind.Simulator.CrmPlanner
import Northwind.Simulator.CrmSnapshot
import Northwind.Simulator.CrmCurrentRow
import Northwind.Simulator.CrmRuns
import Northwind.Library.Batches
import Northwind.FakeForce.IngestRows
import Northwind.FakeForce.BulkIngest
import Northwind.FakeForce.BulkIngestRuns
import Northwind.FakeForce.BulkIngestBatches
import Northwind.FakeForce.BulkIngestAborts
import Northwind.FakeForce.BulkIngestUploads
import Northwind.Library.StatusChains
import Northwind.Library.CrashPrograms
import Northwind.Simulator.SimulationState
import Northwind.Simulator.CompletionWatermark
import Northwind.Simulator.DayRecovery
import Northwind.Simulator.HistoryPartitions
import Northwind.Sources.Numbers
import Northwind.Sources.Instants
import Northwind.Simulator.BusinessEvents
import Northwind.Simulator.OpsPlanning
import Northwind.Simulator.OpsDatabase
import Northwind.Simulator.ErpPostings
import Northwind.Simulator.SourceRuns
import Northwind.Simulator.OpsApplied
import Northwind.Simulator.StatusHistories
import Northwind.Simulator.RecordedEvents
import Northwind.Simulator.ErpApplied
import Northwind.Simulator.SourceRunPhases
import Northwind.Simulator.EventJournal
import Northwind.Simulator.DayMoves
import Northwind.Library.VersionLog
import Northwind.Generator.MetadataRegistry
import Northwind.Generator.Migrations
import Northwind.Sources.Floats
import Northwind.Simulator.CrmMajority
import Northwind.Generator.HistoryBackfill
import Northwind.Generator.InferredSla
import Northwind.Simulator.PostingDays
import Northwind.FakeForce.SourceCache
import Northwind.Simulator.DayTraversal
import Northwind.Simulator.OpsEffects
import Northwind.Simulator.DayRuns
import Northwind.Simulator.StatusLifecycles
import Northwind.Simulator.PlacedOrders
import Northwind.Simulator.PlacedShipments
import Northwind.FakeForce.RateLimiter
import Northwind.FakeForce.JobTables
import Northwind.Library.CsvText
import Northwind.Library.CsvReading
import Northwind.Sources.Integers
import Northwind.FakeForce.BulkQueryResults
import Northwind.FakeForce.IngestFormats
import Northwind.FakeForce.IngestResults
import Northwind.FakeForce.Soql
import Northwind.FakeForce.WhereClauses
import Northwind.FakeForce.CatalogEntries
import Northwind.FakeForce.MutableTables
import Northwind.Library.TokenParsers
import Northwind.FakeForce.SoqlTokens
import Northwind.FakeForce.SoqlParser
import Northwind.FakeForce.SoqlGrammar
import Northwind.Simulator.CrmPlans
import Northwind.Simulator.PublishablePlans
import Northwind.Library.SpelledTexts
import Northwind.Simulator.ValidHistories
import Northwind.Library.JsonText
import Northwind.Simulator.EventIdentity
import Northwind.Library.Redraws
import Northwind.Generator.CostCenterDraws
import Northwind.Generator.AuditTargets
import Northwind.Generator.LegacySeeds
import Northwind.Library.Keysets
import Northwind.Generator.AuditBackfill
import Northwind.Generator.AuditBackfillRuns
import Northwind.Generator.HistoryCandidates
import Northwind.Generator.HistoryRuns
import Northwind.Generator.HistoryRestarts
import Northwind.Generator.HistoryExactness
import Northwind.Sources.Decimals
import Northwind.Simulator.CompanyAmounts
import Northwind.Simulator.OrderToCash
import Northwind.FakeForce.BulkDispatch
import Northwind.FakeForce.BulkDispatchRuns
import Northwind.Simulator.FulfillmentDays
import Northwind.Simulator.WorkedDays
import Northwind.Simulator.CaseDays
import Northwind.Simulator.SlaDays
import Northwind.FakeForce.CursorArtifacts
import Northwind.FakeForce.CursorArtifactRuns
import Northwind.FakeForce.Admission
import Northwind.Library.Semaphores
import Northwind.FakeForce.AdmissionRuns
