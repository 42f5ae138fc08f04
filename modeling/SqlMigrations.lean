import SqlMigrations.Main
import SqlMigrations.Config.Json
import SqlMigrations.Database.Recorder
import SqlMigrations.FileSystem.Memory
import SqlMigrations.FileSystem.Overlay
import SqlMigrations.Migration.Json
import SqlMigrations.Proofs.CallDiscipline
import SqlMigrations.Proofs.RunLog
import SqlMigrations.Proofs.TrackedRows
import SqlMigrations.Proofs.RunOutcome
import SqlMigrations.Proofs.LiveTracking
import SqlMigrations.Proofs.RunAccount
import SqlMigrations.Proofs.History
import SqlMigrations.Proofs.AddedFiles
import SqlMigrations.Proofs.Retries
import SqlMigrations.Proofs.Interleaving
import SqlMigrations.Proofs.ConcurrentRuns
import SqlMigrations.Proofs.BoundedRuns
import SqlMigrations.Proofs.StatusAgreement
import SqlMigrations.Proofs.FileNameGrammar
import SqlMigrations.Proofs.ByteOrder
import SqlMigrations.Proofs.DiscoveryResult
import SqlMigrations.Proofs.UnreadFiles
import SqlMigrations.Proofs.LoadedContext
import SqlMigrations.Proofs.QuotedNames
import SqlMigrations.Proofs.EngineUses
import SqlMigrations.Proofs.RecordedSessions
import SqlMigrations.Proofs.MemoryFiles
import SqlMigrations.Proofs.PlainPaths
import SqlMigrations.Proofs.DiskTrees
import SqlMigrations.Proofs.StandIn
import SqlMigrations.Proofs.ExtensionFilter
import SqlMigrations.Proofs.ReportResult
import SqlMigrations.Proofs.TickCounts
import SqlMigrations.Proofs.BoundValues
import SqlMigrations.Proofs.BackendCalls
import SqlMigrations.Proofs.QueryResults
import SqlMigrations.Proofs.PoisonedLocks
import SqlMigrations.Proofs.ChosenDatabases
import SqlMigrations.Proofs.MemoryListings
import SqlMigrations.Proofs.ListedFiles
import SqlMigrations.Proofs.StatusTables
import SqlMigrations.Proofs.OpenedDatabases
import SqlMigrations.Proofs.TargetOrders
import SqlMigrations.Proofs.JsonTexts
import SqlMigrations.Proofs.JsonWriting
import SqlMigrations.Proofs.MigrationDocuments
import SqlMigrations.Proofs.ConfigDocuments
import SqlMigrations.Proofs.CommandWords
import SqlMigrations.Proofs.CommandLines
import SqlMigrations.Proofs.OptionPlacement
