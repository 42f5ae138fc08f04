import SqlMigrations.Engine.Run
import SqlMigrations.Instant.Calendar
import SqlMigrations.Json.Writer

/-!
# Status reports

A report joins the migrations of a directory with the rows of the tracking table, which is read
once.
-/

namespace SqlMigrations

structure MigrationStatus where
  version : UInt64
  description : String
  filename : String
  applied : Bool
  appliedAt : Option Instant
  deriving DecidableEq

/-- The status of each migration, in the order of a run. -/
structure StatusReport where
  migrations : List MigrationStatus
  deriving DecidableEq

namespace StatusReport

def pending (r : StatusReport) : List MigrationStatus := r.migrations.filter fun m => !m.applied

def appliedCount (r : StatusReport) : Nat := (r.migrations.filter fun m => m.applied).length

def pendingCount (r : StatusReport) : Nat := r.migrations.length - r.appliedCount

def isUpToDate (r : StatusReport) : Bool := r.pendingCount == 0

/-- The greatest version that is applied. -/
def latestApplied? (r : StatusReport) : Option UInt64 :=
  ((r.migrations.filter fun m => m.applied).map fun m => m.version).max?

end StatusReport

/-- The status of a migration by the rows of the tracking table. -/
def Migration.status (m : Migration) (records : List AppliedRecord) : MigrationStatus :=
  let appliedAt := AppliedRecord.timeOf? records m.filename
  ⟨m.version, m.description, m.filename, appliedAt.isSome, appliedAt⟩

/-- The status of each migration of a directory. -/
def Engine.list (table : TableName) (fs : FileSystem) (dir : Path) : Engine StatusReport := do
  if dir.isEmpty then throw .emptyPath
  table.ensure
  let migrations ← discover fs dir
  let records ← table.records
  return ⟨migrations.map fun m => m.status records⟩

def MigrationStatus.doc (m : MigrationStatus) : Json.Doc :=
  .object [("version", .natural m.version.toNat), ("description", .string m.description),
    ("filename", .string m.filename), ("applied", .bool m.applied),
    ("applied_at", (m.appliedAt.map fun t => Json.Doc.string t.rfc3339).getD .null)]

/-- The report as a document: an array with one object for each migration. -/
def StatusReport.doc (r : StatusReport) : Json.Doc := .array (r.migrations.map MigrationStatus.doc)

end SqlMigrations
