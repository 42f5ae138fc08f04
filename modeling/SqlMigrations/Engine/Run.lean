import SqlMigrations.Engine.Tracking

/-!
# Runs

A run applies the migrations of a directory that have no tracking row yet, in ascending order of
version and up to a version if one is given. Each is checked, executed and recorded on its own, and
the first failure ends the run.
-/

namespace SqlMigrations

structure RunSummary where
  applied : List String := []
  skipped : Nat := 0
  stoppedAt : Option UInt64 := none
  deriving DecidableEq, Repr

namespace Engine

/-- Executes the body of a migration and records it. -/
def applyOne (table : TableName) (fs : FileSystem) (dir : Path) (m : Migration) : Engine Unit := do
  let body ← liftM ((fs.readText (dir.join ⟨m.filename⟩)).mapError (EngineError.read m.filename))
  Engine.ask (.executeBatch body) (.execution m.filename)
  table.record m.filename

/-- Checks a migration, and applies it unless it is recorded. -/
def step (table : TableName) (fs : FileSystem) (dir : Path) (summary : RunSummary)
    (m : Migration) : Engine RunSummary := do
  if ← table.isApplied m.filename then
    return { summary with skipped := summary.skipped + 1 }
  else
    applyOne table fs dir m
    return { summary with applied := summary.applied ++ [m.filename] }

/-- Whether a version is within the bound of a run. -/
def isWithin (bound : Option UInt64) (m : Migration) : Bool :=
  match bound with
  | some target => m.version ≤ target
  | none => true

/-- A bound must be the version of a migration. -/
def checkBound (bound : Option UInt64) (migrations : List Migration) : Except EngineError Unit :=
  match bound with
  | some target =>
    if migrations.any fun m => m.version == target then .ok () else .error (.versionNotFound target)
  | none => .ok ()

/-- The migrations of a directory, as the engine discovers them. -/
def discover (fs : FileSystem) (dir : Path) : Engine (List Migration) :=
  liftM ((Migration.discover fs dir).mapError EngineError.discovery)

/-- Applies the pending migrations of a directory. -/
def run (table : TableName) (fs : FileSystem) (dir : Path) (bound : Option UInt64) :
    Engine RunSummary := do
  if dir.isEmpty then throw .emptyPath
  if bound = some 0 then throw (.invalidVersion 0)
  table.ensure
  let migrations ← discover fs dir
  liftM (checkBound bound migrations)
  (migrations.takeWhile (isWithin bound)).foldlM (step table fs dir) { stoppedAt := bound }

end Engine
end SqlMigrations
