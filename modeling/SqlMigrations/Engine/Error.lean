import SqlMigrations.Database.Value
import SqlMigrations.Migration.Discovery

/-!
# Errors of the engine

Every way in which a run or a report can fail, with the error below it where there is one.
-/

namespace SqlMigrations

inductive EngineError where
  | emptyPath
  | invalidVersion (version : UInt64)
  | discovery (source : DiscoveryError)
  | tableCreation (table : String) (source : DatabaseError)
  | check (filename : String) (source : DatabaseError)
  | read (filename : String) (source : IoError)
  | execution (filename : String) (source : DatabaseError)
  | record (filename : String) (source : DatabaseError)
  | query (table : String) (source : DatabaseError)
  | versionNotFound (version : UInt64)
  | invalidTableName (table : String)

namespace EngineError

def message : EngineError → String
  | .emptyPath => "[M001] Invalid argument: migrations directory path is empty"
  | .invalidVersion version =>
    s!"[M002] Invalid argument: target version must be positive, got {version}"
  | .discovery source => s!"[M003] Migration discovery failed: {source.message}"
  | .tableCreation table _ => s!"[M004] Failed to create tracking table '{table}'"
  | .check filename _ => s!"[M005] Failed to check whether '{filename}' is applied"
  | .read filename _ => s!"[M006] Failed to read migration '{filename}'"
  | .execution filename _ => s!"[M007] Migration '{filename}' failed"
  | .record filename _ =>
    s!"[M008] Migration '{filename}' was executed but could not be recorded as applied"
  | .query table _ => s!"[M009] Failed to read applied migrations from '{table}'"
  | .versionNotFound version =>
    s!"[M010] Target version {version} not found among discovered migrations"
  | .invalidTableName table => s!"[M011] Invalid tracking table name '{table}'"

/-- The texts of the errors below this one, the nearest first. -/
def causes : EngineError → List String
  | .discovery source => source.message :: source.causes
  | .tableCreation _ source | .check _ source | .execution _ source | .record _ source
  | .query _ source => [source.message]
  | .read _ source => [source.message]
  | _ => []

end EngineError
end SqlMigrations
