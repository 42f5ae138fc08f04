import SqlMigrations.Cli.Arguments
import SqlMigrations.Config.Load
import SqlMigrations.Database.Files
import SqlMigrations.Engine.Error

/-!
# What a command works on

The configuration of a project with the options of a command line over it. Paths of the
configuration are seen from the project directory, and paths of options are taken as given.
-/

namespace SqlMigrations.Cli

/-- The error at the root of a command's failure. -/
inductive RootError where
  | config (source : ConfigError)
  | database (source : DatabaseError)
  | engine (source : EngineError)

namespace RootError

def message : RootError → String
  | .config source => source.message
  | .database source => source.message
  | .engine source => source.message

/-- The texts of the errors below this one, the nearest first. -/
def causes : RootError → List String
  | .config source => source.causes
  | .database _ => []
  | .engine source => source.causes

end RootError

/-- A command's failure: what it was about, the outermost first, and the error at its root. -/
structure CommandError where
  contexts : List String
  root : RootError

/-- The texts of a failure, from the outermost one down. -/
def CommandError.chain (e : CommandError) : List String :=
  e.contexts ++ e.root.message :: e.root.causes

/-- What a command works on. -/
structure Context where
  config : Config
  database : Path
  migrationsDir : Path
  deriving DecidableEq, Repr

def loadConfig (disk : Disk) (root : Path) : Option String → Except CommandError Config
  | some path =>
    (Config.load disk ⟨path⟩).mapError fun e => ⟨[s!"Failed to load config {path}"], .config e⟩
  | none =>
    (Config.loadFromDir disk root).mapError fun e =>
      ⟨[s!"Failed to load config from {root.text}"], .config e⟩

/-- The database to open: the one given, else that of the target, else the default one. -/
def resolveDatabase (root : Path) (config : Config) (global : GlobalArgs) :
    Except ConfigError Path :=
  match global.database with
  | some path => .ok ⟨path⟩
  | none => do
    let path ← config.databaseFor global.target
    return if path = memoryPath || path.isAbsolute then path else root.join path

def loadContext (disk : Disk) (global : GlobalArgs) : Except CommandError Context := do
  let root : Path := ⟨global.projectDir⟩
  let config ← loadConfig disk root global.config
  let database ← (resolveDatabase root config global).mapError fun e => ⟨[], .config e⟩
  let migrationsDir := match global.dir with
    | some dir => ⟨dir⟩
    | none => config.migrationsDirIn root
  return ⟨config, database, migrationsDir⟩

end SqlMigrations.Cli
