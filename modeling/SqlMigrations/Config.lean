import SqlMigrations.FileSystem
import SqlMigrations.TableName
import SqlMigrations.Text.Pieces

/-!
# Configuration

The settings of a project: where its migrations are, which table tracks them, and which database
to open, by default or for a named target. Targets keep the order in which they are gone through;
their names are distinct.
-/

namespace SqlMigrations

structure Config where
  migrationsDir : Path := ⟨"migrations"⟩
  trackingTable : String := "schema_migrations"
  database : Path := ⟨":memory:"⟩
  targets : List (String × Path) := []
  deriving DecidableEq, Repr

/-- What is wrong with a setting, or with a choice among the settings. -/
inductive InvalidConfig where
  | emptyMigrationsDir
  | badTrackingTable (name : String)
  | emptyTargetPath (target : String)
  | unknownTarget (target : String) (available : List String)
  deriving DecidableEq, Repr

def InvalidConfig.message : InvalidConfig → String
  | .emptyMigrationsDir => "migrations_dir cannot be empty"
  | .badTrackingTable name =>
    s!"tracking_table '{name}' must be a plain SQL identifier ([A-Za-z_][A-Za-z0-9_]*)"
  | .emptyTargetPath target => s!"target '{target}' has an empty database path"
  | .unknownTarget target available =>
    let names := if available.isEmpty then "none" else Text.join ", " available
    s!"unknown target '{target}' (available: {names})"

inductive ConfigError where
  | notFound (path : Path)
  | unreadable
  | invalid (reason : InvalidConfig)
  | io (source : IoError)
  deriving DecidableEq, Repr

namespace ConfigError

def message : ConfigError → String
  | .notFound path => s!"[E001] Config file not found: {path.text}"
  | .unreadable => "[E002] Failed to parse config"
  | .invalid reason => s!"[E003] Invalid config: {reason.message}"
  | .io source => s!"[E008] IO error: {source.message}"

/-- The texts of the errors below this one, the nearest first. -/
def causes : ConfigError → List String
  | .io source => [source.message]
  | _ => []

end ConfigError

namespace Config

def validate (c : Config) : Except ConfigError Unit :=
  if c.migrationsDir.isEmpty then .error (.invalid .emptyMigrationsDir)
  else if !isPlainIdentifier c.trackingTable then
    .error (.invalid (.badTrackingTable c.trackingTable))
  else
    match c.targets.find? fun target => target.2.isEmpty with
    | some (name, _) => .error (.invalid (.emptyTargetPath name))
    | none => .ok ()

/-- The names of the targets in ascending order. -/
def targetNames (c : Config) : List String := (c.targets.map (·.1)).mergeSort (· ≤ ·)

/-- The database of a target, or the default one when none is named. -/
def databaseFor (c : Config) : Option String → Except ConfigError Path
  | none => .ok c.database
  | some name =>
    match c.targets.lookup name with
    | some path => .ok path
    | none => .error (.invalid (.unknownTarget name c.targetNames))

/-- The migrations directory seen from a project directory. -/
def migrationsDirIn (c : Config) (root : Path) : Path := root.join c.migrationsDir

/-- Sets the database of a target; a target that is already there keeps its position. -/
def setTarget (targets : List (String × Path)) (name : String) (path : Path) :
    List (String × Path) :=
  match targets with
  | [] => [(name, path)]
  | (n, p) :: rest => if n = name then (name, path) :: rest else (n, p) :: setTarget rest name path

/-- The targets that named databases make; of a repeated name the last counts. -/
def targetsOf (named : List (String × Path)) : List (String × Path) :=
  named.foldl (fun targets (name, path) => setTarget targets name path) []

def keys : List String := ["migrations_dir", "tracking_table", "database", "targets"]

/-- The value of a key that may be absent, but not repeated. -/
def single? {ν : Type} (key : String) (fields : List (String × ν)) : Option (Option ν) :=
  match fields.filter fun field => field.1 == key with
  | [] => some none
  | [(_, value)] => some (some value)
  | _ => none

/-- The value of a key as a reader takes it, or a default if the key is absent. -/
def field? {ν α : Type} (key : String) (read : ν → Option α) (default : α)
    (fields : List (String × ν)) : Option α := do
  match ← single? key fields with
  | some value => read value
  | none => return default

/-- The database that the fields of a document describe: no key but one path at most. -/
def databaseOfFields? {ν : Type} (text? : ν → Option String) (fields : List (String × ν)) :
    Option Path := do
  guard (fields.all fun field => field.1 == "path")
  return ⟨← field? "path" text? ":memory:" fields⟩

/-- The configuration that the fields of a document describe: known keys only, each once at
most. -/
def ofFields? {ν : Type} (text? : ν → Option String) (database? : ν → Option Path)
    (targets? : ν → Option (List (String × Path))) (fields : List (String × ν)) :
    Option Config := do
  guard (fields.all fun field => keys.contains field.1)
  return {
    migrationsDir := ⟨← field? "migrations_dir" text? "migrations" fields⟩
    trackingTable := ← field? "tracking_table" text? "schema_migrations" fields
    database := ← field? "database" database? ⟨":memory:"⟩ fields
    targets := ← field? "targets" targets? [] fields }

end Config
end SqlMigrations
