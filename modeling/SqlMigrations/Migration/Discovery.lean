import SqlMigrations.FileSystem
import SqlMigrations.Migration

/-!
# Discovery

The migrations of a directory: its regular files with the migration extension, in ascending order
of version. Every such file must have a well-formed name, and no two may share a version.
-/

namespace SqlMigrations

inductive DiscoveryError where
  | emptyPath
  | directoryRead (path : Path) (source : IoError)
  | invalidFilename (source : FilenameError)
  | duplicateVersion (version : UInt64) (first second : String)
  deriving DecidableEq, Repr

def DiscoveryError.message : DiscoveryError → String
  | .emptyPath => "[E004] Migrations directory path is empty"
  | .directoryRead path source =>
    s!"[E005] Failed to read migrations directory {path.text}: {source.message}"
  | .invalidFilename source => source.message
  | .duplicateVersion version first second =>
    s!"[E007] Duplicate migration version {version}: '{first}' and '{second}'"

/-- The texts of the errors below this one, the nearest first. -/
def DiscoveryError.causes : DiscoveryError → List String
  | .directoryRead _ source => [source.message]
  | _ => []

namespace Migration

/-- Whether an entry of a directory is taken for a migration. -/
def isKept (entry : DirEntry) : Bool := entry.isFile && hasExtension entry.name

/-- The order of migrations: by version, then by file name. -/
def orderLE (a b : Migration) : Bool :=
  a.version < b.version || (a.version == b.version && a.filename ≤ b.filename)

/-- Two neighbours with one version. -/
def sharedVersion? : List Migration → Option (Migration × Migration)
  | a :: b :: rest => if a.version = b.version then some (a, b) else sharedVersion? (b :: rest)
  | _ => none

/-- The migrations among the entries of a directory. -/
def ofEntries (entries : List DirEntry) : Except DiscoveryError (List Migration) := do
  let named ← ((entries.filter isKept).mapM fun entry => ofFilename entry.name).mapError
    .invalidFilename
  let sorted := named.mergeSort orderLE
  match sharedVersion? sorted with
  | some (a, b) => throw (.duplicateVersion a.version a.filename b.filename)
  | none => return sorted

/-- The migrations of a directory. -/
def discover (fs : FileSystem) (dir : Path) : Except DiscoveryError (List Migration) := do
  if dir.isEmpty then throw .emptyPath
  let entries ← (fs.listDir dir).mapError (.directoryRead dir)
  ofEntries entries

end Migration
end SqlMigrations
