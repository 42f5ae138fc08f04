import SqlMigrations.Config.Yaml
import SqlMigrations.FileSystem.Disk

/-!
# Loading a configuration

A configuration is read from a YAML file and checked, or from the first file of a project directory
that has one of two names. A project without such a file has the default configuration.
-/

namespace SqlMigrations.Config

/-- The content of a file as text. -/
def readText (disk : Disk) (path : Path) : Except ConfigError String := do
  let bytes ← (disk.readBytes path).mapError .io
  match String.fromUTF8? bytes with
  | some text => return text
  | none => throw (.io .notText)

/-- The configuration in a file. -/
def load (disk : Disk) (path : Path) : Except ConfigError Config := do
  if !disk.pathExists path then throw (.notFound path)
  let text ← readText disk path
  match parseYaml? text with
  | none => throw .unreadable
  | some config =>
    config.validate
    return config

/-- The names of configuration files, in the order in which they are looked for. -/
def fileNames : List String := ["tidemark.yml", "tidemark.yaml"]

/-- The configuration of a project directory. -/
def loadFromDir (disk : Disk) (dir : Path) : Except ConfigError Config :=
  match (fileNames.map fun name => dir.join ⟨name⟩).find? disk.pathExists with
  | some path => load disk path
  | none => .ok {}

end SqlMigrations.Config
