import SqlMigrations.Path
import SqlMigrations.Text.Decimal

/-!
# Migration file names

A migration is a file named `<version>_<description>.sql`. The version is a run of ASCII digits
below 2^64; the description is any text, also with further underscores and dots.
-/

namespace SqlMigrations

inductive FilenameError where
  | invalidExtension (filename : String)
  | malformedName (filename : String)
  | nonNumericVersion (filename token : String)
  deriving DecidableEq, Repr

def FilenameError.message : FilenameError → String
  | .invalidExtension filename =>
    s!"[F001] Invalid migration extension: '{filename}' (expected .sql)"
  | .malformedName filename =>
    s!"[F002] Malformed migration name: '{filename}' (expected <version>_<description>.sql)"
  | .nonNumericVersion filename token =>
    s!"[F003] Non-numeric version '{token}' in migration '{filename}'"

structure Migration where
  version : UInt64
  description : String
  filename : String
  deriving DecidableEq, Repr

namespace Migration

/-- The ending of migration file names. -/
def ending : List Char := ['.', 's', 'q', 'l']

/-- The version and description that a file name states. -/
def parseFilename (filename : String) : Except FilenameError (UInt64 × String) :=
  match Text.dropEnding? ending filename.toList with
  | none => .error (.invalidExtension filename)
  | some stem =>
    match Text.splitFirst? '_' stem with
    | none => .error (.malformedName filename)
    | some (token, description) =>
      match Decimal.readUInt64? token with
      | none => .error (.nonNumericVersion filename (String.ofList token))
      | some version => .ok (version, String.ofList description)

/-- The migration that a file name states. -/
def ofFilename (filename : String) : Except FilenameError Migration :=
  (parseFilename filename).map fun (version, description) => ⟨version, description, filename⟩

/-- Whether a name, read as a path, has the extension of migrations. -/
def hasExtension (name : String) : Bool := Path.extension? ⟨name⟩ == some "sql"

end Migration
end SqlMigrations
