import SqlMigrations.Proofs.ChosenDatabases
import SqlMigrations.Proofs.JoinedNames

/-!
# Opened databases

Which database a command opens. The path of a configuration is seen from the project directory
unless it is absolute or stands for a database in memory. A path that is joined to a directory has a
slash in it, and the one that stands for memory has none, so joining neither makes nor hides a
database in memory.
-/

namespace SqlMigrations.Proofs

open Cli (GlobalArgs loadContext resolveDatabase)

section Selection

variable {c : Config} {target : Option String} {path root : Path} {global : GlobalArgs}

end Selection

/-- From an empty project directory a path is opened as it is, and a name with a slash in front of
it does not stand for memory. -/
example :
    let c : Config :=
      { database := ⟨"dev.db"⟩, targets := [("tmp", ⟨":memory:"⟩), ("odd", ⟨"./:memory:"⟩)] }
    resolveDatabase ⟨""⟩ c {} = .ok ⟨"dev.db"⟩ ∧
    resolveDatabase ⟨"p/"⟩ c { target := some "tmp" } = .ok ⟨":memory:"⟩ ∧
    resolveDatabase ⟨""⟩ c { target := some "odd" } = .ok ⟨"./:memory:"⟩ := by
  decide +kernel

end SqlMigrations.Proofs
