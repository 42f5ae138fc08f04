import SqlMigrations.Json.Reader
import SqlMigrations.Json.Writer
import SqlMigrations.Migration

/-!
# Migrations as JSON

A migration is written as an object with its three fields. It is read from an object with those
keys, each once, and any others, or from an array of the three values in order.
-/

namespace SqlMigrations.Migration

def doc (m : Migration) : Json.Doc :=
  .object [("version", .natural m.version.toNat), ("description", .string m.description),
    ("filename", .string m.filename)]

def toJson (m : Migration) : String := m.doc.compact

/-- A migration from the values of its three fields. -/
def ofValues? (version description filename : Json) : Option Migration := do
  return ⟨← version.uint64?, ← description.string?, ← filename.string?⟩

def ofJson? : Json → Option Migration
  | .object fields =>
    if fields.all fun field => field.1.isSome then
      match Json.valuesOf "version" fields, Json.valuesOf "description" fields,
          Json.valuesOf "filename" fields with
      | [version], [description], [filename] => ofValues? version description filename
      | _, _, _ => none
    else none
  | .array [version, description, filename] => ofValues? version description filename
  | _ => none

/-- The migration that a JSON text describes. -/
def parseJson? (text : String) : Option Migration := (Json.parse? text).bind ofJson?

end SqlMigrations.Migration
