import SqlMigrations.Config
import SqlMigrations.Json.Reader

/-!
# Configuration as JSON

A configuration is an object, or an array of its fields in order with those at the end left out. A
database is an object with a path, or an array of at most that path.
-/

namespace SqlMigrations.Config

/-- The fields of an object, if all its keys are text. -/
def namedFields? (fields : List (Option String × Json)) : Option (List (String × Json)) :=
  fields.mapM fun (key, value) => key.map fun name => (name, value)

/-- Items paired with keys in order; there must be a key for each. -/
def positional? (names : List String) (items : List Json) : Option (List (String × Json)) :=
  if items.length ≤ names.length then some (names.zip items) else none

def databaseOfJson? : Json → Option Path
  | .object fields => (namedFields? fields).bind (databaseOfFields? Json.string?)
  | .array items => (positional? ["path"] items).bind (databaseOfFields? Json.string?)
  | _ => none

def targetsOfJson? : Json → Option (List (String × Path))
  | .object fields => do
    let named ← (← namedFields? fields).mapM fun (name, value) =>
      (databaseOfJson? value).map fun path => (name, path)
    return targetsOf named
  | _ => none

def ofJson? : Json → Option Config
  | .object fields =>
    (namedFields? fields).bind (ofFields? Json.string? databaseOfJson? targetsOfJson?)
  | .array items =>
    (positional? keys items).bind (ofFields? Json.string? databaseOfJson? targetsOfJson?)
  | _ => none

/-- The configuration that a JSON text describes. -/
def parseJson? (text : String) : Option Config := (Json.parse? text).bind ofJson?

end SqlMigrations.Config
