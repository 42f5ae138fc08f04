import SqlMigrations.Config
import SqlMigrations.Yaml.Document

/-!
# Configuration as YAML

A configuration is a mapping, and so are its database and its targets. Each of them may be left
empty, and any scalar is taken as text.
-/

namespace SqlMigrations.Config

open Yaml (Document Node)

def databaseOfYaml? (d : Document) (node : Node) : Option Path :=
  (d.fields? node).bind (databaseOfFields? d.text?)

def targetsOfYaml? (d : Document) (node : Node) : Option (List (String × Path)) := do
  let named ← (← d.fields? node).mapM fun (name, value) =>
    (databaseOfYaml? d value).map fun path => (name, path)
  return targetsOf named

/-- The configuration that a YAML text describes; a text without a document describes the default
one. -/
def parseYaml? (text : String) : Option Config := do
  let d ← Document.parse? text
  match d.root with
  | none => return {}
  | some root => ofFields? d.text? (databaseOfYaml? d) (targetsOfYaml? d) (← d.fields? root)

end SqlMigrations.Config
