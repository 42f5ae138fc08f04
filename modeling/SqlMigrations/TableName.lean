/-!
# Table names

Plain SQL identifiers over ASCII, and the names of tracking tables, which are such identifiers.
-/

namespace SqlMigrations

def isIdentifierStart (c : Char) : Bool := c.isAlpha || c == '_'

def isIdentifierRest (c : Char) : Bool := c.isAlphanum || c == '_'

/-- A letter or underscore, then letters, digits and underscores. -/
def isPlainIdentifier (name : String) : Bool :=
  match name.toList with
  | [] => false
  | c :: cs => isIdentifierStart c && cs.all isIdentifierRest

structure TableName where
  text : String
  isPlain : isPlainIdentifier text = true
  deriving DecidableEq

namespace TableName

def ofText? (text : String) : Option TableName :=
  if h : isPlainIdentifier text = true then some ⟨text, h⟩ else none

/-- The tracking table when none is named. -/
def default : TableName := ⟨"schema_migrations", by decide +kernel⟩

end TableName
end SqlMigrations
