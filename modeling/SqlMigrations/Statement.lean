import SqlMigrations.TableName

/-!
# Statements on the tracking table

The four texts that the engine sends about its tracking table. File names are never part of a text;
they are bound as its parameter.
-/

namespace SqlMigrations

inductive Statement where
  | create
  | check
  | record
  | readAll
  deriving DecidableEq, Repr

namespace Statement

/-- Lines joined by a line break. -/
def lines (parts : List String) : String := String.intercalate "\n" parts

def text (table : TableName) : Statement → String
  | .create => lines [
      "CREATE SEQUENCE IF NOT EXISTS \"" ++ table.text ++ "_id_seq\";",
      "             CREATE TABLE IF NOT EXISTS \"" ++ table.text ++ "\" (",
      "                 id         BIGINT PRIMARY KEY DEFAULT nextval('" ++ table.text ++
        "_id_seq'),",
      "                 filename   VARCHAR NOT NULL UNIQUE,",
      "                 applied_at TIMESTAMPTZ NOT NULL DEFAULT current_timestamp",
      "             );"]
  | .check => "SELECT COUNT(*) FROM \"" ++ table.text ++ "\" WHERE filename = ?"
  | .record => "INSERT INTO \"" ++ table.text ++ "\" (filename) VALUES (?)"
  | .readAll => "SELECT filename, applied_at FROM \"" ++ table.text ++ "\" ORDER BY id"

end Statement
end SqlMigrations
