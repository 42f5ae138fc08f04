import SqlMigrations.Instant
import SqlMigrations.Text.Pieces

/-!
# Stores

A small database: tables by name, without regard to case. A table is plain, with nothing known of
it, or a tracking table with its rows in order of insertion. File names in a tracking table are
unique.
-/

namespace SqlMigrations

inductive StoreError where
  | noTable (name : String)
  | tableExists (name : String)
  | noColumn (table : String)
  | duplicateKey (filename : String)
  | syntaxError
  deriving DecidableEq, Repr

def StoreError.message : StoreError → String
  | .noTable name => s!"Catalog Error: Table {name} does not exist"
  | .tableExists name => s!"Catalog Error: Table {name} already exists"
  | .noColumn table => s!"Binder Error: Table {table} has no column filename"
  | .duplicateKey filename => s!"Constraint Error: Duplicate key {filename}"
  | .syntaxError => "Parser Error: syntax error"

/-- A row of a tracking table: a file name and the microseconds at which it was inserted. -/
structure StoredRow where
  filename : String
  micros : Int64
  deriving DecidableEq, Repr

inductive Table where
  | plain
  | tracking (rows : List StoredRow)
  deriving DecidableEq, Repr

/-- The tables of a database, by lower-case name. -/
structure Store where
  tables : List (String × Table) := []
  deriving DecidableEq, Repr

namespace Store

def lower (name : String) : String := String.ofList (name.toList.map Char.toLower)

def table? (s : Store) (name : String) : Option Table := s.tables.lookup (lower name)

/-- Sets what a name stands for. -/
def setTable (s : Store) (name : String) (table : Table) : Store :=
  ⟨(lower name, table) :: s.tables.filter fun entry => entry.1 != lower name⟩

/-- The rows of a tracking table. -/
def rows (s : Store) (name : String) : Except StoreError (List StoredRow) :=
  match s.table? name with
  | some (.tracking rows) => .ok rows
  | some .plain => .error (.noColumn (lower name))
  | none => .error (.noTable (lower name))

/-- Appends a row; the file name must be new. -/
def insert (s : Store) (name filename : String) (now : Int64) : Except StoreError Store := do
  let rows ← s.rows name
  if rows.any fun row => row.filename == filename then throw (.duplicateKey filename)
  return s.setTable name (.tracking (rows ++ [⟨filename, now⟩]))

/-- Makes a tracking table unless there is a table of that name. -/
def ensureTracking (s : Store) (name : String) : Store :=
  match s.table? name with
  | some _ => s
  | none => s.setTable name (.tracking [])

def createPlain (s : Store) (name : String) : Except StoreError Store :=
  match s.table? name with
  | some _ => .error (.tableExists (lower name))
  | none => .ok (s.setTable name .plain)

def drop (s : Store) (name : String) : Except StoreError Store :=
  match s.table? name with
  | some _ => .ok ⟨s.tables.filter fun entry => entry.1 != lower name⟩
  | none => .error (.noTable (lower name))

/-- Empties a tracking table; a plain table stays as it is. -/
def clear (s : Store) (name : String) : Except StoreError Store :=
  match s.table? name with
  | some (.tracking _) => .ok (s.setTable name (.tracking []))
  | some .plain => .ok s
  | none => .error (.noTable (lower name))

end Store
end SqlMigrations
