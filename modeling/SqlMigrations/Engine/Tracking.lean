import SqlMigrations.Database.Program
import SqlMigrations.Engine.Error
import SqlMigrations.Statement

/-!
# The tracking table

One row for each migration that was applied, keyed by file name. Rows are only ever inserted; the
database sets their time.
-/

namespace SqlMigrations

/-- A program that may end in an error of the engine. -/
abbrev Engine := ExceptT EngineError Program

namespace Engine

/-- A call whose failure ends the program. -/
def ask (c : Call) (wrap : DatabaseError → EngineError) : Engine c.Reply :=
  ExceptT.mk ((fun reply => reply.mapError wrap) <$> Program.ask c)

end Engine

/-- A row of the tracking table. -/
structure AppliedRecord where
  filename : String
  appliedAt : Instant
  deriving DecidableEq

namespace TableName

/-- The tracking table that a text names. -/
def parse (text : String) : Except EngineError TableName :=
  match ofText? text with
  | some table => .ok table
  | none => .error (.invalidTableName text)

/-- Creates the tracking table unless it is there. -/
def ensure (table : TableName) : Engine Unit :=
  Engine.ask (.executeBatch (Statement.create.text table)) (.tableCreation table.text)

/-- Whether a reply to the check counts a row. -/
def countsRow (reply : Option Row) : Except DatabaseError Bool :=
  match reply with
  | some row => (row.getInt 0).map fun count => decide (0 < count)
  | none => .ok false

/-- Whether a file name has a row. -/
def isApplied (table : TableName) (filename : String) : Engine Bool := do
  let reply ← Engine.ask (.queryRow (Statement.check.text table) [.text filename])
    (.check filename)
  liftM ((countsRow reply).mapError (EngineError.check filename))

/-- Inserts a row for a file name. -/
def record (table : TableName) (filename : String) : Engine Unit := do
  let _ ← Engine.ask (.execute (Statement.record.text table) [.text filename]) (.record filename)

/-- The tracking row that a database row stands for. -/
def readRecord (row : Row) : Except DatabaseError AppliedRecord := do
  let filename ← row.getText 0
  let appliedAt ← row.getTimestamp 1
  return ⟨filename, appliedAt⟩

/-- Every row, in order of insertion. -/
def records (table : TableName) : Engine (List AppliedRecord) := do
  let rows ← Engine.ask (.query (Statement.readAll.text table) []) (.query table.text)
  liftM ((rows.mapM readRecord).mapError (EngineError.query table.text))

end TableName

namespace AppliedRecord

/-- When a file name was applied, by the last of its rows. -/
def timeOf? (records : List AppliedRecord) (filename : String) : Option Instant :=
  (records.reverse.find? fun r => r.filename == filename).map (·.appliedAt)

/-- One record for each file name, in ascending order of name. -/
def byFilename (records : List AppliedRecord) : List AppliedRecord :=
  ((records.map fun r => r.filename).eraseDups.mergeSort (· ≤ ·)).filterMap fun filename =>
    (timeOf? records filename).map fun appliedAt => ⟨filename, appliedAt⟩

end AppliedRecord

/-- When each file name was applied. -/
def TableName.appliedTimes (table : TableName) : Engine (List AppliedRecord) :=
  AppliedRecord.byFilename <$> table.records

end SqlMigrations
