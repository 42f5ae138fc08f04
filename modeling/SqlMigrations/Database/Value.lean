import SqlMigrations.Database.Raw

/-!
# SQL values and rows

The values that the engine binds and reads, rows of them with typed access by column, and the
errors of a database.
-/

namespace SqlMigrations

inductive SqlValue where
  | null
  | bool (value : Bool)
  | int (value : Int64)
  | text (value : String)
  | timestamp (value : Instant)
  deriving DecidableEq

inductive ColumnType where
  | null
  | boolean
  | integer
  | text
  | timestamp
  deriving DecidableEq, Repr

def ColumnType.name : ColumnType → String
  | .null => "NULL"
  | .boolean => "BOOLEAN"
  | .integer => "INTEGER"
  | .text => "TEXT"
  | .timestamp => "TIMESTAMP"

def SqlValue.type : SqlValue → ColumnType
  | .null => .null
  | .bool _ => .boolean
  | .int _ => .integer
  | .text _ => .text
  | .timestamp _ => .timestamp

inductive DatabaseError where
  | connection (text : String)
  | execution (text : String)
  | query (text : String)
  | columnOutOfRange (index length : Nat)
  | typeMismatch (index : Nat) (expected found : ColumnType)
  | unsupported (value : RawValue)
  | poisoned

/-- Why a raw value has no SQL value. -/
def RawValue.complaint : RawValue → String
  | .integer .uHugeInt value => describe (.integer .uHugeInt value)
  | .integer _ value => s!"integer {value} does not fit in i64"
  | .timestamp _ ticks => s!"timestamp {ticks} out of range"
  | value => value.describe

def DatabaseError.message : DatabaseError → String
  | .connection text => s!"[D001] Database connection failed: {text}"
  | .execution text => s!"[D002] SQL execution failed: {text}"
  | .query text => s!"[D003] SQL query failed: {text}"
  | .columnOutOfRange index length =>
    s!"[D004] Column index {index} out of range for row with {length} column(s)"
  | .typeMismatch index expected found =>
    s!"[D005] Column {index} is {found.name}, expected {expected.name}"
  | .unsupported value => s!"[D006] Unsupported column type in result: {value.complaint}"
  | .poisoned => "[D007] Database mutex poisoned: poisoned lock: another task failed inside"

structure Row where
  values : List SqlValue
  deriving DecidableEq

namespace Row

def get (row : Row) (index : Nat) : Except DatabaseError SqlValue :=
  match row.values[index]? with
  | some value => .ok value
  | none => .error (.columnOutOfRange index row.values.length)

def getInt (row : Row) (index : Nat) : Except DatabaseError Int64 := do
  match ← row.get index with
  | .int value => .ok value
  | other => .error (.typeMismatch index .integer other.type)

def getBool (row : Row) (index : Nat) : Except DatabaseError Bool := do
  match ← row.get index with
  | .bool value => .ok value
  | other => .error (.typeMismatch index .boolean other.type)

def getText (row : Row) (index : Nat) : Except DatabaseError String := do
  match ← row.get index with
  | .text value => .ok value
  | other => .error (.typeMismatch index .text other.type)

def getTimestamp (row : Row) (index : Nat) : Except DatabaseError Instant := do
  match ← row.get index with
  | .timestamp value => .ok value
  | other => .error (.typeMismatch index .timestamp other.type)

end Row

namespace SqlValue

/-- The raw value that stands for a parameter; a timestamp loses what is below a microsecond. -/
def toRaw : SqlValue → RawValue
  | .null => .null
  | .bool value => .boolean value
  | .int value => .integer .bigInt value.toInt
  | .text value => .text value
  | .timestamp value => .timestamp .microsecond (Int64.ofInt value.micros)

/-- An integer of 64 bits, if the type may hold one and the value is one. -/
def ofInteger? (type : IntegerType) (value : Int) : Option SqlValue :=
  if type ≠ .uHugeInt ∧ IntegerType.bigInt.bounds.1 ≤ value ∧
      value < IntegerType.bigInt.bounds.2 then
    some (.int (Int64.ofInt value))
  else none

/-- The SQL value of a raw value. -/
def ofRaw (raw : RawValue) : Except DatabaseError SqlValue :=
  match raw with
  | .null => .ok .null
  | .boolean value => .ok (.bool value)
  | .text value => .ok (.text value)
  | .integer type value => ((ofInteger? type value).map .ok).getD (.error (.unsupported raw))
  | .timestamp unit ticks =>
    match unit.instant? ticks.toInt with
    | some t => .ok (.timestamp t)
    | none => .error (.unsupported raw)
  | _ => .error (.unsupported raw)

end SqlValue

/-- The row of raw values, if every one of them has an SQL value. -/
def Row.ofRaw (values : List RawValue) : Except DatabaseError Row :=
  (values.mapM SqlValue.ofRaw).map Row.mk

end SqlMigrations
