import SqlMigrations.Instant
import SqlMigrations.Text.BinaryFloat
import SqlMigrations.Text.Quoted

/-!
# Raw values

The values that a database hands out, of every column type it has, and the text that describes one
in an error message. Decimals, structs, maps and values of any further type are told by that text
alone.
-/

namespace SqlMigrations

inductive IntegerType where
  | tinyInt
  | smallInt
  | int
  | bigInt
  | hugeInt
  | uTinyInt
  | uSmallInt
  | uInt
  | uBigInt
  | uHugeInt
  deriving DecidableEq, Repr

namespace IntegerType

def name : IntegerType → String
  | .tinyInt => "TinyInt"
  | .smallInt => "SmallInt"
  | .int => "Int"
  | .bigInt => "BigInt"
  | .hugeInt => "HugeInt"
  | .uTinyInt => "UTinyInt"
  | .uSmallInt => "USmallInt"
  | .uInt => "UInt"
  | .uBigInt => "UBigInt"
  | .uHugeInt => "UHugeInt"

/-- The least value of a type and the first one above its greatest. -/
def bounds : IntegerType → Int × Int
  | .tinyInt => (-0x80, 0x80)
  | .smallInt => (-0x8000, 0x8000)
  | .int => (-0x80000000, 0x80000000)
  | .bigInt => (-0x8000000000000000, 0x8000000000000000)
  | .hugeInt => (-0x80000000000000000000000000000000, 0x80000000000000000000000000000000)
  | .uTinyInt => (0, 0x100)
  | .uSmallInt => (0, 0x10000)
  | .uInt => (0, 0x100000000)
  | .uBigInt => (0, 0x10000000000000000)
  | .uHugeInt => (0, 0x100000000000000000000000000000000)

end IntegerType

inductive RawValue where
  | null
  | boolean (value : Bool)
  | integer (type : IntegerType) (value : Int)
  | float (value : BinaryFloat)
  | double (value : BinaryFloat)
  | text (value : String)
  | timestamp (unit : TimeUnit) (ticks : Int64)
  | time64 (unit : TimeUnit) (ticks : Int64)
  | blob (bytes : ByteArray)
  | date32 (days : Int)
  | interval (months days nanos : Int)
  | enum (value : String)
  | list (items : List RawValue)
  | array (items : List RawValue)
  | union (value : RawValue)
  /-- A value of any other type, as error messages describe it. -/
  | other (description : String)

def TimeUnit.name : TimeUnit → String
  | .second => "Second"
  | .millisecond => "Millisecond"
  | .microsecond => "Microsecond"
  | .nanosecond => "Nanosecond"

namespace RawValue

/-- The type's name with its content in parentheses. -/
def tagged (name content : String) : String := name ++ "(" ++ content ++ ")"

/-- Texts in brackets with commas between them. -/
def bracketed (parts : List String) : String := "[" ++ String.intercalate ", " parts ++ "]"

mutual

/-- A value with its type, as it stands in error messages. -/
def describe : RawValue → String
  | .null => "Null"
  | .boolean value => tagged "Boolean" (if value then "true" else "false")
  | .integer type value => tagged type.name (toString value)
  | .float value => tagged "Float" (value.text .single)
  | .double value => tagged "Double" (value.text .double)
  | .text value => tagged "Text" (Text.Quoted.encode value)
  | .timestamp unit ticks => tagged "Timestamp" s!"{unit.name}, {ticks}"
  | .time64 unit ticks => tagged "Time64" s!"{unit.name}, {ticks}"
  | .blob bytes => tagged "Blob" (bracketed (bytes.data.toList.map toString))
  | .date32 days => tagged "Date32" (toString days)
  | .interval months days nanos =>
    s!"Interval \x7b months: {months}, days: {days}, nanos: {nanos} \x7d"
  | .enum value => tagged "Enum" (Text.Quoted.encode value)
  | .list items => tagged "List" (bracketed (describeAll items))
  | .array items => tagged "Array" (bracketed (describeAll items))
  | .union value => tagged "Union" (describe value)
  | .other description => description

def describeAll : List RawValue → List String
  | [] => []
  | item :: items => describe item :: describeAll items

end

end RawValue
end SqlMigrations
