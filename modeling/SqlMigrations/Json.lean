/-!
# JSON values

Objects keep their fields in order, repeated keys included. A string escape can write half of a
surrogate pair; the string then is no text, and its value is absent.
-/

namespace SqlMigrations

inductive Json where
  | null
  | bool (value : Bool)
  | natural (value : Nat)
  | otherNumber
  | string (text : Option String)
  | array (items : List Json)
  | object (fields : List (Option String × Json))

namespace Json

/-- The values of a key, in order. -/
def valuesOf (key : String) (fields : List (Option String × Json)) : List Json :=
  fields.filterMap fun (name, value) => if name = some key then some value else none

def string? : Json → Option String
  | .string text => text
  | _ => none

def uint64? : Json → Option UInt64
  | .natural n => if n < UInt64.size then some (UInt64.ofNat n) else none
  | _ => none

end Json
end SqlMigrations
