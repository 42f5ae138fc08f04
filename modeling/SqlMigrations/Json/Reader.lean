import SqlMigrations.Json.Token

/-!
# Reading JSON

Tokens are taken one by one with a stack of the arrays and objects that are still open. A text is
one value with white space around it.
-/

namespace SqlMigrations.Json

/-- An array or object that is still open, with what it holds so far. -/
inductive Frame where
  | array (items : List Json)
  | object (fields : List (Option String × Json)) (key : Option String)

/-- What the next token may be. -/
inductive Expect where
  | value (stack : List Frame)
  | firstItem (stack : List Frame)
  | firstKey (stack : List Frame)
  | key (fields : List (Option String × Json)) (stack : List Frame)
  | colon (fields : List (Option String × Json)) (key : Option String) (stack : List Frame)
  | finished (value : Json) (stack : List Frame)

namespace Expect

/-- A token where a value must come. -/
def startValue? (stack : List Frame) : Token → Option Expect
  | .openBrace => some (.firstKey stack)
  | .openBracket => some (.firstItem stack)
  | .null => some (.finished .null stack)
  | .bool b => some (.finished (.bool b) stack)
  | .natural n => some (.finished (.natural n) stack)
  | .otherNumber => some (.finished .otherNumber stack)
  | .string text => some (.finished (.string text) stack)
  | .closeBrace | .closeBracket | .colon | .comma => none

def step? : Expect → Token → Option Expect
  | .value stack, token => startValue? stack token
  | .firstItem stack, .closeBracket => some (.finished (.array []) stack)
  | .firstItem stack, token => startValue? (.array [] :: stack) token
  | .firstKey stack, .closeBrace => some (.finished (.object []) stack)
  | .firstKey stack, .string name => some (.colon [] name stack)
  | .key fields stack, .string name => some (.colon fields name stack)
  | .colon fields name stack, .colon => some (.value (.object fields name :: stack))
  | .finished v (.array items :: stack), .comma => some (.value (.array (items ++ [v]) :: stack))
  | .finished v (.array items :: stack), .closeBracket =>
    some (.finished (.array (items ++ [v])) stack)
  | .finished v (.object fields name :: stack), .comma =>
    some (.key (fields ++ [(name, v)]) stack)
  | .finished v (.object fields name :: stack), .closeBrace =>
    some (.finished (.object (fields ++ [(name, v)])) stack)
  | _, _ => none

end Expect

/-- The value that a text holds. -/
def parse? (text : String) : Option Json := do
  let tokens ← Token.all? text.toList
  match ← tokens.foldlM Expect.step? (.value []) with
  | .finished value [] => some value
  | _ => none

end SqlMigrations.Json
