import SqlMigrations.Text.Decimal

/-!
# Writing JSON

Documents to be written, and their two layouts: compact, and pretty with an indent of two spaces.
Strings escape quotes, backslashes and control characters; all else is written as it is.
-/

namespace SqlMigrations.Json

/-- A document to be written. -/
inductive Doc where
  | null
  | bool (value : Bool)
  | natural (value : Nat)
  | string (text : String)
  | array (items : List Doc)
  | object (fields : List (String × Doc))

def hexDigit (n : Nat) : Char := if n < 10 then Char.ofNat (48 + n) else Char.ofNat (87 + n)

/-- The written form of a character within a string. -/
def escape (c : Char) : List Char :=
  if c = '"' then ['\\', '"']
  else if c = '\\' then ['\\', '\\']
  else if c = '\n' then ['\\', 'n']
  else if c = '\r' then ['\\', 'r']
  else if c = '\t' then ['\\', 't']
  else if c = '\x08' then ['\\', 'b']
  else if c = '\x0c' then ['\\', 'f']
  else if c.toNat < 0x20 then
    ['\\', 'u', '0', '0', hexDigit (c.toNat / 16), hexDigit (c.toNat % 16)]
  else [c]

def quote (text : String) : List Char := '"' :: text.toList.flatMap escape ++ ['"']

/-- Parts with a separator between neighbours. -/
def separate (sep : List Char) : List (List Char) → List Char
  | [] => []
  | [part] => part
  | part :: parts => part ++ sep ++ separate sep parts

namespace Doc

mutual

def compactChars : Doc → List Char
  | .null => ['n', 'u', 'l', 'l']
  | .bool true => ['t', 'r', 'u', 'e']
  | .bool false => ['f', 'a', 'l', 's', 'e']
  | .natural n => Decimal.digits n
  | .string text => quote text
  | .array items => '[' :: separate [','] (compactItems items) ++ [']']
  | .object fields => '\x7b' :: separate [','] (compactFields fields) ++ ['\x7d']

def compactItems : List Doc → List (List Char)
  | [] => []
  | item :: items => compactChars item :: compactItems items

def compactFields : List (String × Doc) → List (List Char)
  | [] => []
  | (key, value) :: fields => (quote key ++ ':' :: compactChars value) :: compactFields fields

end

def newline (depth : Nat) : List Char := '\n' :: List.replicate (2 * depth) ' '

/-- Items one to a line, one level deeper than the brackets around them. -/
def block (depth : Nat) (opening closing : Char) (parts : List (List Char)) : List Char :=
  if parts.isEmpty then [opening, closing]
  else
    opening :: newline (depth + 1) ++ separate (',' :: newline (depth + 1)) parts ++
      newline depth ++ [closing]

mutual

def prettyChars (depth : Nat) : Doc → List Char
  | .null => ['n', 'u', 'l', 'l']
  | .bool true => ['t', 'r', 'u', 'e']
  | .bool false => ['f', 'a', 'l', 's', 'e']
  | .natural n => Decimal.digits n
  | .string text => quote text
  | .array items => block depth '[' ']' (prettyItems (depth + 1) items)
  | .object fields => block depth '\x7b' '\x7d' (prettyFields (depth + 1) fields)

def prettyItems (depth : Nat) : List Doc → List (List Char)
  | [] => []
  | item :: items => prettyChars depth item :: prettyItems depth items

def prettyFields (depth : Nat) : List (String × Doc) → List (List Char)
  | [] => []
  | (key, value) :: fields =>
    (quote key ++ ':' :: ' ' :: prettyChars depth value) :: prettyFields depth fields

end

def compact (d : Doc) : String := String.ofList d.compactChars

def pretty (d : Doc) : String := String.ofList (d.prettyChars 0)

end Doc
end SqlMigrations.Json
