import SqlMigrations.Text.Unshown

/-!
# Quoted text

Text in double quotes that can be told apart from what stands around it: quotes, backslashes and
the usual controls are escaped by a backslash, other characters without a mark by their number.
-/

namespace SqlMigrations.Text.Quoted

/-- The number of a character in hexadecimal digits, between braces. -/
def byNumber (c : Char) : List Char :=
  '\\' :: 'u' :: '\x7b' :: Nat.toDigits 16 c.toNat ++ ['\x7d']

def encodeChar (c : Char) : List Char :=
  if c = '\x00' then ['\\', '0']
  else if c = '\t' then ['\\', 't']
  else if c = '\r' then ['\\', 'r']
  else if c = '\n' then ['\\', 'n']
  else if c = '\\' then ['\\', '\\']
  else if c = '"' then ['\\', '"']
  else if isUnshown c then byNumber c
  else [c]

def encode (text : String) : String :=
  String.ofList ('"' :: text.toList.flatMap encodeChar ++ ['"'])

end SqlMigrations.Text.Quoted
