/-!
# Places in a YAML text

A cursor is the text still to be read with its line and column. Lines end at a carriage return, a
line feed, both together, or one of three Unicode line breaks. A column counts characters, an offset
the bytes of UTF-8 from the start of the text.
-/

namespace SqlMigrations.Yaml

def isBlank (c : Char) : Bool := c == ' ' || c == '\t'

def isBreak (c : Char) : Bool :=
  c == '\n' || c == '\r' || c == '\u0085' || c == '\u2028' || c == '\u2029'

/-- Whether what comes next is a blank, a line break or the end. -/
def isGap : Option Char → Bool
  | some c => isBlank c || isBreak c
  | none => true

/-- The characters of anchor names, tag handles and directive names. -/
def isWordChar (c : Char) : Bool := c.isAlphanum || c == '_' || c == '-'

/-- The number of bytes of a text in UTF-8. -/
def byteCount : List Char → Nat
  | [] => 0
  | c :: cs => c.utf8Size + byteCount cs

structure Cursor where
  rest : List Char
  line : Nat := 0
  column : Nat := 0
  offset : Nat := 0

namespace Cursor

def peek? (c : Cursor) : Option Char := c.rest.head?

def second? (c : Cursor) : Option Char := c.rest[1]?

/-- Moves over characters of one line. -/
def advance (c : Cursor) (count : Nat) : Cursor :=
  { c with
    rest := c.rest.drop count
    column := c.column + count
    offset := c.offset + byteCount (c.rest.take count) }

/-- Moves within a line to a rest of the text. -/
def moveTo (c : Cursor) (rest : List Char) : Cursor :=
  c.advance (c.rest.length - rest.length)

/-- The characters from here that have a property. -/
def span (c : Cursor) (p : Char → Bool) : List Char × Cursor :=
  let run := c.rest.takeWhile p
  (run, c.advance run.length)

def skipWhile (c : Cursor) (p : Char → Bool) : Cursor := (c.span p).2

/-- Skips a byte-order mark at the start of a line, which counts as a column. -/
def skipByteOrderMark (c : Cursor) : Cursor :=
  if c.column = 0 ∧ c.peek? = some '\uFEFF' then c.advance 1 else c

/-- A line break that starts here, as text, and the start of the next line. The two break characters
of Unicode proper stay as they are; all others become a line feed. -/
def takeBreak? (c : Cursor) : Option (List Char × Cursor) :=
  let next (count : Nat) : Cursor :=
    ⟨c.rest.drop count, c.line + 1, 0, c.offset + byteCount (c.rest.take count)⟩
  match c.rest with
  | '\r' :: '\n' :: _ => some (['\n'], next 2)
  | b :: _ =>
    if b = '\u2028' ∨ b = '\u2029' then some ([b], next 1)
    else if isBreak b then some (['\n'], next 1)
    else none
  | [] => none

/-- The cursor after a line break, if one starts here. -/
def skipBreak (c : Cursor) : Cursor :=
  match c.takeBreak? with
  | some (_, next) => next
  | none => c

/-- Whether a line starts here with three marks that stand alone. -/
def isAtMarker (c : Cursor) (mark : Char) : Bool :=
  c.column == 0 && c.rest.take 3 == [mark, mark, mark] && isGap c.rest[3]?

/-- Whether a line starts here with the start or the end of a document. -/
def isAtDocumentMarker (c : Cursor) : Bool := c.isAtMarker '-' || c.isAtMarker '.'

end Cursor
end SqlMigrations.Yaml
