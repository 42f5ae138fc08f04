import SqlMigrations.TableName
import SqlMigrations.Text.Blank
import SqlMigrations.Text.Pieces

/-!
# SQL texts

The statements that a store understands, read from their text. Words stand in any case with white
space between them; a table name is a plain identifier or anything in double quotes.
-/

namespace SqlMigrations.Sql

/-- A statement of a batch. -/
inductive Command where
  | select
  | createTable (name : String)
  | dropTable (name : String)
  | deleteFrom (name : String)
  | insert (table filename : String)
  deriving DecidableEq, Repr

/-- A table name at the start of a text, and what follows it. -/
def name? (cs : List Char) : Option (String × List Char) :=
  match cs with
  | '"' :: rest =>
    match Text.splitFirst? '"' rest with
    | some (c :: inner, rest) => some (String.ofList (c :: inner), rest)
    | _ => none
  | c :: rest =>
    if isIdentifierStart c then
      some (String.ofList (c :: rest.takeWhile isIdentifierRest), rest.dropWhile isIdentifierRest)
    else none
  | [] => none

/-- What follows a word at the start of a text; the word must end there. -/
def afterWord? (word : String) (cs : List Char) : Option (List Char) :=
  if (cs.take word.length).map Char.toUpper = word.toList then
    let rest := cs.drop word.length
    match rest with
    | c :: _ => if isIdentifierRest c then none else some (rest.dropWhile Text.isBlank)
    | [] => some []
  else none

/-- What follows words at the start of a text. -/
def afterWords? (words : List String) (cs : List Char) : Option (List Char) :=
  words.foldlM (fun rest word => afterWord? word rest) cs

/-- The table after some words, and the trimmed text after it. -/
def tableAfter? (words : List String) (cs : List Char) : Option (String × List Char) := do
  let (table, rest) ← name? (← afterWords? words cs)
  return (table, Text.trim rest)

/-- The file name in the values of an insertion. -/
def insertedFilename? (cs : List Char) : Option String := do
  let rest ← Text.dropBeginning? "(filename) VALUES ('".toList cs
  let filename ← Text.dropEnding? ['\'', ')'] rest
  if filename.contains '\'' then none else some (String.ofList filename)

/-- The command that a trimmed text writes. -/
def command? (cs : List Char) : Option Command :=
  if let some rest := afterWord? "SELECT" cs then
    if rest.isEmpty then none else some .select
  else if let some (table, rest) := tableAfter? ["CREATE", "TABLE"] cs then
    if rest.head? = some '(' ∧ rest.getLast? = some ')' then some (.createTable table) else none
  else if let some (table, rest) := tableAfter? ["DROP", "TABLE"] cs then
    if rest.isEmpty then some (.dropTable table) else none
  else if let some (table, rest) := tableAfter? ["DELETE", "FROM"] cs then
    if rest.isEmpty then some (.deleteFrom table) else none
  else if let some (table, rest) := tableAfter? ["INSERT", "INTO"] cs then
    (insertedFilename? rest).map (.insert table)
  else none

/-- The texts between semicolons, trimmed, without the empty ones. -/
def statements (cs : List Char) : List (List Char) :=
  ((Text.pieces ';' cs).map Text.trim).filter fun piece => !piece.isEmpty

/-- The table that a text creates for tracking, if it is such a text. -/
def createdTracking? (sql : String) : Option (Option String) :=
  let cs := sql.toList
  if "CREATE SEQUENCE IF NOT EXISTS \"".toList.isPrefixOf cs then
    some do
      let rest ← Text.afterFirst? "CREATE TABLE IF NOT EXISTS".toList cs
      let (table, _) ← name? (rest.dropWhile Text.isBlank)
      return table
  else none

/-- The table between a fixed beginning and a fixed ending. -/
def tableWithin? (opening closing : String) (sql : String) : Option String := do
  let (table, rest) ← name? (← Text.dropBeginning? opening.toList sql.toList)
  if rest = closing.toList then some table else none

/-- A query that a store answers. -/
inductive Query where
  | parameters (count : Nat)
  | countOf (table : String)
  | recordsOf (table : String)
  deriving DecidableEq, Repr

/-- The number of question marks in a list of them, which may be empty. -/
def parameterCount? (cs : List Char) : Option Nat := do
  let rest ← Text.dropBeginning? "SELECT ".toList cs
  if rest = [] then return 0
  let marks := Text.pieces ',' rest
  if marks.head? = some ['?'] ∧ marks.tail.all (· == [' ', '?']) then some marks.length else none

def query? (sql : String) : Option Query :=
  if let some count := parameterCount? sql.toList then some (.parameters count)
  else if let some table := tableWithin? "SELECT COUNT(*) FROM " " WHERE filename = ?" sql then
    some (.countOf table)
  else if let some table :=
      tableWithin? "SELECT filename, applied_at FROM " " ORDER BY id" sql then
    some (.recordsOf table)
  else none

/-- The table of a parameterised insertion. -/
def insertion? (sql : String) : Option String :=
  tableWithin? "INSERT INTO " " (filename) VALUES (?)" sql

end SqlMigrations.Sql
