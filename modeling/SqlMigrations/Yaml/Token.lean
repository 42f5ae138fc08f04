import SqlMigrations.Yaml.Scalar

/-!
# YAML tokens

A text is cut into tokens from its start. Indentation opens and closes blocks, and a key without a
mark of its own is found only when its colon comes: the key token is then put in before it.
-/

namespace SqlMigrations.Yaml

inductive Token where
  | versionDirective (isKnown : Bool)
  | tagDirective (handle : String)
  | documentStart
  | documentEnd
  | blockSequenceStart
  | blockMappingStart
  | blockEnd
  | flowSequenceStart
  | flowSequenceEnd
  | flowMappingStart
  | flowMappingEnd
  | blockEntry
  | flowEntry
  | key
  | value
  | alias (name : String)
  | anchor (name : String)
  | tag (handle : String)
  | scalar (text : String) (isPlain : Bool)
  deriving DecidableEq, Repr

/-- A place where a key without a mark may have started, with the number of the next token there. -/
structure KeyPlace where
  isPossible : Bool := false
  isRequired : Bool := false
  tokenNumber : Nat := 0
  line : Nat := 0
  column : Nat := 0
  offset : Nat := 0

/-- The state of the cutting: one key place for the block level and for each open flow
collection. -/
structure Scanner where
  cursor : Cursor
  tokens : List Token := []
  indent : Int := -1
  indents : List Int := []
  keyAllowed : Bool := true
  blockKey : KeyPlace := {}
  flowKeys : List KeyPlace := []

/-- Steps of the cutting; a text that is no YAML has no result. -/
abbrev Scan := StateT Scanner Option

namespace Scan

def refuse {α : Type} : Scan α := fun _ => none

def cursor : Scan Cursor := return (← get).cursor

def setCursor (c : Cursor) : Scan Unit := modify fun s => { s with cursor := c }

def skip (count : Nat) : Scan Unit := modify fun s => { s with cursor := s.cursor.advance count }

def emit (token : Token) : Scan Unit := modify fun s => { s with tokens := s.tokens ++ [token] }

def inFlow : Scan Bool := return !(← get).flowKeys.isEmpty

def allowKey (allowed : Bool) : Scan Unit := modify fun s => { s with keyAllowed := allowed }

/-- The key place of the innermost collection. -/
def keyPlace : Scan KeyPlace := do
  let s ← get
  return s.flowKeys.head?.getD s.blockKey

def setKeyPlace (k : KeyPlace) : Scan Unit := modify fun s =>
  match s.flowKeys with
  | _ :: rest => { s with flowKeys := k :: rest }
  | [] => { s with blockKey := k }

/-- A key place on an earlier line, or more than 1024 bytes back, is given up; one that must hold a
key must not be. -/
def refresh? (c : Cursor) (k : KeyPlace) : Option KeyPlace :=
  if k.isPossible ∧ (k.line < c.line ∨ k.offset + 1024 < c.offset) then
    if k.isRequired then none else some { k with isPossible := false }
  else some k

def refreshKeys : Scan Unit := do
  let s ← get
  let some blockKey := refresh? s.cursor s.blockKey | refuse
  let some flowKeys := s.flowKeys.mapM (refresh? s.cursor) | refuse
  set { s with blockKey, flowKeys }

/-- Gives up the innermost key place. -/
def dropKey : Scan Unit := do
  let k ← keyPlace
  if k.isPossible && k.isRequired then refuse
  setKeyPlace { k with isPossible := false }

/-- Takes this place for the start of a key, where one is allowed. -/
def saveKey : Scan Unit := do
  let s ← get
  if s.keyAllowed then
    dropKey
    setKeyPlace {
      isPossible := true
      isRequired := s.flowKeys.isEmpty && s.indent == s.cursor.column
      tokenNumber := s.tokens.length
      line := s.cursor.line
      column := s.cursor.column
      offset := s.cursor.offset }

/-- Opens a block at a column right of the current one, with its token at a position or at the
end. -/
def openBlock (column : Nat) (position : Option Nat) (token : Token) : Scan Unit := do
  let s ← get
  if s.flowKeys.isEmpty && s.indent < column then
    let tokens := match position with
      | some n => s.tokens.insertIdx n token
      | none => s.tokens ++ [token]
    set { s with tokens, indent := column, indents := s.indent :: s.indents }

/-- The blocks that remain, and how many end, when a line starts at a column. -/
def closing (column : Int) : List Int → Int → Nat × Int × List Int
  | [], indent => (0, indent, [])
  | outer :: rest, indent =>
    if column < indent then
      let (count, indent, indents) := closing column rest outer
      (count + 1, indent, indents)
    else (0, indent, outer :: rest)

/-- Ends the blocks that are indented more than a column. -/
def closeBlocks (column : Int) : Scan Unit := modify fun s =>
  if s.flowKeys.isEmpty then
    let (count, indent, indents) := closing column s.indents s.indent
    { s with tokens := s.tokens ++ List.replicate count .blockEnd, indent, indents }
  else s

/-- Skips byte-order marks, blanks, comments and line breaks up to the next token. -/
def skipToToken : (fuel : Nat) → Scan Unit
  | 0 => return
  | fuel + 1 => do
    let s ← get
    let tabs := !s.flowKeys.isEmpty || !s.keyAllowed
    let c := s.cursor.skipByteOrderMark.skipWhile fun ch => ch == ' ' || (tabs && ch == '\t')
    let c := if c.peek? = some '#' then c.skipWhile fun ch => !isBreak ch else c
    match c.takeBreak? with
    | some (_, next) =>
      setCursor next
      if s.flowKeys.isEmpty then allowKey true
      skipToToken fuel
    | none => setCursor c

/-- A number of a version: one to nine digits. -/
def versionNumber? (c : Cursor) : Option (Nat × Cursor) :=
  let (run, c) := c.span Char.isDigit
  if run = [] ∨ 9 < run.length then none else some (Nat.ofDigitChars 10 run 0, c)

/-- A tag handle: words between two exclamation marks, the second of which may be missing. -/
def handle? (c : Cursor) : Option (List Char × Cursor) :=
  match c.rest with
  | '!' :: _ =>
    let (word, after) := (c.advance 1).span isWordChar
    if after.peek? = some '!' then some ('!' :: word ++ ['!'], after.advance 1)
    else some ('!' :: word, after)
  | _ => none

def isUriChar (wide : Bool) (c : Char) : Bool :=
  isWordChar c || ";/?:@&=+$.%!~*'()".toList.contains c || (wide && ",[]".toList.contains c)

/-- The number of bytes of a UTF-8 sequence by its leading byte. -/
def utf8Width? (lead : Nat) : Option Nat :=
  if lead < 0x80 then some 1
  else if 0xC0 ≤ lead ∧ lead < 0xE0 then some 2
  else if 0xE0 ≤ lead ∧ lead < 0xF0 then some 3
  else if 0xF0 ≤ lead ∧ lead < 0xF8 then some 4
  else none

/-- Whether the percent escapes of a URI stand for UTF-8 sequences; `owed` bytes of one are still to
come. -/
def validEscapes : (owed : Nat) → List Char → Bool
  | owed, '%' :: a :: b :: rest =>
    match hexValue? [a, b] with
    | none => false
    | some byte =>
      match owed with
      | 0 => (utf8Width? byte).any fun width => validEscapes (width - 1) rest
      | owed + 1 => 0x80 ≤ byte && byte < 0xC0 && validEscapes owed rest
  | 0, c :: rest => c != '%' && validEscapes 0 rest
  | _ + 1, _ => false
  | 0, [] => true

/-- The characters of a URI from here. -/
def uri? (wide : Bool) (c : Cursor) : Option (List Char × Cursor) :=
  let (run, after) := c.span (isUriChar wide)
  if validEscapes 0 run then some (run, after) else none

/-- What follows the value of a directive: blanks and a comment up to the end of the line. -/
def endOfDirective? (c : Cursor) : Option Cursor :=
  let c := c.skipWhile isBlank
  let c := if c.peek? = some '#' then c.skipWhile fun ch => !isBreak ch else c
  if c.peek?.all isBreak then some c.skipBreak else none

def directive? (c : Cursor) : Option (Token × Cursor) := do
  let (name, c) := (c.advance 1).span isWordChar
  guard (isGap c.peek?)
  if name = "YAML".toList then
    let (major, c) ← versionNumber? (c.skipWhile isBlank)
    guard (c.peek? = some '.')
    let (minor, c) ← versionNumber? (c.advance 1)
    return (.versionDirective (major == 1 && (minor == 1 || minor == 2)), ← endOfDirective? c)
  else if name = "TAG".toList then
    let (handle, c) ← handle? (c.skipWhile isBlank)
    guard (handle = ['!'] ∨ (handle.length ≠ 1 ∧ handle.getLast? = some '!'))
    guard (c.peek?.any isBlank)
    let (run, c) ← uri? true (c.skipWhile isBlank)
    guard (run ≠ [] ∧ isGap c.peek?)
    return (.tagDirective (String.ofList handle), ← endOfDirective? c)
  else none

/-- The name of an anchor or alias, and the end. -/
def anchorName? (c : Cursor) : Option (String × Cursor) :=
  let (name, c) := c.span isWordChar
  if name ≠ [] ∧ (isGap c.peek? ∨ c.peek?.any fun d => "?:,]\x7d%@`".toList.contains d) then
    some (String.ofList name, c)
  else none

/-- The handle of a tag; verbatim tags and the tag `!` have an empty one. -/
def tag? (inFlow : Bool) (c : Cursor) : Option (String × Cursor) := do
  let (handle, c) ←
    if c.second? = some '<' then do
      let (run, c) ← uri? true (c.advance 2)
      guard (run ≠ [] ∧ c.peek? = some '>')
      pure ("", c.advance 1)
    else do
      let (handle, after) ← handle? c
      if 1 < handle.length ∧ handle.getLast? = some '!' then
        let (run, after) ← uri? false after
        guard (run ≠ [])
        pure (String.ofList handle, after)
      else
        let (run, after) ← uri? false after
        pure (if handle.length = 1 ∧ run = [] then "" else "!", after)
  guard (isGap c.peek? ∨ (inFlow ∧ c.peek? = some ','))
  return (handle, c)

/-- A step that reads from the cursor and moves it. -/
def reading {α : Type} (read : Cursor → Option (α × Cursor)) : Scan α := do
  let some (result, c) := read (← cursor) | refuse
  setCursor c
  return result

/-- Ends all blocks before something that stands for itself on a line. -/
def leaveBlocks : Scan Unit := do
  closeBlocks (-1)
  dropKey
  allowKey false

def openFlow (token : Token) : Scan Unit := do
  saveKey
  modify fun s => { s with flowKeys := {} :: s.flowKeys, keyAllowed := true }
  skip 1
  emit token

def closeFlow (token : Token) : Scan Unit := do
  dropKey
  modify fun s => { s with flowKeys := s.flowKeys.tail, keyAllowed := false }
  skip 1
  emit token

/-- A mark that opens an entry or key; in a block it must stand where a key may start. -/
def blockMark (opening token : Token) (keyAfter : Bool) : Scan Unit := do
  let s ← get
  if s.flowKeys.isEmpty then
    if !s.keyAllowed then refuse
    openBlock s.cursor.column none opening
  dropKey
  allowKey keyAfter
  skip 1
  emit token

/-- A colon that ends a key: one that started at the key place, or an empty one. -/
def valueMark : Scan Unit := do
  let s ← get
  let k ← keyPlace
  if k.isPossible then
    modify fun s => { s with tokens := s.tokens.insertIdx k.tokenNumber .key }
    openBlock k.column (some k.tokenNumber) .blockMappingStart
    setKeyPlace { k with isPossible := false }
    allowKey false
  else
    if s.flowKeys.isEmpty then
      if !s.keyAllowed then refuse
      openBlock s.cursor.column none .blockMappingStart
    allowKey s.flowKeys.isEmpty
  skip 1
  emit .value

/-- Something that may be a key or the start of one. -/
def keyLike (token : Scan Token) : Scan Unit := do
  saveKey
  allowKey false
  emit (← token)

def plainToken : Scan Token := do
  let s ← get
  let some (text, isBroken, c) :=
    plain? (!s.flowKeys.isEmpty) s.indent (s.cursor.rest.length + 1) {} s.cursor | refuse
  setCursor c
  if isBroken then allowKey true
  return .scalar (String.ofList text) true

def quotedToken (quote : Char) : Scan Token := do
  let text ← reading fun c => quoted? quote (c.rest.length + 1) (c.advance 1)
  return .scalar (String.ofList text) false

def blockToken (isLiteral : Bool) : Scan Unit := do
  dropKey
  allowKey true
  let s ← get
  let text ← reading fun c => block? isLiteral s.indent (c.advance 1)
  emit (.scalar (String.ofList text) false)

/-- Whether a plain scalar may start with a character, given the one after it. -/
def startsPlain (inFlow : Bool) (c : Char) (next : Option Char) : Bool :=
  if c == '-' then !next.any isBlank
  else if c == '?' || c == ':' then !inFlow && !isGap next
  else !isBlank c && !isBreak c && !",[]\x7b\x7d#&*!|>'\"%@`".toList.contains c

/-- Reads the token that starts here. -/
def tokenAt (c : Char) (next : Option Char) : Scan Unit := do
  let flow ← inFlow
  let here ← cursor
  if here.column = 0 ∧ c = '%' then
    leaveBlocks
    emit (← reading directive?)
  else if here.isAtMarker '-' then
    leaveBlocks
    skip 3
    emit .documentStart
  else if here.isAtMarker '.' then
    leaveBlocks
    skip 3
    emit .documentEnd
  else if c = '[' then openFlow .flowSequenceStart
  else if c = '\x7b' then openFlow .flowMappingStart
  else if c = ']' then closeFlow .flowSequenceEnd
  else if c = '\x7d' then closeFlow .flowMappingEnd
  else if c = ',' then
    dropKey
    allowKey true
    skip 1
    emit .flowEntry
  else if c = '-' ∧ isGap next then blockMark .blockSequenceStart .blockEntry true
  else if c = '?' ∧ (flow ∨ isGap next) then blockMark .blockMappingStart .key !flow
  else if c = ':' ∧ (flow ∨ isGap next) then valueMark
  else if c = '*' then
    keyLike do return .alias (← reading fun here => anchorName? (here.advance 1))
  else if c = '&' then
    keyLike do return .anchor (← reading fun here => anchorName? (here.advance 1))
  else if c = '!' then keyLike do return .tag (← reading (tag? flow))
  else if c = '|' ∧ !flow then blockToken true
  else if c = '>' ∧ !flow then blockToken false
  else if c = '\'' ∨ c = '"' then keyLike (quotedToken c)
  else if startsPlain flow c next then keyLike plainToken
  else refuse

/-- Reads tokens to the end of the text. -/
def all : (fuel : Nat) → Scan Unit
  | 0 => refuse
  | fuel + 1 => do
    let c ← cursor
    skipToToken (c.rest.length + 1)
    refreshKeys
    let c ← cursor
    closeBlocks c.column
    match c.rest with
    | [] => leaveBlocks
    | first :: rest =>
      tokenAt first rest.head?
      all fuel

end Scan

/-- The characters that a YAML text may hold. -/
def isAllowed (c : Char) : Bool :=
  let n := c.toNat
  n == 9 || n == 10 || n == 13 || (0x20 ≤ n && n ≤ 0x7E) || n == 0x85 ||
    (0xA0 ≤ n && n ≤ 0xD7FF) || (0xE000 ≤ n && n ≤ 0xFFFD) || 0x10000 ≤ n

/-- The tokens of a text. -/
def Token.all? (text : String) : Option (List Token) := do
  let cs := text.toList
  guard (cs.all isAllowed)
  let (_, s) ← (Scan.all (cs.length + 2)).run { cursor := ⟨cs, 0, 0, 0⟩ }
  return s.tokens

end SqlMigrations.Yaml
