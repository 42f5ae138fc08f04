import SqlMigrations.Json.Token
import SqlMigrations.Yaml.Cursor

/-!
# YAML scalars

The text of plain, quoted and block scalars. Within plain and quoted ones a single line break is
folded to a space, and of several breaks all but the first are kept.
-/

namespace SqlMigrations.Yaml

/-- What stands between two words of a scalar: blanks on one line, or line breaks. -/
structure Gap where
  blanks : List Char := []
  isBroken : Bool := false
  first : List Char := []
  others : List Char := []

namespace Gap

/-- A first break that is a line feed folds; any other is kept. -/
def fold (first others : List Char) : List Char :=
  if first = ['\n'] then (if others = [] then [' '] else others) else first ++ others

def text (g : Gap) : List Char := if g.isBroken then fold g.first g.others else g.blanks

/-- Reads blanks and line breaks. On a later line, a tab left of a column is refused. -/
def read? (leastTabColumn : Nat) : (fuel : Nat) → Gap → Cursor → Option (Gap × Cursor)
  | 0, _, _ => none
  | fuel + 1, g, c =>
    match c.takeBreak? with
    | some (b, next) =>
      if g.isBroken then read? leastTabColumn fuel { g with others := g.others ++ b } next
      else read? leastTabColumn fuel { g with blanks := [], isBroken := true, first := b } next
    | none =>
      match c.peek? with
      | some ch =>
        if isBlank ch then
          if g.isBroken then
            if ch = '\t' ∧ c.column < leastTabColumn then none
            else read? leastTabColumn fuel g (c.advance 1)
          else read? leastTabColumn fuel { g with blanks := g.blanks ++ [ch] } (c.advance 1)
        else some (g, c)
      | none => some (g, c)

end Gap

/-- The characters that open and close flow collections or part their entries. -/
def isFlowMark (c : Char) : Bool := c == ',' || c == '[' || c == ']' || c == '\x7b' || c == '\x7d'

/-- A word of a plain scalar. A colon before a gap ends it, and within a flow collection so do the
marks of one; a colon right before such a mark is refused. -/
def plainWord? (inFlow : Bool) : List Char → Option (List Char)
  | [] => some []
  | c :: rest =>
    if isBlank c || isBreak c then some []
    else if inFlow && c == ':' && rest.head?.any (fun d => isFlowMark d || d == '?') then none
    else if (c == ':' && isGap rest.head?) || (inFlow && isFlowMark c) then some []
    else (plainWord? inFlow rest).map (c :: ·)

/-- The text of a plain scalar that goes on here after a gap, whether a line break follows it, and
the end. -/
def plain? (inFlow : Bool) (indent : Int) :
    (fuel : Nat) → Gap → Cursor → Option (List Char × Bool × Cursor)
  | 0, _, _ => none
  | fuel + 1, gap, c =>
    if c.isAtDocumentMarker || c.peek? == some '#' then some ([], gap.isBroken, c)
    else do
      let word ← plainWord? inFlow c.rest
      if word = [] then return ([], gap.isBroken, c)
      let c := c.advance word.length
      let (next, after) ← Gap.read? (indent + 1).toNat (c.rest.length + 1) {} c
      let (more, isBroken, end_) ←
        if (c.peek?.isSome && after.offset == c.offset) || c.peek?.isNone ||
            (!inFlow && (after.column : Int) < indent + 1) then
          some ([], next.isBroken, after)
        else plain? inFlow indent fuel next after
      return (gap.text ++ word ++ more, isBroken, end_)

/-- How a run of a quoted scalar ends: at the closing quote, at an escaped line break, or at a gap
or the end of the text. -/
inductive RunEnd where
  | quote
  | escapedBreak
  | gap
  deriving DecidableEq

def hexValue? (digits : List Char) : Option Nat :=
  digits.foldlM (fun n c => (Json.Token.hexDigit? c).map fun d => 16 * n + d) 0

/-- The character of an escape by number. -/
def numberedChar? (width : Nat) (cs : List Char) : Option Char := do
  guard (width ≤ cs.length)
  let n ← hexValue? (cs.take width)
  guard (!(0xD800 ≤ n && n ≤ 0xDFFF) && n ≤ 0x10FFFF)
  return Char.ofNat n

def namedEscape? : Char → Option Char
  | '0' => some '\x00'
  | 'a' => some '\x07'
  | 'b' => some '\x08'
  | 't' | '\t' => some '\t'
  | 'n' => some '\n'
  | 'v' => some '\x0b'
  | 'f' => some '\x0c'
  | 'r' => some '\r'
  | 'e' => some '\x1b'
  | ' ' => some ' '
  | '"' => some '"'
  | '/' => some '/'
  | '\\' => some '\\'
  | 'N' => some '\u0085'
  | '_' => some '\u00a0'
  | 'L' => some '\u2028'
  | 'P' => some '\u2029'
  | _ => none

/-- The number of digits of an escape by number. -/
def escapeWidth? : Char → Option Nat
  | 'x' => some 2
  | 'u' => some 4
  | 'U' => some 8
  | _ => none

/-- A run of a single-quoted scalar without gaps; a quote in it is written twice. -/
def singleRun : List Char → List Char × RunEnd × List Char
  | [] => ([], .gap, [])
  | '\'' :: '\'' :: rest =>
    let (run, stop, after) := singleRun rest
    ('\'' :: run, stop, after)
  | '\'' :: rest => ([], .quote, rest)
  | c :: rest =>
    if isBlank c || isBreak c then ([], .gap, c :: rest)
    else
      let (run, stop, after) := singleRun rest
      (c :: run, stop, after)

/-- A run of a double-quoted scalar without gaps. -/
def doubleRun? : (fuel : Nat) → List Char → Option (List Char × RunEnd × List Char)
  | 0, _ => none
  | _, [] => some ([], .gap, [])
  | _, '"' :: rest => some ([], .quote, rest)
  | fuel + 1, '\\' :: e :: rest =>
    if isBreak e then some ([], .escapedBreak, e :: rest)
    else
      match escapeWidth? e with
      | some width => do
        let c ← numberedChar? width rest
        let (run, stop, after) ← doubleRun? fuel (rest.drop width)
        return (c :: run, stop, after)
      | none => do
        let c ← namedEscape? e
        let (run, stop, after) ← doubleRun? fuel rest
        return (c :: run, stop, after)
  | fuel + 1, c :: rest =>
    if isBlank c || isBreak c then some ([], .gap, c :: rest)
    else if c = '\\' then none
    else do
      let (run, stop, after) ← doubleRun? fuel rest
      return (c :: run, stop, after)

/-- The text of a quoted scalar whose opening quote has been read, and the end. -/
def quoted? (quote : Char) : (fuel : Nat) → Cursor → Option (List Char × Cursor)
  | 0, _ => none
  | fuel + 1, c =>
    if c.isAtDocumentMarker || c.rest.isEmpty then none
    else do
      let (run, stop, rest) ←
        if quote = '\'' then some (singleRun c.rest) else doubleRun? (c.rest.length + 1) c.rest
      let c := c.moveTo rest
      match stop with
      | .quote => return (run, c)
      | .escapedBreak =>
        let c := c.skipBreak
        if c.peek? = some quote then return (run, c.advance 1)
        let (gap, c) ← Gap.read? 0 (c.rest.length + 1) { isBroken := true } c
        let (more, c) ← quoted? quote fuel c
        return (run ++ gap.text ++ more, c)
      | .gap =>
        let (gap, c) ← Gap.read? 0 (c.rest.length + 1) {} c
        let (more, c) ← quoted? quote fuel c
        return (run ++ gap.text ++ more, c)

/-- What a block scalar does with the line breaks at its end. -/
inductive Chomping where
  | strip
  | clip
  | keep
  deriving DecidableEq

def chompingOf? : Char → Option Chomping
  | '+' => some .keep
  | '-' => some .strip
  | _ => none

/-- A digit from 1 to 9 as an indentation; other characters are none, and zero is refused. -/
def indentationOf? (c : Option Char) : Option (Option Nat) :=
  match c with
  | some d => if d = '0' then none else some (if d.isDigit then some (d.toNat - 48) else none)
  | none => some none

/-- The chomping and the indentation that the header of a block scalar states, in either order. -/
def blockHeader? (c : Cursor) : Option (Chomping × Option Nat × Cursor) := do
  match c.peek?.bind chompingOf? with
  | some chomping =>
    let c := c.advance 1
    let indentation ← indentationOf? c.peek?
    return (chomping, indentation, if indentation.isSome then c.advance 1 else c)
  | none =>
    match ← indentationOf? c.peek? with
    | some indentation =>
      let c := c.advance 1
      match c.peek?.bind chompingOf? with
      | some chomping => return (chomping, some indentation, c.advance 1)
      | none => return (.clip, some indentation, c)
    | none => return (.clip, none, c)

/-- Reads indentation and empty lines. Without a given indentation the widest line of blanks counts,
and a tab within the indentation is refused. -/
def blockBreaks? (indent : Nat) :
    (fuel : Nat) → (widest : Nat) → Cursor → Option (List Char × Nat × Cursor)
  | 0, _, _ => none
  | fuel + 1, widest, c =>
    let spaces := c.rest.takeWhile (· == ' ')
    let count := if indent = 0 then spaces.length else min spaces.length (indent - c.column)
    let c := c.advance count
    let widest := max widest c.column
    if c.peek? = some '\t' ∧ (indent = 0 ∨ c.column < indent) then none
    else
      match c.takeBreak? with
      | some (b, next) => do
        let (more, widest, end_) ← blockBreaks? indent fuel widest next
        return (b ++ more, widest, end_)
      | none => some ([], widest, c)

/-- The text of the lines of a block scalar from here, with the breaks before each line: `pending`
ends the line before, `breaks` are the empty lines after it. -/
def blockLines? (isLiteral : Bool) (indent : Nat) (chomping : Chomping) :
    (fuel : Nat) → (afterBlank : Bool) → (pending breaks : List Char) → Cursor →
      Option (List Char × Cursor)
  | 0, _, _, _, _ => none
  | fuel + 1, afterBlank, pending, breaks, c =>
    if c.column = indent ∧ ¬c.rest.isEmpty then do
      let startsBlank := c.peek?.any isBlank
      let before :=
        if !isLiteral && pending == ['\n'] && !afterBlank && !startsBlank then
          Gap.fold pending breaks
        else pending ++ breaks
      let (line, c) := c.span fun ch => !isBreak ch
      let (pending, c) := (c.takeBreak?).getD ([], c)
      let (breaks, _, c) ← blockBreaks? indent (c.rest.length + 1) 0 c
      let (more, c) ← blockLines? isLiteral indent chomping fuel startsBlank pending breaks c
      return (before ++ line ++ more, c)
    else
      match chomping with
      | .strip => some ([], c)
      | .clip => some (pending, c)
      | .keep => some (pending ++ breaks, c)

/-- The text of a block scalar whose mark has been read, and the end. -/
def block? (isLiteral : Bool) (parentIndent : Int) (c : Cursor) : Option (List Char × Cursor) := do
  let (chomping, indentation, c) ← blockHeader? c
  let c := c.skipWhile isBlank
  let c := if c.peek? = some '#' then c.skipWhile fun ch => !isBreak ch else c
  guard (c.peek?.all isBreak)
  let c := c.skipBreak
  let given := match indentation with
    | some n => (max parentIndent 0).toNat + n
    | none => 0
  let (breaks, widest, c) ← blockBreaks? given (c.rest.length + 1) 0 c
  let indent := if given = 0 then max widest (max (parentIndent + 1) 1).toNat else given
  blockLines? isLiteral indent chomping (c.rest.length + 1) false [] breaks c

end SqlMigrations.Yaml
