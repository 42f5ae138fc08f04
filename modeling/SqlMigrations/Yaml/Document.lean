import SqlMigrations.Yaml.Token

/-!
# YAML documents

A text holds one document of scalars and mappings; sequences are refused where they start. An alias
stands for the node with its anchor. Tags must be well-formed but have no effect.
-/

namespace SqlMigrations.Yaml

inductive Node where
  | scalar (text : String) (isPlain : Bool)
  | mapping (entries : List (Node × Node))
  | alias (number : Nat)
  deriving Inhabited

/-- A node with an anchor. -/
structure Anchored where
  number : Nat
  position : Nat
  node : Node

/-- A document. A text without any document counts as one without a root. -/
structure Document where
  root : Option Node
  anchored : List Anchored

namespace Node

/-- What has been read so far. An anchor's number is the count of anchor names before it, also when
its name has been used before. -/
structure State where
  tokens : List Token
  handles : List String := []
  names : List (String × Nat) := []
  anchored : List Anchored := []
  position : Nat := 0

abbrev Read := StateT State Option

def refuse {α : Type} : Read α := fun _ => none

def peek? : Read (Option Token) := return (← get).tokens.head?

def advance : Read Unit := modify fun s => { s with tokens := s.tokens.tail }

/-- Skips a token if it comes next. -/
def skips (token : Token) : Read Bool := do
  if (← peek?) = some token then
    advance
    return true
  else return false

/-- Skips a token that must come next. -/
def expect (token : Token) : Read Unit := do
  if !(← skips token) then refuse

/-- The number of an anchor that starts here. -/
def number (name : Option String) : Read (Option Nat) := do
  match name with
  | none => return none
  | some name =>
    let s ← get
    let n := s.names.length
    set { s with names := (name, n) :: s.names.filter fun entry => entry.1 != name }
    return some n

def keep (number : Option Nat) (position : Nat) (node : Node) : Read Node := do
  if let some n := number then
    modify fun s => { s with anchored := ⟨n, position, node⟩ :: s.anchored }
  return node

def empty : Node := .scalar "" true

/-- A handle must be a predefined one or be declared. -/
def checkHandle (handle : Option String) : Read Unit := do
  if let some h := handle then
    if h ≠ "" ∧ h ≠ "!" ∧ h ≠ "!!" ∧ !(← get).handles.contains h then refuse

/-- The anchor and tag in front of a node, in either order. -/
def properties : Read (Option String × Option String) := do
  match ← peek? with
  | some (.anchor name) =>
    advance
    match ← peek? with
    | some (.tag handle) =>
      advance
      return (some name, some handle)
    | _ => return (some name, none)
  | some (.tag handle) =>
    advance
    match ← peek? with
    | some (.anchor name) =>
      advance
      return (some name, some handle)
    | _ => return (none, some handle)
  | _ => return (none, none)

/-- Whether the next token leaves a place empty. -/
def leavesEmpty (marks : List Token) : Read Bool := do
  match ← peek? with
  | some token => return marks.contains token
  | none => return false

mutual

/-- The node that comes next. In a block it may be a block collection. -/
def read (inBlock : Bool) : (fuel : Nat) → Read Node
  | 0 => refuse
  | fuel + 1 => do
    modify fun s => { s with position := s.position + 1 }
    let position := (← get).position
    if let some (.alias name) ← peek? then
      advance
      match (← get).names.lookup name with
      | some n => return .alias n
      | none => refuse
    else
      let (anchor, tag) ← properties
      checkHandle tag
      let n ← number anchor
      match ← peek? with
      | some (.scalar text isPlain) =>
        advance
        keep n position (.scalar text isPlain)
      | some .flowMappingStart =>
        advance
        keep n position (.mapping (← flowEntries true fuel))
      | some .blockMappingStart =>
        if !inBlock then refuse
        advance
        keep n position (.mapping (← blockEntries fuel))
      | some .flowSequenceStart | some .blockSequenceStart | some .blockEntry => refuse
      | _ => if anchor.isSome || tag.isSome then keep n position empty else refuse

/-- A node, or an empty one where a mark says so. -/
def readOr (inBlock : Bool) (marks : List Token) : (fuel : Nat) → Read Node
  | 0 => refuse
  | fuel + 1 => do
    if ← leavesEmpty marks then return empty else read inBlock fuel

/-- The entries of a block mapping up to its end. -/
def blockEntries : (fuel : Nat) → Read (List (Node × Node))
  | 0 => refuse
  | fuel + 1 => do
    if ← skips .blockEnd then return []
    expect .key
    let marks := [.key, .value, .blockEnd]
    let key ← readOr true marks fuel
    let value ← if ← skips .value then readOr true marks fuel else pure empty
    return (key, value) :: (← blockEntries fuel)

/-- The entries of a flow mapping up to its end. -/
def flowEntries (isFirst : Bool) : (fuel : Nat) → Read (List (Node × Node))
  | 0 => refuse
  | fuel + 1 => do
    if ← skips .flowMappingEnd then return []
    if !isFirst then expect .flowEntry
    if ← skips .flowMappingEnd then return []
    if ← skips .key then
      let key ← readOr false [.value, .flowEntry, .flowMappingEnd] fuel
      let value ←
        if ← skips .value then readOr false [.flowEntry, .flowMappingEnd] fuel else pure empty
      return (key, value) :: (← flowEntries false fuel)
    else
      let key ← read false fuel
      return (key, empty) :: (← flowEntries false fuel)

end

/-- Reads the directives in front of a document. -/
def directives : (fuel : Nat) → (hasVersion : Bool) → Read Unit
  | 0, _ => refuse
  | fuel + 1, hasVersion => do
    match ← peek? with
    | some (.versionDirective isKnown) =>
      if hasVersion || !isKnown then refuse
      advance
      directives fuel true
    | some (.tagDirective handle) =>
      if (← get).handles.contains handle then refuse
      modify fun s => { s with handles := handle :: s.handles }
      advance
      directives fuel hasVersion
    | _ => return

/-- Whether a document starts with a token other than its content. -/
def isExplicit : Option Token → Bool
  | some (.versionDirective _) | some (.tagDirective _) | some .documentStart => true
  | _ => false

/-- Skips the ends of documents. -/
def skipEnds : (fuel : Nat) → Read Unit
  | 0 => return
  | fuel + 1 => do
    if ← skips .documentEnd then skipEnds fuel

/-- The only document of a text. -/
def document (fuel : Nat) : Read (Option Node) := do
  if (← get).tokens.isEmpty then return none
  let root ←
    if isExplicit (← peek?) then do
      directives fuel false
      expect .documentStart
      let next ← peek?
      if next = none ∨ next = some .documentEnd ∨ isExplicit next then pure empty
      else read true fuel
    else read true fuel
  skipEnds fuel
  if !(← get).tokens.isEmpty then refuse
  return some root

end Node

namespace Document

/-- The document that a text holds. -/
def parse? (text : String) : Option Document := do
  let tokens ← Token.all? text
  let (root, s) ← (Node.document (3 * tokens.length + 3)).run { tokens }
  return ⟨root, s.anchored⟩

/-- The later one of two anchored nodes. -/
def later (a : Option Anchored) (b : Anchored) : Option Anchored :=
  match a with
  | some a => if a.position < b.position then some b else some a
  | none => some b

/-- A node with an alias replaced by what it stands for. -/
def resolve? (d : Document) : Node → Option Node
  | .alias n => ((d.anchored.filter fun a => a.number == n).foldl later none).map (·.node)
  | node => some node

/-- The text of a scalar, whatever its style. -/
def text? (d : Document) (node : Node) : Option String :=
  match d.resolve? node with
  | some (.scalar text _) => some text
  | _ => none

/-- The fields of a mapping with scalar keys; an empty plain scalar is an empty mapping. -/
def fields? (d : Document) (node : Node) : Option (List (String × Node)) := do
  match ← d.resolve? node with
  | .mapping entries => entries.mapM fun (key, value) => (d.text? key).map fun name => (name, value)
  | .scalar "" true => some []
  | _ => none

end Document
end SqlMigrations.Yaml
