import SqlMigrations.Text.Decimal
import SqlMigrations.Text.Pieces

/-!
# Command lines

A command line has a part before its subcommand and a part after it. The global options may stand in
either part, once in each; the later part wins. Words are read from left to right, and the first
fault ends the reading. An option's value is checked when the next option comes or the part ends.
-/

namespace SqlMigrations.Cli

inductive ArgumentError where
  | unknownArgument
  | invalidSubcommand
  | missingSubcommand
  | missingEverything
  | invalidValue
  | conflict
  | tooManyValues
  | valueValidation
  | displayHelp
  | displayVersion
  deriving DecidableEq, Repr

inductive Opt where
  | verbose
  | projectDir
  | config
  | target
  | database
  | dir
  | toVersion
  | json
  | help
  | version
  deriving DecidableEq, Repr

namespace Opt

def takesValue : Opt → Bool
  | .projectDir | .config | .target | .database | .dir | .toVersion => true
  | .verbose | .json | .help | .version => false

def ofLong? : List Char → Option Opt
  | name =>
    [("verbose", verbose), ("project-dir", projectDir), ("config", config), ("target", target),
      ("database", database), ("dir", dir), ("to-version", toVersion), ("json", json),
      ("help", help), ("version", version)].lookup (String.ofList name)

def ofShort? : Char → Option Opt
  | 'v' => some verbose
  | 'p' => some projectDir
  | 'c' => some config
  | 't' => some target
  | 'h' => some help
  | 'V' => some version
  | _ => none

end Opt

inductive Subcommand where
  | run
  | status
  deriving DecidableEq, Repr

def Subcommand.ofName? : String → Option Subcommand
  | "run" => some .run
  | "status" => some .status
  | _ => none

/-- A part of a command line: before the subcommand, or after one. -/
abbrev Part := Option Subcommand

/-- Whether an option may stand in a part. -/
def Opt.isKnownIn (part : Part) : Opt → Bool
  | .toVersion => part == some .run
  | .json => part == some .status
  | .version => part == none
  | _ => true

/-- A version of at least one; a plus sign and zeros may stand before it. -/
def readVersion? (text : String) : Option UInt64 :=
  let digits := match text.toList with
    | '+' :: rest => rest
    | cs => cs
  match Decimal.readUInt64? digits with
  | some n => if n = 0 then none else some n
  | none => none

/-- What a part holds so far: the options with their values, an empty text for a flag; an option
whose value is not yet checked or has yet to come; and whether a double dash has been read. -/
structure PartState where
  given : List (Opt × String) := []
  pending : Option (Opt × Option String) := none
  isTrailing : Bool := false
  deriving DecidableEq, Repr

namespace PartState

/-- Whether the next word may be a value. -/
def awaitsValue (s : PartState) : Bool :=
  match s.pending with
  | some (_, none) => true
  | _ => false

/-- Adds an option that must not be there yet. -/
def add (s : PartState) (o : Opt) (value : String) : Except ArgumentError PartState :=
  if s.given.any fun g => g.1 == o then .error .conflict
  else if o = .toVersion ∧ readVersion? value = none then .error .valueValidation
  else .ok { s with given := s.given ++ [(o, value)] }

/-- Checks the pending option. -/
def settle (s : PartState) : Except ArgumentError PartState :=
  match s.pending with
  | none => .ok s
  | some (_, none) => .error .invalidValue
  | some (o, some value) => { s with pending := none }.add o value

/-- A flag without a value. -/
def flag (s : PartState) (o : Opt) : Except ArgumentError PartState := do
  let s ← s.settle
  match o with
  | .help => throw .displayHelp
  | .version => throw .displayVersion
  | o => s.add o ""

/-- An option that takes a value, which may be attached to it. -/
def option (s : PartState) (o : Opt) (attached : Option String) :
    Except ArgumentError PartState := do
  let s ← s.settle
  match attached with
  | some value => s.add o value
  | none => return { s with pending := some (o, none) }

/-- A word that starts with two dashes, without them. -/
def long (part : Part) (s : PartState) (word : List Char) : Except ArgumentError PartState :=
  let (name, attached) := match Text.splitFirst? '=' word with
    | some (name, value) => (name, some (String.ofList value))
    | none => (word, none)
  match (Opt.ofLong? name).filter (Opt.isKnownIn part) with
  | none => .error .unknownArgument
  | some o =>
    if o.takesValue then s.option o attached
    else if attached.isSome then .error .tooManyValues
    else s.flag o

/-- The value attached to a short option; an equals sign before it does not belong to it. -/
def attachedValue? : List Char → Option String
  | [] => none
  | '=' :: value => some (String.ofList value)
  | value => some (String.ofList value)

/-- The letters of a word that starts with one dash. -/
def short (part : Part) (s : PartState) : List Char → Except ArgumentError PartState
  | [] => .ok s
  | c :: rest =>
    match (Opt.ofShort? c).filter (Opt.isKnownIn part) with
    | none => .error .unknownArgument
    | some o =>
      if o.takesValue then s.option o (attachedValue? rest)
      else
        match s.flag o with
        | .ok s => short part s rest
        | .error e => .error e

/-- What a word without a place in a part is. -/
def surplus (part : Part) (s : PartState) (word : String) : ArgumentError :=
  if part.isSome then .unknownArgument
  else if s.isTrailing && ["run", "status", "help"].contains word then .unknownArgument
  else .invalidSubcommand

/-- A word that is no subcommand. -/
def word (part : Part) (s : PartState) (word : String) : Except ArgumentError PartState :=
  let plain : Except ArgumentError PartState :=
    match s.pending with
    | some (o, none) =>
      if s.isTrailing then .error (s.surplus part word)
      else .ok { s with pending := some (o, some word) }
    | _ => .error (s.surplus part word)
  if s.isTrailing then plain
  else
    match word.toList with
    | ['-', '-'] => .ok { s with isTrailing := true }
    | '-' :: '-' :: rest => s.long part rest
    | '-' :: c :: rest => s.short part (c :: rest)
    | _ => plain

end PartState

/-- Reads the part after a subcommand. -/
def readWords (part : Part) (s : PartState) : List String → Except ArgumentError PartState
  | [] => .ok s
  | w :: ws =>
    match s.word part w with
    | .ok s => readWords part s ws
    | .error e => .error e

/-- Reads the part before a subcommand, up to and with the subcommand. -/
def readToSubcommand (s : PartState) :
    List String → Except ArgumentError (PartState × Option (Subcommand × List String))
  | [] => .ok (s, none)
  | w :: ws =>
    if s.isTrailing || s.awaitsValue then
      match s.word none w with
      | .ok s => readToSubcommand s ws
      | .error e => .error e
    else
      match Subcommand.ofName? w with
      | some sub => .ok (s, some (sub, ws))
      | none =>
        if w = "help" then
          match ws with
          | [] => .error .displayHelp
          | [topic] =>
            .error (if ["run", "status", "help"].contains topic then .displayHelp
              else .invalidSubcommand)
          | _ => .error .invalidSubcommand
        else
          match s.word none w with
          | .ok s => readToSubcommand s ws
          | .error e => .error e

/-- The options that every subcommand has. -/
structure GlobalArgs where
  verbose : Bool := false
  projectDir : String := "."
  config : Option String := none
  target : Option String := none
  database : Option String := none
  dir : Option String := none
  deriving DecidableEq, Repr

inductive Command where
  | run (toVersion : Option UInt64)
  | status (json : Bool)
  deriving DecidableEq, Repr

structure Arguments where
  global : GlobalArgs
  command : Command
  deriving DecidableEq, Repr

/-- The value of an option: in the part after the subcommand, else in the part before it. -/
def valueOf? (before after : PartState) (o : Opt) : Option String :=
  (after.given.lookup o).or (before.given.lookup o)

/-- The global options of two parts; the environment gives the database where no option does. -/
def globalArgs (before after : PartState) (env : Option String) : GlobalArgs where
  verbose := (valueOf? before after .verbose).isSome
  projectDir := (valueOf? before after .projectDir).getD "."
  config := valueOf? before after .config
  target := valueOf? before after .target
  database := (valueOf? before after .database).or env
  dir := valueOf? before after .dir

/-- The subcommand with the options of its own. -/
def Subcommand.command (sub : Subcommand) (after : PartState) : Command :=
  match sub with
  | .run => .run ((after.given.lookup .toVersion).bind readVersion?)
  | .status => .status (after.given.lookup .json).isSome

/-- Reads a command line; `env` is the database that the environment names. -/
def parse (words : List String) (env : Option String) : Except ArgumentError Arguments := do
  let (before, next) ← readToSubcommand {} words
  match next with
  | some (sub, rest) =>
    let after ← readWords (some sub) {} rest
    let after ← after.settle
    let before ← before.settle
    return ⟨globalArgs before after env, sub.command after⟩
  | none =>
    let before ← before.settle
    throw (if before.given.isEmpty && env.isNone then .missingEverything else .missingSubcommand)

end SqlMigrations.Cli
