import SqlMigrations.FileSystem

/-!
# Trees with symbolic links

A tree of files, directories and symbolic links with a working directory. Paths are walked name by
name from the root or the working directory; a link is replaced by its target, at most forty times
in one walk. A path may also lead to a place in a directory where nothing stands yet: there a file
can be made.
-/

namespace SqlMigrations

/-- A file name: any bytes, usually UTF-8. -/
abbrev FileName := List UInt8

/-- A place in a tree: the names that lead to it from the root. -/
abbrev Place := List FileName

namespace Disk

inductive Item where
  | file (content : ByteArray)
  | directory
  | link (target : ByteArray)

/-- One move of a walk. -/
inductive Move where
  | stay
  | up
  | enter (name : FileName)
  deriving DecidableEq

/-- Bytes between slashes. -/
def pieces : List UInt8 → List (List UInt8)
  | [] => [[]]
  | b :: bs =>
    if b = 47 then [] :: pieces bs
    else match pieces bs with
      | [] => [[b]]
      | p :: ps => (b :: p) :: ps

/-- An empty piece and `.` stay, and so ask that what came before is a directory. -/
def moveOf (piece : List UInt8) : Move :=
  if piece = [] ∨ piece = [46] then .stay
  else if piece = [46, 46] then .up
  else .enter piece

/-- The moves that a path asks for, and whether they start at the root. -/
def moves (path : ByteArray) : Bool × List Move :=
  match path.data.toList with
  | 47 :: rest => (true, (pieces rest).map moveOf)
  | bytes => (false, (pieces bytes).map moveOf)

end Disk

structure Disk where
  items : List (Place × Disk.Item)
  cwd : Place

namespace Disk

/-- What stands at a place; the root is always a directory. -/
def itemAt? (d : Disk) (place : Place) : Option Item :=
  if place = [] then some .directory else d.items.lookup place

/-- The most bytes that a name may have. -/
def nameLimit : Nat := 255

/-- The most bytes that a path may have. -/
def pathLimit : Nat := 4095

/-- How far a walk gets before it meets a link. Nothing stands at a vacant place, in a directory. -/
inductive Walk where
  | found (place : Place) (item : Item)
  | vacant (place : Place)
  | fails (error : IoError)
  | meetsLink (parent : Place) (target : ByteArray) (rest : List Move)

/-- Walks from a directory until the moves end, fail or meet a link. -/
def walk (d : Disk) : Place → List Move → Walk
  | here, [] => .found here .directory
  | here, .stay :: rest => walk d here rest
  | here, .up :: rest => walk d here.dropLast rest
  | here, .enter name :: rest =>
    if nameLimit < name.length then .fails .nameTooLong
    else
      match d.itemAt? (here ++ [name]) with
      | none => if rest = [] then .vacant (here ++ [name]) else .fails .notFound
      | some .directory => walk d (here ++ [name]) rest
      | some (.link target) => .meetsLink here target rest
      | some (.file content) =>
        if rest = [] then .found (here ++ [name]) (.file content) else .fails .notADirectory

/-- The place that moves lead to, through at most `links` links, and what stands there. -/
def follow (d : Disk) : (links : Nat) → Place → List Move → Except IoError (Place × Option Item)
  | links, here, todo =>
    match d.walk here todo with
    | .found place item => .ok (place, some item)
    | .vacant place => .ok (place, none)
    | .fails error => .error error
    | .meetsLink parent target rest =>
      match links with
      | 0 => .error .tooManyLinks
      | links + 1 =>
        let (fromRoot, first) := moves target
        follow d links (if fromRoot then [] else parent) (first ++ rest)

def linkLimit : Nat := 40

/-- The place that a path leads to, and what stands there. -/
def locate (d : Disk) (path : Path) : Except IoError (Place × Option Item) :=
  let bytes := path.text.toUTF8
  if bytes.data.toList.contains 0 then .error .nulInPath
  else if bytes.isEmpty then .error .notFound
  else if pathLimit < bytes.size then .error .nameTooLong
  else
    let (fromRoot, todo) := moves bytes
    follow d linkLimit (if fromRoot then [] else d.cwd) todo

/-- The place and item that a path leads to. -/
def resolve (d : Disk) (path : Path) : Except IoError (Place × Item) := do
  match ← d.locate path with
  | (place, some item) => .ok (place, item)
  | (_, none) => .error .notFound

def pathExists (d : Disk) (path : Path) : Bool := (d.resolve path).isOk

def isFile (d : Disk) (path : Path) : Bool :=
  match d.resolve path with
  | .ok (_, .file _) => true
  | _ => false

def readBytes (d : Disk) (path : Path) : Except IoError ByteArray := do
  match ← d.resolve path with
  | (_, .file content) => .ok content
  | (_, _) => .error .isADirectory

/-- The names directly below a place, in the order they were made. -/
def namesIn (d : Disk) (place : Place) : List FileName :=
  d.items.filterMap fun (at_, _) =>
    match at_.getLast? with
    | some name => if at_.dropLast = place then some name else none
    | none => none

/-- The text of a file name, if it is UTF-8. -/
def nameText? (name : FileName) : Option String := String.fromUTF8? ⟨name.toArray⟩

/-- The children of a directory whose names are text; one that does not lead to a regular file, a
dangling link among them, is marked so. -/
def listDir (d : Disk) (path : Path) : Except IoError (List DirEntry) := do
  match ← d.resolve path with
  | (place, .directory) =>
    .ok ((d.namesIn place).filterMap nameText? |>.map fun name =>
      ⟨name, d.isFile (path.join ⟨name⟩)⟩)
  | (_, _) => .error .notADirectory

def fileSystem (d : Disk) : FileSystem := ⟨d.listDir, d.readBytes⟩

/-- A tree that holds nothing but its working directory. -/
def empty : Disk :=
  let names : Place := ["work".toUTF8.data.toList]
  ⟨[(names, .directory)], names⟩

/-- Puts an item at a place, where it takes the place of the one there. -/
def put (d : Disk) (place : Place) (item : Item) : Disk :=
  if d.items.any (·.1 == place) then
    { d with items := d.items.map fun entry => if entry.1 = place then (place, item) else entry }
  else { d with items := d.items ++ [(place, item)] }

/-- The moves with the last name split off. -/
def splitTarget (todo : List Move) : List Move × Option FileName :=
  match (todo.filter (· ≠ .stay)).getLast? with
  | some (.enter name) => ((todo.filter (· ≠ .stay)).dropLast, some name)
  | _ => (todo, none)

/-- Follows moves and makes the directories that are missing on the way. -/
def makeDirs (d : Disk) : Place → List Move → Except IoError (Place × Disk)
  | here, [] => .ok (here, d)
  | here, .stay :: rest => makeDirs d here rest
  | here, .up :: rest => makeDirs d here.dropLast rest
  | here, .enter name :: rest =>
    match d.follow linkLimit here [.enter name] with
    | .ok (place, some .directory) => makeDirs d place rest
    | .ok (_, some _) => .error .notADirectory
    | .ok (place, none) =>
      if place = here ++ [name] then makeDirs (d.put place .directory) place rest
      else .error .alreadyExists
    | .error error => .error error

/-- Makes an item in a directory: a link only where nothing stands yet; a file is written through a
link. -/
def makeIn (d : Disk) (parent : Place) (name : FileName) (item : Item) : Except IoError Disk :=
  match item with
  | .directory => return (← d.makeDirs parent [.enter name]).2
  | .link _ =>
    match d.walk parent [.enter name] with
    | .vacant place => .ok (d.put place item)
    | .fails error => .error error
    | _ => .error .alreadyExists
  | .file _ =>
    match d.follow linkLimit parent [.enter name] with
    | .ok (place, none) | .ok (place, some (.file _)) => .ok (d.put place item)
    | .ok (_, some _) => .error .isADirectory
    | .error error => .error error

/-- Makes an item at a path, with the directories above it. -/
def make (d : Disk) (path : ByteArray) (item : Item) : Except IoError Disk := do
  let (fromRoot, todo) := moves path
  let (above, name?) := splitTarget todo
  let (parent, d) ← d.makeDirs (if fromRoot then [] else d.cwd) above
  match name?, item with
  | some name, _ => d.makeIn parent name item
  | none, .directory => return d
  | none, .file _ => throw .isADirectory
  | none, .link _ => throw .alreadyExists

/-- Removes what stands at a path itself, a link rather than its target, and all below it. -/
def remove (d : Disk) (path : Path) : Disk :=
  let (fromRoot, todo) := moves path.text.toUTF8
  match splitTarget todo with
  | (above, some name) =>
    match d.follow linkLimit (if fromRoot then [] else d.cwd) above with
    | .ok (parent, some .directory) =>
      { d with items := d.items.filter fun entry => !(parent ++ [name]).isPrefixOf entry.1 }
    | _ => d
  | (_, none) => d

end Disk
end SqlMigrations
