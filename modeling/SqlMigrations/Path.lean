import SqlMigrations.Text.Pieces

/-!
# Paths

A path keeps its text as written. Two paths name the same place in a tree when their components
agree: repeated and trailing slashes do not count, nor does `.` except at the start of a relative
path.
-/

namespace SqlMigrations

structure Path where
  text : String
  deriving DecidableEq, Repr, Inhabited

namespace Path

inductive Component where
  | root
  | current
  | parent
  | normal (name : String)
  deriving DecidableEq, Repr, Ord

/-- The component that a piece between slashes stands for; empty pieces and `.` stand for none. -/
def componentOf? (piece : List Char) : Option Component :=
  if piece = [] ∨ piece = ['.'] then none
  else if piece = ['.', '.'] then some .parent
  else some (.normal (String.ofList piece))

/-- The components of a path given by its characters. -/
def componentsOf (cs : List Char) : List Component :=
  let pieces := Text.pieces '/' cs
  let start :=
    if cs.head? = some '/' then [Component.root]
    else if pieces.head? = some ['.'] then [Component.current]
    else []
  start ++ pieces.filterMap componentOf?

def components (p : Path) : List Component := componentsOf p.text.toList

def isEmpty (p : Path) : Bool := p.text.isEmpty

def isAbsolute (p : Path) : Bool := p.text.toList.head? == some '/'

/-- An absolute second path stands alone; otherwise the two are joined by one slash, unless the
first is empty or ends with one. -/
def join (base sub : Path) : Path :=
  if sub.isAbsolute then sub
  else if base.isEmpty || base.text.toList.getLast? == some '/' then ⟨base.text ++ sub.text⟩
  else ⟨base.text ++ "/" ++ sub.text⟩

/-- The components above the last one; a path without components, or the root alone, has none. -/
def parentOf? (cs : List Component) : Option (List Component) :=
  match cs.getLast? with
  | none | some .root => none
  | some _ => some cs.dropLast

/-- The last component, if it is a name. -/
def nameOf? (cs : List Component) : Option String :=
  match cs.getLast? with
  | some (.normal name) => some name
  | _ => none

def fileName? (p : Path) : Option String := nameOf? p.components

/-- What follows the last dot of a file name, unless that dot is its first character. -/
def extensionOf? (name : String) : Option String :=
  match Text.splitLast? '.' name.toList with
  | some (_ :: _, ending) => some (String.ofList ending)
  | _ => none

def extension? (p : Path) : Option String := p.fileName?.bind extensionOf?

/-- Component lists are compared component by component, a list before its extensions. -/
def componentsLE (a b : List Component) : Bool := (compare a b).isLE

end Path
end SqlMigrations
