/-!
# Cutting text

Cuts of a character list at a separator, at its ends and around a fragment.
-/

namespace SqlMigrations.Text

/-- The pieces between separators; a text without one is a single piece. -/
def pieces (sep : Char) : List Char → List (List Char)
  | [] => [[]]
  | c :: cs =>
    if c = sep then [] :: pieces sep cs
    else match pieces sep cs with
      | [] => [[c]]
      | p :: ps => (c :: p) :: ps

theorem pieces_ne_nil (sep : Char) (cs : List Char) : pieces sep cs ≠ [] := by
  cases cs with
  | nil => simp [pieces]
  | cons c cs =>
    simp only [pieces]
    split
    · simp
    · split <;> simp

/-- The text before the first separator and the text after it. -/
def splitFirst? (sep : Char) : List Char → Option (List Char × List Char)
  | [] => none
  | c :: cs =>
    if c = sep then some ([], cs)
    else (splitFirst? sep cs).map fun (before, after) => (c :: before, after)

/-- The text before the last separator and the text after it. -/
def splitLast? (sep : Char) (cs : List Char) : Option (List Char × List Char) :=
  (splitFirst? sep cs.reverse).map fun (after, before) => (before.reverse, after.reverse)

/-- The text without an ending it has. -/
def dropEnding? (ending cs : List Char) : Option (List Char) :=
  if ending.isSuffixOf cs then some (cs.take (cs.length - ending.length)) else none

/-- The text without a beginning it has. -/
def dropBeginning? : List Char → List Char → Option (List Char)
  | [], cs => some cs
  | _ :: _, [] => none
  | p :: ps, c :: cs => if p = c then dropBeginning? ps cs else none

/-- Whether a fragment stands somewhere in a text. -/
def contains (fragment : List Char) : List Char → Bool
  | [] => fragment.isEmpty
  | c :: cs => fragment.isPrefixOf (c :: cs) || contains fragment cs

/-- The text after the first occurrence of a fragment. -/
def afterFirst? (fragment : List Char) : List Char → Option (List Char)
  | [] => dropBeginning? fragment []
  | c :: cs =>
    match dropBeginning? fragment (c :: cs) with
    | some rest => some rest
    | none => afterFirst? fragment cs

/-- Texts joined with a separator between neighbours. -/
def join (sep : String) (parts : List String) : String := sep.intercalate parts

end SqlMigrations.Text
