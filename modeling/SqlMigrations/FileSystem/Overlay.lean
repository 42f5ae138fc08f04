import SqlMigrations.FileSystem

/-!
# Overlays

Fixed answers laid over a file system: listings of some directories and failing reads of some
files. Paths match by their components, and the latest answer for a path counts.
-/

namespace SqlMigrations

structure Overlay where
  listings : List (Path × Except IoError (List DirEntry)) := []
  readFailures : List (Path × IoError) := []

namespace Overlay

def findFor? {α : Type} (path : Path) (answers : List (Path × α)) : Option α :=
  (answers.find? fun answer => answer.1.components == path.components).map (·.2)

def setListing (o : Overlay) (path : Path) (answer : Except IoError (List DirEntry)) : Overlay :=
  { o with listings := (path, answer) :: o.listings }

def failRead (o : Overlay) (path : Path) (error : IoError) : Overlay :=
  { o with readFailures := (path, error) :: o.readFailures }

/-- The file system below with the answers of the overlay in front. -/
def cover (o : Overlay) (below : FileSystem) : FileSystem where
  listDir path := (findFor? path o.listings).getD (below.listDir path)
  readBytes path :=
    match findFor? path o.readFailures with
    | some error => .error error
    | none => below.readBytes path

end Overlay
end SqlMigrations
