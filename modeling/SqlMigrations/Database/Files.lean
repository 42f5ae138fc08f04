import SqlMigrations.Database.Live
import SqlMigrations.FileSystem.Disk

/-!
# Databases in files

The databases of a tree, each at the place of its file, with a clock that they share. A database
that is open is worked on apart and put back when it is closed; one in memory is not kept.
-/

namespace SqlMigrations

structure DatabaseFiles where
  disk : Disk := .empty
  stores : List (Place × Store) := []
  clock : Int64 := LiveStore.firstClock

/-- Where an open database is put back: at the place of its file, or nowhere. -/
inductive DatabaseHome where
  | memory
  | file (place : Place)
  deriving DecidableEq

/-- The path that stands for a new database in memory. -/
def memoryPath : Path := ⟨":memory:"⟩

namespace Disk

/-- The place of the regular file that a path leads to, which is made if only it is missing. -/
def openFile? (d : Disk) (path : Path) : Option (Place × Disk) :=
  match d.locate path with
  | .ok (place, some (.file _)) => some (place, d)
  | .ok (place, none) => some (place, d.put place (.file .empty))
  | _ => none

end Disk

namespace DatabaseFiles

/-- Opens the database that a path names. -/
def openAt (f : DatabaseFiles) (path : Path) :
    Except DatabaseError (DatabaseHome × LiveStore × DatabaseFiles) :=
  if path = memoryPath then .ok (.memory, { clock := f.clock }, f)
  else
    match f.disk.openFile? path with
    | some (place, disk) =>
      .ok (.file place, ⟨(f.stores.lookup place).getD {}, f.clock⟩, { f with disk })
    | none => .error (.connection (Backend.about path.text "IO Error: Cannot open file"))

/-- Puts an open database back and takes over its clock. -/
def close (f : DatabaseFiles) (home : DatabaseHome) (live : LiveStore) : DatabaseFiles :=
  match home with
  | .memory => { f with clock := live.clock }
  | .file place =>
    { f with
      stores := (place, live.store) :: f.stores.filter fun entry => entry.1 != place
      clock := live.clock }

end DatabaseFiles
end SqlMigrations
