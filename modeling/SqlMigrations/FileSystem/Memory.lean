import SqlMigrations.FileSystem

/-!
# File systems in memory

Files and a flat set of directories, both keyed by path components and kept in path order. Adding
a file adds its parent directory, but none above that one.
-/

namespace SqlMigrations

open SqlMigrations.Path (Component)

structure MemoryFileSystem where
  files : List (List Component × ByteArray)
  dirs : List (List Component)

namespace MemoryFileSystem

def empty : MemoryFileSystem := ⟨[], []⟩

/-- Inserts a key into an ordered list of keys that may hold it already. -/
def insertDir (key : List Component) : List (List Component) → List (List Component)
  | [] => [key]
  | k :: ks =>
    if key = k then key :: ks
    else if Path.componentsLE key k then key :: k :: ks
    else k :: insertDir key ks

/-- Sets the value of a key in an ordered list of pairs. -/
def insertFile (key : List Component) (content : ByteArray) :
    List (List Component × ByteArray) → List (List Component × ByteArray)
  | [] => [(key, content)]
  | (k, v) :: rest =>
    if key = k then (key, content) :: rest
    else if Path.componentsLE key k then (key, content) :: (k, v) :: rest
    else (k, v) :: insertFile key content rest

def addDir (fs : MemoryFileSystem) (path : Path) : MemoryFileSystem :=
  { fs with dirs := insertDir path.components fs.dirs }

def addFile (fs : MemoryFileSystem) (path : Path) (content : ByteArray) : MemoryFileSystem :=
  let key := path.components
  { files := insertFile key content fs.files
    dirs := match Path.parentOf? key with
      | some parent => insertDir parent fs.dirs
      | none => fs.dirs }

/-- The name of a key right below a directory. -/
def nameBelow? (dir key : List Component) : Option String :=
  if Path.parentOf? key = some dir then Path.nameOf? key else none

/-- The files of a directory in path order, then its directories in path order. -/
def listDir (fs : MemoryFileSystem) (path : Path) : Except IoError (List DirEntry) :=
  let dir := path.components
  if fs.dirs.contains dir then
    .ok ((fs.files.filterMap fun (key, _) => (nameBelow? dir key).map (⟨·, true⟩)) ++
      fs.dirs.filterMap fun key => (nameBelow? dir key).map (⟨·, false⟩))
  else .error (.unknownDirectory path)

def readBytes (fs : MemoryFileSystem) (path : Path) : Except IoError ByteArray :=
  match fs.files.lookup path.components with
  | some content => .ok content
  | none => .error (.unknownFile path)

def fileSystem (fs : MemoryFileSystem) : FileSystem := ⟨fs.listDir, fs.readBytes⟩

end MemoryFileSystem
end SqlMigrations
