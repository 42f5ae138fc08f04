import SqlMigrations.Path
import SqlMigrations.Text.Utf8

/-!
# File systems

What the engine needs of a file system: listing a directory and reading a file. Both answer at
once and leave the file system as it is.
-/

namespace SqlMigrations

inductive IoError where
  | notFound
  | notADirectory
  | isADirectory
  | alreadyExists
  | nameTooLong
  | tooManyLinks
  | nulInPath
  | notText
  | badEncoding (fault : Utf8.Fault)
  | unknownDirectory (path : Path)
  | unknownFile (path : Path)
  | reported (text : String)
  deriving DecidableEq, Repr

def IoError.message : IoError → String
  | .notFound => "No such file or directory (os error 2)"
  | .notADirectory => "Not a directory (os error 20)"
  | .isADirectory => "Is a directory (os error 21)"
  | .alreadyExists => "File exists (os error 17)"
  | .nameTooLong => "File name too long (os error 36)"
  | .tooManyLinks => "Too many levels of symbolic links (os error 40)"
  | .nulInPath => "file name contained an unexpected NUL byte"
  | .notText => "stream did not contain valid UTF-8"
  | .badEncoding fault => fault.message
  | .unknownDirectory path => s!"no such directory: {path.text}"
  | .unknownFile path => s!"no such file: {path.text}"
  | .reported text => text

/-- An entry of a directory. -/
structure DirEntry where
  name : String
  isFile : Bool
  deriving DecidableEq, Repr

structure FileSystem where
  listDir : Path → Except IoError (List DirEntry)
  readBytes : Path → Except IoError ByteArray

/-- The text of a UTF-8 file. -/
def FileSystem.readText (fs : FileSystem) (path : Path) : Except IoError String := do
  let bytes ← fs.readBytes path
  (Utf8.decode bytes).mapError .badEncoding

end SqlMigrations
