import SqlMigrations.Cli.Execution

/-!
# The program

Reads a command line, takes the files that it names into a tree, runs the command over the tree and
prints what it comes to. Databases are rehearsed: each starts empty at the place of its file, and
the program leaves no file behind.
-/

namespace SqlMigrations.Cli

/-- The environment variable that names the database. -/
def databaseVariable : String := "TIDEMARK_DATABASE"

/-- Makes an item in a tree where that is possible. -/
def withItem (disk : Disk) (path : Path) (item : Disk.Item) : Disk :=
  (disk.make path.text.toUTF8 item).toOption.getD disk

/-- Takes the file at a path into a tree, if there is one. -/
def takeFile (disk : Disk) (path : Path) : IO Disk := do
  match ← (IO.FS.readBinFile path.text).toBaseIO with
  | .ok content => return withItem disk path (.file content)
  | .error _ => return disk

/-- The names in the directory at a path, if there is one. -/
def namesAt? (path : Path) : IO (Option (List String)) := do
  let here ← IO.currentDir
  match ← (here / path.text).readDir.toBaseIO with
  | .ok entries => return some (entries.toList.map fun entry => entry.fileName)
  | .error _ => return none

/-- Takes the directory at a path into a tree, if there is one, without what it holds. -/
def takeFolder (disk : Disk) (path : Path) : IO Disk := do
  return if (← namesAt? path).isSome then withItem disk path .directory else disk

/-- Takes what is right below the directory at a path into a tree; the directory at a path, if there
is one, comes with it. -/
def takeEntries (disk : Disk) (path : Path) : IO Disk := do
  let names := (← namesAt? path).getD []
  let disk ← takeFolder disk path
  names.foldlM (fun disk name => do
    takeFile (← takeFolder disk (path.join ⟨name⟩)) (path.join ⟨name⟩)) disk

/-- The path up to its last slash. -/
def folderOf (path : Path) : Path :=
  match Text.splitLast? '/' path.text.toList with
  | some (above, _) => ⟨String.ofList (above ++ ['/'])⟩
  | none => ⟨"."⟩

/-- The files that a configuration may come from. -/
def configPaths (global : GlobalArgs) : List Path :=
  match global.config with
  | some path => [⟨path⟩]
  | none => Config.fileNames.map fun name => Path.join ⟨global.projectDir⟩ ⟨name⟩

/-- Takes a path into a tree, whatever stands there. -/
def takePath (disk : Disk) (path : Path) : IO Disk := do
  takeFile (← takeFolder (← takeFolder disk (folderOf path)) path) path

/-- The tree of the files that a command line names. -/
def takeNamed (global : GlobalArgs) : IO Disk := do
  let disk ← (configPaths global).foldlM takePath .empty
  match loadContext disk global with
  | .ok context => takePath (← takeEntries disk context.migrationsDir) context.database
  | .error _ => return disk

/-- Prints a failure with the texts below it. -/
def printFailure (e : CommandError) : IO Unit := do
  for text in e.chain do
    IO.eprintln text

def usage : String := "Usage: [OPTIONS] <run|status>"

/-- Reads a command line, runs its command, and answers with the code to exit with. -/
def program (words : List String) : IO UInt32 := do
  match parse words (← IO.getEnv databaseVariable) with
  | .error e =>
    IO.eprintln usage
    return if e = .displayHelp ∨ e = .displayVersion then 0 else 2
  | .ok arguments =>
    match (execute { disk := ← takeNamed arguments.global } arguments).1 with
    | .ok (.ok text) =>
      IO.print text
      return 0
    | .ok (.error e) =>
      printFailure e
      return 1
    | .error _ => return 101

end SqlMigrations.Cli

def main (words : List String) : IO UInt32 := SqlMigrations.Cli.program words
