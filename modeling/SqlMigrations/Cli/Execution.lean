import SqlMigrations.Cli.Context
import SqlMigrations.Cli.Rendering

/-!
# Commands

A command loads its context, opens the database, and prints what its run or report comes to. The
database keeps what was done to it, also when the command fails.
-/

namespace SqlMigrations.Cli

/-- What a command prints, as a program over the open database. -/
def commandProgram (fs : FileSystem) (context : Context) (command : Command) :
    Program (Except CommandError String) :=
  match TableName.parse context.config.trackingTable with
  | .error e => .done (.error ⟨[], .engine e⟩)
  | .ok table =>
    match command with
    | .run toVersion => do
      let result ← ExceptT.run (Engine.run table fs context.migrationsDir toVersion)
      return (result.map RunSummary.text).mapError fun e =>
        ⟨[s!"Migration run failed in {context.migrationsDir.text}"], .engine e⟩
    | .status json => do
      let result ← ExceptT.run (Engine.list table fs context.migrationsDir)
      return (result.map fun r => if json then r.json else r.table).mapError fun e =>
        ⟨[s!"Failed to read status of {context.migrationsDir.text}"], .engine e⟩

/-- Runs a command over the files and databases of a tree. -/
def execute (files : DatabaseFiles) (arguments : Arguments) :
    Except Panic (Except CommandError String) × DatabaseFiles :=
  match loadContext files.disk arguments.global with
  | .error e => (.ok (.error e), files)
  | .ok context =>
    match files.openAt context.database with
    | .error e =>
      (.ok (.error ⟨[s!"Failed to open database {context.database.text}"], .database e⟩), files)
    | .ok (home, live, files) =>
      let program := commandProgram files.disk.fileSystem context arguments.command
      let (result, backend) :=
        ((program.run (Backend.handler LiveStore.connection)).run).run ⟨live, false⟩
      (result, files.close home backend.connection)

end SqlMigrations.Cli
