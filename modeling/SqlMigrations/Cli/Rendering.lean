import SqlMigrations.Engine.Status
import SqlMigrations.Text.Blank

/-!
# Texts for the reader

The summary of a run and the table of a report. A column of the table is as wide as its longest cell
in bytes, cells are filled up by characters, and blanks at the end of a line are cut.
-/

namespace SqlMigrations

/-- One line for each file that was applied, then the counts. -/
def RunSummary.text (s : RunSummary) : String :=
  let files := s.applied.map fun filename => s!"  Applied: {filename}\n"
  let counts := s!"{s.applied.length} applied, {s.skipped} already applied"
  let stop := match s.stoppedAt with
    | some version => s!" (stopped at version {version})"
    | none => ""
  let rest := if s.applied.isEmpty then ", nothing to do" else ""
  String.join files ++ counts ++ stop ++ rest ++ "\n"

namespace StatusReport

def headers : List String := ["VERSION", "APPLIED", "APPLIED AT", "FILENAME"]

def cells (m : MigrationStatus) : List String :=
  [toString m.version, if m.applied then "yes" else "no",
    (m.appliedAt.map Instant.tableText).getD "-", m.filename]

/-- The widths that hold both some widths and the cells of a row. -/
def widen (widths : List Nat) (row : List String) : List Nat :=
  List.zipWith (fun width cell => max width cell.utf8ByteSize) widths row

def widths (rows : List (List String)) : List Nat := rows.foldl widen (headers.map fun _ => 0)

/-- A cell filled up with spaces. -/
def fill (width : Nat) (cell : String) : List Char :=
  cell.toList ++ List.replicate (width - cell.length) ' '

/-- A line of the table: filled cells with two spaces between them. -/
def line (widths : List Nat) (row : List String) : List Char :=
  Text.trimEnd (Json.separate [' ', ' '] (List.zipWith fill widths row)) ++ ['\n']

/-- The table of a report, with the counts below it. -/
def table (r : StatusReport) : String :=
  if r.migrations.isEmpty then "No migrations found\n"
  else
    let rows := headers :: r.migrations.map cells
    String.ofList (rows.flatMap (line (widths rows))) ++
      s!"\n{r.appliedCount} applied, {r.pendingCount} pending\n"

/-- The report as JSON over several lines. -/
def json (r : StatusReport) : String := r.doc.pretty ++ "\n"

end StatusReport
end SqlMigrations
