import Mathlib.Data.List.DropRight
import SqlMigrations.Cli.Rendering
import SqlMigrations.Proofs.DiscoveryResult
import SqlMigrations.Proofs.FileNameGrammar
import SqlMigrations.Proofs.ReportResult
import SqlMigrations.Proofs.StatusAgreement

/-!
# Status tables

A column of the table is at least as wide as each of its cells: it is as wide as the longest of them
in bytes, and no text has more characters than bytes. So the cells of a line stand where those of
the header stand. What is cut from the end of a line is only what fills up its last cell, for no
file name of a report ends in white space.
-/

namespace SqlMigrations.Proofs

open StatusReport

variable {σ : Type}

/-- A line that has some cells in full, the first at a start, the others at some offsets, each at
least two spaces behind the one before, and nothing else. -/
inductive Laid : Nat → List Nat → List String → List Char → Prop
  | last {start : Nat} {cell : String} : Laid start [] [cell] cell.toList
  | next {start gap offset : Nat} {offsets : List Nat} {cell : String} {cells : List String}
      {rest : List Char} (apart : 2 ≤ gap) (placed : start + cell.length + gap = offset)
      (further : Laid offset offsets cells rest) :
      Laid start (offset :: offsets) (cell :: cells) (cell.toList ++ List.replicate gap ' ' ++ rest)

/-- Where the columns after the first begin. -/
def offsetsFrom : Nat → List Nat → List Nat
  | start, width :: next :: widths =>
    (start + width + 2) :: offsetsFrom (start + width + 2) (next :: widths)
  | _, _ => []

/-- Widths that are enough for the bytes of the cells of a row. -/
def Wide (widths : List Nat) (row : List String) : Prop :=
  List.Forall₂ (fun width cell => cell.utf8ByteSize ≤ width) widths row

/-- A text that ends in a character that is not white space. -/
def EndsVisibly (text : String) : Prop :=
  ∃ front c, text.toList = front ++ [c] ∧ Text.isBlank c = false

section Widths

variable {widths : List Nat} {row row' : List String} {rows : List (List String)}

lemma wide_widen (h : widths.length = row.length) : Wide (widen widths row) row := by
  induction widths generalizing row with
  | nil =>
    cases row with
    | nil => exact .nil
    | cons cell row => cases h
  | cons width widths ih =>
    cases row with
    | nil => cases h
    | cons cell row => exact .cons (Nat.le_max_right _ _) (ih (Nat.succ.inj h))

lemma Wide.widen (h : Wide widths row) (hlength : widths.length = row'.length) :
    Wide (widen widths row') row := by
  induction h generalizing row' with
  | nil => exact .nil
  | cons hcell _ ih =>
    cases row' with
    | nil => cases hlength
    | cons cell' row' =>
      exact .cons (Nat.le_trans hcell (Nat.le_max_left _ _)) (ih (Nat.succ.inj hlength))

lemma length_widen (h : widths.length = row.length) :
    (StatusReport.widen widths row).length = widths.length := by
  rw [StatusReport.widen, List.length_zipWith, h, Nat.min_self]

/-- Widening by rows leaves the widths enough for what they are enough for, and makes them enough
for each of the rows. -/
lemma wide_foldl (hrows : ∀ row ∈ rows, widths.length = row.length)
    (h : row ∈ rows ∨ Wide widths row) : Wide (rows.foldl StatusReport.widen widths) row := by
  induction rows generalizing widths with
  | nil => exact h.resolve_left List.not_mem_nil
  | cons first rows ih =>
    have hfirst : widths.length = first.length := hrows first List.mem_cons_self
    have hrest : ∀ row ∈ rows, (StatusReport.widen widths first).length = row.length := by
      intro row hrow
      rw [length_widen hfirst]
      exact hrows row (List.mem_cons_of_mem first hrow)
    rw [List.foldl_cons]
    apply ih hrest
    rcases h with hmem | hwide
    · rcases List.mem_cons.mp hmem with rfl | hmem
      · exact .inr (wide_widen hfirst)
      · exact .inl hmem
    · exact .inr (hwide.widen hfirst)

lemma wide_widths (hrows : ∀ row ∈ rows, row.length = 4) (h : row ∈ rows) :
    Wide (StatusReport.widths rows) row :=
  wide_foldl (fun row hrow => (hrows row hrow).symm) (.inl h)

end Widths

section Lines

variable {start : Nat} {offsets widths : List Nat} {cell : String} {row : List String} {line : List Char}

lemma Laid.cells_ne_nil (h : Laid start offsets row line) : row ≠ [] := by
  cases h with
  | last => exact List.cons_ne_nil _ _
  | next => exact List.cons_ne_nil _ _

lemma Laid.ends (h : Laid start offsets row line) (hlast : row.getLast? = some cell) :
    cell.toList <:+ line := by
  induction h with
  | @last start last =>
    have hcell : last = cell := Option.some.inj hlast
    exact hcell ▸ List.suffix_rfl
  | @next start gap offset offsets first cells rest apart placed further ih =>
    have hfurther : ([first] ++ cells).getLast? = cells.getLast? :=
      List.getLast?_append_of_ne_nil [first] further.cells_ne_nil
    exact (ih (hfurther.symm.trans hlast)).trans (List.suffix_append _ _)

/-- The filled cells of a row with two spaces between them: the line of the row and spaces that fill
up its last cell. -/
lemma exists_laid (h : Wide widths row) (hrow : row ≠ []) (start : Nat) :
    ∃ line n, Laid start (offsetsFrom start widths) row line ∧
      Json.separate [' ', ' '] (List.zipWith fill widths row) = line ++ List.replicate n ' ' := by
  induction h generalizing start with
  | nil => exact absurd rfl hrow
  | @cons width cell widths row hcell hrest ih =>
    -- The width is in bytes and spaces are counted in characters, so none are missing.
    have hlength : cell.length ≤ width := Nat.le_trans (length_le_utf8ByteSize cell) hcell
    cases hrest with
    | nil => exact ⟨cell.toList, width - cell.length, .last, rfl⟩
    | @cons width' cell' widths row hcell' hrest =>
      obtain ⟨line, n, hlaid, hline⟩ := ih (List.cons_ne_nil _ _) (start + width + 2)
      have hplaced : start + cell.length + (width - cell.length + 2) = start + width + 2 := by
        omega
      refine ⟨_, n, .next (Nat.le_add_left 2 _) hplaced hlaid, ?_⟩
      have hseparate : Json.separate [' ', ' ']
          (List.zipWith fill (width :: width' :: widths) (cell :: cell' :: row)) =
            fill width cell ++ [' ', ' '] ++ Json.separate [' ', ' ']
              (List.zipWith fill (width' :: widths) (cell' :: row)) := rfl
      rw [hseparate, hline]
      simp [fill, List.replicate_add]

lemma trimEnd_filled {front : List Char} {c : Char} (hc : Text.isBlank c = false) (n : Nat) :
    Text.trimEnd (front ++ [c] ++ List.replicate n ' ') = front ++ [c] := by
  induction n with
  | zero =>
    rw [List.replicate_zero, List.append_nil]
    exact List.rdropWhile_concat_neg _ _ _ (by simp [hc])
  | succ n ih =>
    rw [List.replicate_succ', ← List.append_assoc]
    exact (List.rdropWhile_concat_pos _ _ _ rfl).trans ih

lemma exists_line (h : Wide widths row) (hlast : row.getLast? = some cell)
    (hcell : EndsVisibly cell) : ∃ line, Laid 0 (offsetsFrom 0 widths) row line ∧
      StatusReport.line widths row = line ++ ['\n'] := by
  have hrow : row ≠ [] := by
    rintro rfl
    cases hlast
  obtain ⟨line, n, hlaid, hline⟩ := exists_laid h hrow 0
  obtain ⟨front, c, hchars, hc⟩ := hcell
  obtain ⟨before, hbefore⟩ := hlaid.ends hlast
  rw [hchars, ← List.append_assoc] at hbefore
  refine ⟨line, hlaid, ?_⟩
  rw [StatusReport.line, hline, ← hbefore, trimEnd_filled hc]

end Lines

section Tables

variable {table : TableName} {fs : FileSystem} {dir : Path} {log : List (Exchange σ)}
  {report : StatusReport} {ms : List MigrationStatus} {widths : List Nat}

lemma WellNamed.endsVisibly {m : Migration} (h : WellNamed m) : EndsVisibly m.filename := by
  obtain ⟨token, -, -, hname⟩ := parseFilename_eq_ok.mp h
  refine ⟨(token ++ "_" ++ m.description ++ ".sq").toList, 'l', ?_, rfl⟩
  rw [hname]
  simp [filenameOf]

lemma ListTrace.endsVisibly (h : ListTrace table fs dir log (.ok report)) :
    ∀ m ∈ report.migrations, EndsVisibly m.filename := by
  cases h with
  | report nonempty discovered decoded =>
    intro m hm
    obtain ⟨migration, hmigration, rfl⟩ := List.mem_map.mp hm
    obtain ⟨-, entries, -, hms⟩ := discover_eq_ok.mp discovered
    exact (hms.stated migration hmigration).endsVisibly

lemma exists_lines (hwide : ∀ m ∈ ms, Wide widths (cells m))
    (hends : ∀ m ∈ ms, EndsVisibly m.filename) :
    ∃ rows, List.Forall₂ (fun m row => Laid 0 (offsetsFrom 0 widths) (cells m) row ∧
        m.filename.toList <:+ row) ms rows ∧
      (ms.map cells).flatMap (StatusReport.line widths) = rows.flatMap fun row => row ++ ['\n'] := by
  induction ms with
  | nil => exact ⟨[], .nil, rfl⟩
  | cons m ms ih =>
    obtain ⟨rows, hrows, hlines⟩ := ih (fun m' hm' => hwide m' (List.mem_cons_of_mem m hm'))
      fun m' hm' => hends m' (List.mem_cons_of_mem m hm')
    have hlast : (cells m).getLast? = some m.filename := rfl
    obtain ⟨row, hrow, hline⟩ :=
      exists_line (hwide m List.mem_cons_self) hlast (hends m List.mem_cons_self)
    refine ⟨row :: rows, .cons ⟨hrow, hrow.ends hlast⟩ hrows, ?_⟩
    rw [List.map_cons, List.flatMap_cons, List.flatMap_cons, hlines, hline]

lemma counts_eq (r : StatusReport) :
    r.appliedCount = r.migrations.countP (fun m => (cells m)[1]? == some "yes") ∧
    r.pendingCount = r.migrations.countP (fun m => (cells m)[1]? == some "no") ∧
    r.appliedCount + r.pendingCount = r.migrations.length := by
  have hyes : ∀ m, ((cells m)[1]? == some "yes") = m.applied := by
    intro m
    cases hm : m.applied <;> simp [cells, hm]
  have hno : ∀ m, ((cells m)[1]? == some "no") = !m.applied := by
    intro m
    cases hm : m.applied <;> simp [cells, hm]
  have happlied : r.appliedCount = r.migrations.countP MigrationStatus.applied :=
    List.countP_eq_length_filter.symm
  have hsplit : r.migrations.length = r.migrations.countP MigrationStatus.applied +
      r.migrations.countP fun m => !m.applied := by
    simpa using List.length_eq_countP_add_countP MigrationStatus.applied
  have hpending : r.pendingCount = r.migrations.countP fun m => !m.applied := by
    rw [StatusReport.pendingCount, happlied, hsplit]
    exact Nat.add_sub_cancel_left _ _
  simp only [hyes, hno]
  exact ⟨happlied, hpending, by omega⟩

/-- The table of a report has the header, a line for each migration in the order of the report, an
empty line and the counts. In each line the cells stand at the offsets of the header, each in full
and followed by at least two spaces, and the last cell, the file name, ends the line. The counts are
those of the rows that say yes and no. -/
theorem status_table_aligned {db : Database σ} {s : σ}
    (h : (observe db (ExceptT.run (Engine.list table fs dir)) s).value = .ok report)
    (hne : report.migrations ≠ []) :
    ∃ offsets header rows applied pending,
      report.table.toList = header ++ '\n' :: rows.flatMap (fun row => row ++ ['\n']) ++
        '\n' :: (toString applied ++ " applied, " ++ toString pending ++ " pending").toList ++
          ['\n'] ∧
      Laid 0 offsets headers header ∧
      List.Forall₂ (fun m row => Laid 0 offsets (cells m) row ∧ m.filename.toList <:+ row)
        report.migrations rows ∧
      applied = report.migrations.countP (fun m => (cells m)[1]? == some "yes") ∧
      pending = report.migrations.countP (fun m => (cells m)[1]? == some "no") ∧
      applied + pending = report.migrations.length := by
  have htrace := list_yields (observe_yields db (ExceptT.run (Engine.list table fs dir)) s)
  rw [h] at htrace
  have hlengths : ∀ row ∈ headers :: report.migrations.map cells, row.length = 4 := by
    intro row hrow
    rcases List.mem_cons.mp hrow with rfl | hrow
    · rfl
    · obtain ⟨m, -, rfl⟩ := List.mem_map.mp hrow
      rfl
  have hwide : ∀ m ∈ report.migrations,
      Wide (StatusReport.widths (headers :: report.migrations.map cells)) (cells m) := fun m hm =>
    wide_widths hlengths (List.mem_cons_of_mem headers (List.mem_map_of_mem hm))
  have hvisible : EndsVisibly "FILENAME" := ⟨"FILENAM".toList, 'E', rfl, rfl⟩
  obtain ⟨header, hheader, hline⟩ :=
    exists_line (wide_widths hlengths List.mem_cons_self) rfl hvisible
  obtain ⟨rows, hrows, hlines⟩ := exists_lines hwide htrace.endsVisibly
  refine ⟨_, header, rows, report.appliedCount, report.pendingCount, ?_, hheader, hrows,
    counts_eq report⟩
  have hnonempty : report.migrations.isEmpty = false := by simpa using hne
  unfold StatusReport.table
  rw [hnonempty, if_neg Bool.false_ne_true]
  dsimp only
  rw [List.flatMap_cons, hlines, hline]
  simp only [String.toList_append, String.toList_ofList, List.append_assoc, List.cons_append,
    List.nil_append, String.reduceToList]
  rfl

end Tables

/-- In the first second of the year 10000. -/
def farTime : Instant := ⟨253402300800, 500000000, by decide, by decide, by decide⟩

/-- In the first second of the year -1. -/
def ancientTime : Instant := ⟨-62198755200, 250000000, by decide, by decide, by decide⟩

def distantRows : List Row :=
  [⟨[.text "1_größe.sql", .timestamp farTime]⟩, ⟨[.text "10_年.sql", .timestamp ancientTime]⟩]

def distantFiles : FileSystem :=
  onlyListing ⟨"m"⟩ [⟨"1_größe.sql", true⟩, ⟨"2_b.sql", true⟩, ⟨"10_年.sql", true⟩]

def distantReport : StatusReport :=
  ⟨[⟨1, "größe", "1_größe.sql", true, some farTime⟩, ⟨2, "b", "2_b.sql", false, none⟩,
    ⟨10, "年", "10_年.sql", true, some ancientTime⟩]⟩

lemma distant_report : (observe (answering distantRows)
    (ExceptT.run (Engine.list .default distantFiles ⟨"m"⟩)) ()).value = .ok distantReport := by
  have hms : Migration.discover distantFiles ⟨"m"⟩ =
      .ok [⟨1, "größe", "1_größe.sql"⟩, ⟨2, "b", "2_b.sql"⟩, ⟨10, "年", "10_年.sql"⟩] :=
    discover_of_sorted [⟨"1_größe.sql", true⟩, ⟨"2_b.sql", true⟩, ⟨"10_年.sql", true⟩] (by decide)
      (by decide +kernel) (by decide +kernel) (by decide +kernel) (by decide +kernel)
  have hcreate : ((answering distantRows) (createCall .default)).run () = (.ok (), ()) := rfl
  rw [observe_list_of_created hms hcreate]
  exact eq_ok_of_toOption (by decide +kernel)

/-- Names that are longer in bytes than in characters, and years of five digits and with a sign. -/
theorem status_table_aligned_distant :
    (observe (answering distantRows)
      (ExceptT.run (Engine.list .default distantFiles ⟨"m"⟩)) ()).value = .ok distantReport ∧
    distantReport.migrations ≠ [] ∧
    ∃ offsets header rows,
      distantReport.table.toList = header ++ '\n' :: rows.flatMap (fun row => row ++ ['\n']) ++
        '\n' :: "2 applied, 1 pending".toList ++ ['\n'] ∧
      Laid 0 offsets ["VERSION", "APPLIED", "APPLIED AT", "FILENAME"] header ∧
      List.Forall₂ (Laid 0 offsets) [["1", "yes", "+10000-01-01 00:00:00 UTC", "1_größe.sql"],
        ["2", "no", "-", "2_b.sql"], ["10", "yes", "-0001-01-01 00:00:00 UTC", "10_年.sql"]]
        rows := by
  have hne : distantReport.migrations ≠ [] := by decide
  refine ⟨distant_report, hne, ?_⟩
  obtain ⟨offsets, header, rows, applied, pending, htable, hheader, hrows, happlied, hpending, -⟩ :=
    status_table_aligned distant_report hne
  have hcounts : applied = 2 ∧ pending = 1 := by
    rw [happlied, hpending]
    decide +kernel
  obtain ⟨rfl, rfl⟩ := hcounts
  have hcells : distantReport.migrations.map cells =
      [["1", "yes", "+10000-01-01 00:00:00 UTC", "1_größe.sql"], ["2", "no", "-", "2_b.sql"],
        ["10", "yes", "-0001-01-01 00:00:00 UTC", "10_年.sql"]] := by
    decide +kernel
  refine ⟨offsets, header, rows, htable, hheader, ?_⟩
  rw [← hcells, List.forall₂_map_left_iff]
  exact hrows.imp fun m row h => h.1

end SqlMigrations.Proofs
