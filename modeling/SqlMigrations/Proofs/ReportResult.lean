import SqlMigrations.Proofs.LiveTracking

/-!
# The result of a report

Whatever rows a database hands out, a report reads them once and takes all of them or none: the
first row that has no file name or no time fails it, also when no discovered file is concerned.
Otherwise the rows of a file, and of them the last, say whether and when it was applied.
-/

namespace SqlMigrations.Proofs

variable {σ : Type}

/-- A row with a file name in its first column and a time in its second. -/
def Readable (row : Row) : Prop :=
  ∃ filename time, row.values[0]? = some (.text filename) ∧ row.values[1]? = some (.timestamp time)

/-- The rows of a file, in order. -/
def rowsOf (rows : List Row) (filename : String) : List Row :=
  rows.filter fun row => row.values[0]? = some (.text filename)

/-- The time in the second column of a row. -/
def timeIn? (row : Row) : Option Instant :=
  match (row.values[1]? : Option SqlValue) with
  | some (.timestamp time) => some time
  | _ => none

/-- The fault of a column in which a value of a type is expected. -/
inductive ColumnFault (row : Row) (index : Nat) (expected : ColumnType) : DatabaseError → Prop
  | missing (short : row.values.length ≤ index) :
      ColumnFault row index expected (.columnOutOfRange index row.values.length)
  | mistyped {value : SqlValue} (held : row.values[index]? = some value)
      (unexpected : value.type ≠ expected) :
      ColumnFault row index expected (.typeMismatch index expected value.type)

/-- The fault of a row: that of its second column counts only if it has a file name. -/
inductive RowFault (row : Row) : DatabaseError → Prop
  | filename {e : DatabaseError} (fault : ColumnFault row 0 .text e) : RowFault row e
  | time {e : DatabaseError} {filename : String} (named : row.values[0]? = some (.text filename))
      (fault : ColumnFault row 1 .timestamp e) : RowFault row e

/-- The fault of the first row that is not readable. -/
def FirstFault (rows : List Row) (e : DatabaseError) : Prop :=
  ∃ before row after, rows = before ++ row :: after ∧ (∀ r ∈ before, Readable r) ∧ RowFault row e

/-- What some rows say about a migration. -/
structure Reported (rows : List Row) (m : Migration) (status : MigrationStatus) : Prop where
  version : status.version = m.version
  description : status.description = m.description
  filename : status.filename = m.filename
  applied : status.applied = true ↔ ∃ row ∈ rows, row.values[0]? = some (.text m.filename)
  appliedAt : status.appliedAt = (rowsOf rows m.filename).getLast?.bind timeIn?
  untimed : status.appliedAt = none ↔ status.applied = false

/-- The report of some migrations by some rows: one entry for each migration, in ascending order. -/
structure IsReport (ms : List Migration) (rows : List Row) (report : StatusReport) : Prop where
  entries : List.Forall₂ (Reported rows) ms report.migrations
  ascending : report.migrations.Pairwise fun a b => a.version < b.version

/-- Whether a row belongs to one of some migrations. -/
def concerns (ms : List Migration) (row : Row) : Bool :=
  ms.any fun m => row.values[0]? = some (.text m.filename)

/-- The database creates the tracking table, and this is its reply to the reading of it. -/
def Replies (db : Database σ) (table : TableName) (s : σ)
    (reply : Except DatabaseError (List Row)) : Prop :=
  ∃ t u, (db (createCall table)).run s = (.ok (), t) ∧ (db (readAllCall table)).run t = (reply, u)

section Columns

variable {row : Row} {index : Nat} {e : DatabaseError}

/-- A reader that takes the values of one form succeeds if its column holds one. -/
lemma get_bind_eq_ok {α : Type} {take : SqlValue → Except DatabaseError α} {wrap : α → SqlValue}
    {a : α} (htake : ∀ value, take value = .ok a ↔ value = wrap a) :
    (row.get index >>= take) = .ok a ↔ row.values[index]? = some (wrap a) := by
  unfold Row.get
  cases row.values[index]? with
  | none => simp [bind, Except.bind]
  | some value => simpa [bind, Except.bind] using htake value

lemma getText_eq_ok {filename : String} :
    row.getText index = .ok filename ↔ row.values[index]? = some (.text filename) :=
  get_bind_eq_ok fun value => by cases value <;> simp

lemma getTimestamp_eq_ok {time : Instant} :
    row.getTimestamp index = .ok time ↔ row.values[index]? = some (.timestamp time) :=
  get_bind_eq_ok fun value => by cases value <;> simp

/-- A reader that refuses the values of other types has the fault of its column as its error. -/
lemma get_bind_eq_error {α : Type} {take : SqlValue → Except DatabaseError α}
    {expected : ColumnType} (htake : ∀ value, take value = .error e ↔
      value.type ≠ expected ∧ .typeMismatch index expected value.type = e) :
    (row.get index >>= take) = .error e ↔ ColumnFault row index expected e := by
  unfold Row.get
  cases hvalue : row.values[index]? with
  | none =>
    have hshort : row.values.length ≤ index := List.getElem?_eq_none_iff.mp hvalue
    simp only [bind, Except.bind, Except.error.injEq]
    constructor
    · rintro rfl
      exact .missing hshort
    · rintro (_ | ⟨held, _⟩)
      · rfl
      · rw [hvalue] at held
        cases held
  | some value =>
    simp only [bind, Except.bind, htake]
    constructor
    · rintro ⟨hunexpected, rfl⟩
      exact .mistyped hvalue hunexpected
    · rintro (hshort | ⟨held, hunexpected⟩)
      · rw [List.getElem?_eq_none_iff.mpr hshort] at hvalue
        cases hvalue
      · rw [hvalue, Option.some.injEq] at held
        exact ⟨held ▸ hunexpected, held ▸ rfl⟩

lemma getText_eq_error : row.getText index = .error e ↔ ColumnFault row index .text e :=
  get_bind_eq_error fun value => by cases value <;> simp [SqlValue.type]

lemma getTimestamp_eq_error :
    row.getTimestamp index = .error e ↔ ColumnFault row index .timestamp e :=
  get_bind_eq_error fun value => by cases value <;> simp [SqlValue.type]

/-- The record that a row holds. -/
def Holds (row : Row) (record : AppliedRecord) : Prop :=
  row.values[0]? = some (.text record.filename) ∧
    row.values[1]? = some (.timestamp record.appliedAt)

lemma readRecord_eq_ok {record : AppliedRecord} :
    TableName.readRecord row = .ok record ↔ Holds row record := by
  unfold TableName.readRecord Holds
  simp only [bind_eq_ok, getText_eq_ok, getTimestamp_eq_ok]
  constructor
  · rintro ⟨filename, hfilename, time, htime, hrecord⟩
    obtain rfl := Except.ok.inj hrecord
    exact ⟨hfilename, htime⟩
  · rintro ⟨hfilename, htime⟩
    exact ⟨_, hfilename, _, htime, rfl⟩

lemma readable_iff : Readable row ↔ ∃ record, TableName.readRecord row = .ok record := by
  simp only [readRecord_eq_ok]
  constructor
  · rintro ⟨filename, time, h⟩
    exact ⟨⟨filename, time⟩, h⟩
  · rintro ⟨record, h⟩
    exact ⟨_, _, h⟩

lemma readRecord_eq_error : TableName.readRecord row = .error e ↔ RowFault row e := by
  unfold TableName.readRecord
  cases hfilename : row.getText 0 with
  | error fault =>
    simp only [bind, Except.bind, Except.error.injEq]
    constructor
    · rintro rfl
      exact .filename (getText_eq_error.mp hfilename)
    · rintro (hfault | ⟨hnamed, -⟩)
      · rw [getText_eq_error.mpr hfault] at hfilename
        exact (Except.error.inj hfilename).symm
      · rw [getText_eq_ok.mpr hnamed] at hfilename
        cases hfilename
  | ok filename =>
    have hnamed := getText_eq_ok.mp hfilename
    have hbind : (row.getTimestamp 1 >>= fun time => (pure ⟨filename, time⟩ :
        Except DatabaseError AppliedRecord)) = .error e ↔ row.getTimestamp 1 = .error e := by
      cases row.getTimestamp 1 <;> simp [bind, Except.bind, pure, Except.pure]
    refine hbind.trans ⟨fun htime => .time hnamed (getTimestamp_eq_error.mp htime), ?_⟩
    rintro (hfault | ⟨-, hfault⟩)
    · rw [getText_eq_error.mpr hfault] at hfilename
      cases hfilename
    · exact getTimestamp_eq_error.mpr hfault

end Columns

section Rows

variable {rows : List Row} {records : List AppliedRecord} {e : DatabaseError} {filename : String}

lemma exists_records_iff :
    (∃ records, rows.mapM TableName.readRecord = .ok records) ↔ ∀ row ∈ rows, Readable row := by
  simp only [exists_mapM_eq_ok, readable_iff]

lemma mapM_readRecord_eq_error :
    rows.mapM TableName.readRecord = .error e ↔ FirstFault rows e := by
  simp only [mapM_eq_error, FirstFault, readable_iff, readRecord_eq_error]

lemma forall₂_holds (h : rows.mapM TableName.readRecord = .ok records) :
    List.Forall₂ Holds rows records :=
  (mapM_eq_ok.mp h).imp fun _ _ => readRecord_eq_ok.mp

/-- The time of a file is that of the last of its rows. -/
lemma timeOf?_eq_last (h : List.Forall₂ Holds rows records) (filename : String) :
    AppliedRecord.timeOf? records filename = (rowsOf rows filename).getLast?.bind timeIn? := by
  have hfilter : List.Forall₂ Holds (rowsOf rows filename)
      (records.filter fun record => record.filename == filename) := by
    refine List.rel_filter (fun row record hrow => ?_) h
    simp [hrow.1]
  unfold AppliedRecord.timeOf?
  rw [← List.getLast?_filter, ← List.head?_reverse, ← List.head?_reverse]
  have hreverse := List.forall₂_reverse_iff.mpr hfilter
  generalize (rowsOf rows filename).reverse = lastRows,
    (records.filter fun record => record.filename == filename).reverse = lastRecords
    at hreverse ⊢
  cases hreverse with
  | nil => rfl
  | cons hrow _ => simp [timeIn?, hrow.2]

lemma isSome_last_iff (hreadable : ∀ row ∈ rows, Readable row) :
    ((rowsOf rows filename).getLast?.bind timeIn?).isSome = true ↔
      ∃ row ∈ rows, row.values[0]? = some (.text filename) := by
  have hmem : ∀ row, row ∈ rowsOf rows filename ↔
      row ∈ rows ∧ row.values[0]? = some (.text filename) := by simp [rowsOf]
  cases hlast : (rowsOf rows filename).getLast? with
  | none =>
    rw [List.getLast?_eq_none_iff] at hlast
    simp only [hlast, List.not_mem_nil, false_iff, not_and] at hmem
    simpa using hmem
  | some row =>
    obtain ⟨hrow, hnamed⟩ := (hmem row).mp (List.mem_of_getLast? hlast)
    obtain ⟨-, time, -, htime⟩ := hreadable row hrow
    simpa [timeIn?, htime] using ⟨row, hrow, hnamed⟩

lemma reported_status (hread : rows.mapM TableName.readRecord = .ok records) (m : Migration) :
    Reported rows m (m.status records) := by
  have hlast := timeOf?_eq_last (forall₂_holds hread) m.filename
  have hreadable := exists_records_iff.mp ⟨records, hread⟩
  refine ⟨rfl, rfl, rfl, ?_, hlast, ?_⟩
  · rw [← isSome_last_iff hreadable, ← hlast]
    rfl
  · simp [Migration.status]

lemma Reported.unique {m : Migration} {status status' : MigrationStatus}
    (h : Reported rows m status) (h' : Reported rows m status') : status = status' := by
  have happlied : status.applied = status'.applied :=
    Bool.eq_iff_iff.mpr (h.applied.trans h'.applied.symm)
  cases status
  cases status'
  simp only [MigrationStatus.mk.injEq]
  exact ⟨h.version.trans h'.version.symm, h.description.trans h'.description.symm,
    h.filename.trans h'.filename.symm, happlied, h.appliedAt.trans h'.appliedAt.symm⟩

/-- Rows that belong to none of the migrations say nothing about one of them. -/
lemma Reported.filter_concerns {ms : List Migration} {m : Migration} {status : MigrationStatus}
    (h : Reported rows m status) (hm : m ∈ ms) :
    Reported (rows.filter (concerns ms)) m status := by
  have hconcerns : ∀ row : Row, row.values[0]? = some (.text m.filename) →
      concerns ms row = true := fun row hnamed =>
    List.any_eq_true.mpr ⟨m, hm, decide_eq_true hnamed⟩
  refine { h with applied := h.applied.trans ⟨?_, ?_⟩, appliedAt := h.appliedAt.trans ?_ }
  · rintro ⟨row, hrow, hnamed⟩
    exact ⟨row, List.mem_filter.mpr ⟨hrow, hconcerns row hnamed⟩, hnamed⟩
  · rintro ⟨row, hrow, hnamed⟩
    exact ⟨row, List.mem_of_mem_filter hrow, hnamed⟩
  · have hsame : rowsOf (rows.filter (concerns ms)) m.filename = rowsOf rows m.filename := by
      unfold rowsOf
      rw [List.filter_filter]
      refine List.filter_congr fun row _ => ?_
      by_cases hnamed : row.values[0]? = some (.text m.filename)
      · simp [hnamed, hconcerns row hnamed]
      · simp [hnamed]
    rw [hsame]

end Rows

section Reports

variable {ms : List Migration} {rows : List Row} {records : List AppliedRecord}
  {report report' : StatusReport}

lemma isReport_of_records (hread : rows.mapM TableName.readRecord = .ok records)
    (hms : ms.Pairwise fun a b => a.version < b.version) :
    IsReport ms rows ⟨ms.map fun m => m.status records⟩ := by
  refine ⟨?_, List.pairwise_map.mpr hms⟩
  exact List.forall₂_map_right_iff.mpr (List.forall₂_same.mpr fun m _ => reported_status hread m)

lemma IsReport.unique (h : IsReport ms rows report) (h' : IsReport ms rows report') :
    report = report' := by
  have hunique : Relator.RightUnique (Reported rows) := fun _ _ _ => Reported.unique
  cases report
  cases report'
  rw [StatusReport.mk.injEq]
  exact List.right_unique_forall₂' hunique h.entries h'.entries

lemma IsReport.filter_concerns (h : IsReport ms rows report) :
    IsReport ms (rows.filter (concerns ms)) report := by
  refine ⟨?_, h.ascending⟩
  have hmem : ∀ ms' ⊆ ms, ∀ statuses, List.Forall₂ (Reported rows) ms' statuses →
      List.Forall₂ (Reported (rows.filter (concerns ms))) ms' statuses := by
    intro ms' hsub statuses hentries
    induction hentries with
    | nil => exact .nil
    | cons hstatus _ ih =>
      have hrest := List.cons_subset.mp hsub
      exact .cons (hstatus.filter_concerns hrest.1) (ih hrest.2)
  exact hmem ms (List.Subset.refl ms) _ h.entries

end Reports

section Calls

variable {db : Database σ} {table : TableName} {fs : FileSystem} {dir : Path} {s t : σ}
  {log : List (Exchange σ)} {r : Except EngineError StatusReport} {ms : List Migration}
  {rows : List Row}

/-- The creation of the table, and one reading of it at most. -/
lemma ListTrace.calls (h : ListTrace table fs dir log r) (hl : Linked db s log t)
    (hdir : dir.isEmpty = false) :
    ∃ created u, (db (createCall table)).run s = (created, u) ∧
      (log = [⟨createCall table, created, s, u⟩] ∨
        created = .ok () ∧ ∃ reply v, (db (readAllCall table)).run u = (reply, v) ∧
          log = [⟨createCall table, created, s, u⟩, ⟨readAllCall table, reply, u, v⟩]) := by
  cases h with
  | emptyPath empty =>
    rw [hdir] at empty
    cases empty
  | tableCreation | discovery =>
    obtain ⟨rfl, hcreate, -⟩ := hl
    exact ⟨_, _, hcreate, .inl rfl⟩
  | query | report =>
    obtain ⟨rfl, hcreate, rfl, hquery, -⟩ := hl
    exact ⟨_, _, hcreate, .inr ⟨rfl, _, _, hquery, rfl⟩⟩

section Replies

variable {reply reply' : Except DatabaseError (List Row)} {created : Except DatabaseError Unit}
  {u v : σ}

lemma Replies.creation (h : Replies db table s reply)
    (hcreate : (db (createCall table)).run s = (created, u)) : created = .ok () := by
  obtain ⟨u', v', hcreate', -⟩ := h
  rw [hcreate'] at hcreate
  exact (Prod.mk.inj hcreate).1.symm

lemma Replies.unique (h : Replies db table s reply)
    (hcreate : (db (createCall table)).run s = (created, u))
    (hread : (db (readAllCall table)).run u = (reply', v)) : reply' = reply := by
  obtain ⟨u', v', hcreate', hread'⟩ := h
  rw [hcreate'] at hcreate
  obtain ⟨-, rfl⟩ := Prod.mk.inj hcreate
  rw [hread'] at hread
  exact (Prod.mk.inj hread).1.symm

end Replies

/-- What a report comes to by the rows that it reads. -/
lemma ListTrace.value_eq (h : ListTrace table fs dir log r) (hl : Linked db s log t)
    (hms : Migration.discover fs dir = .ok ms) (hreply : Replies db table s (.ok rows)) :
    r = ((rows.mapM TableName.readRecord).mapError (EngineError.query table.text)).map
      fun records => ⟨ms.map fun m => m.status records⟩ := by
  cases h with
  | emptyPath empty =>
    rw [isEmpty_of_discover hms] at empty
    cases empty
  | tableCreation =>
    obtain ⟨rfl, hcreate, -⟩ := hl
    cases hreply.creation hcreate
  | discovery _ undiscovered =>
    rw [hms] at undiscovered
    cases undiscovered
  | query _ _ unread =>
    obtain ⟨rfl, hcreate, rfl, hquery, -⟩ := hl
    obtain rfl := hreply.unique hcreate hquery
    have hread : rows.mapM TableName.readRecord = .error _ := unread
    rw [hread]
    rfl
  | report _ discovered decoded =>
    obtain ⟨rfl, hcreate, rfl, hquery, -⟩ := hl
    obtain rfl := Except.ok.inj (hreply.unique hcreate hquery)
    rw [hms] at discovered
    obtain rfl := Except.ok.inj discovered
    rw [decoded]
    rfl

lemma ListTrace.eq_ok_iff (h : ListTrace table fs dir log r) (hl : Linked db s log t)
    (hms : Migration.discover fs dir = .ok ms) (hreply : Replies db table s (.ok rows))
    {report : StatusReport} :
    r = .ok report ↔ (∀ row ∈ rows, Readable row) ∧ IsReport ms rows report := by
  rw [h.value_eq hl hms hreply, ← exists_records_iff]
  cases hread : rows.mapM TableName.readRecord with
  | error e => simp [Except.map]
  | ok records =>
    have hrecords := isReport_of_records hread (discover_ascending hms)
    simp only [mapError_ok, Except.map, Except.ok.injEq, exists_eq', true_and]
    exact ⟨fun h => h ▸ hrecords, fun h => hrecords.unique h⟩

lemma ListTrace.error_of_unreadable (h : ListTrace table fs dir log r) (hl : Linked db s log t)
    (hms : Migration.discover fs dir = .ok ms) (hreply : Replies db table s (.ok rows))
    (hunreadable : ∃ row ∈ rows, ¬ Readable row) :
    ∃ e, FirstFault rows e ∧ r = .error (.query table.text e) := by
  rw [h.value_eq hl hms hreply]
  cases hread : rows.mapM TableName.readRecord with
  | error e => exact ⟨e, mapM_readRecord_eq_error.mp hread, rfl⟩
  | ok records =>
    obtain ⟨row, hrow, hnot⟩ := hunreadable
    exact absurd (exists_records_iff.mp ⟨records, hread⟩ row hrow) hnot

lemma ListTrace.replies {report : StatusReport} (h : ListTrace table fs dir log (.ok report))
    (hl : Linked db s log t) : ∃ ms rows, Migration.discover fs dir = .ok ms ∧
      Replies db table s (.ok rows) ∧ ∀ row ∈ rows, Readable row := by
  cases h with
  | report _ discovered decoded =>
    obtain ⟨rfl, hcreate, rfl, hquery, -⟩ := hl
    exact ⟨_, _, discovered, ⟨_, _, hcreate, hquery⟩, exists_records_iff.mp ⟨_, decoded⟩⟩

end Calls

/-- The exact result of a report. It creates the table and reads it once at most. It succeeds if
and only if both calls do, the migrations are discovered, and every row is readable. Then it has one
entry for each migration, with the time of the last row of its file, and rows of other files have no
part in it. A row that is not readable fails it, and the first such row gives the error. -/
theorem list_exact (db : Database σ) (table : TableName) (fs : FileSystem) {dir : Path} (s : σ)
    (hdir : dir.isEmpty = false) :
    let o := observe db (ExceptT.run (Engine.list table fs dir)) s
    (∃ created u, (db (createCall table)).run s = (created, u) ∧
      (o.log = [⟨createCall table, created, s, u⟩] ∨
        created = .ok () ∧ ∃ reply v, (db (readAllCall table)).run u = (reply, v) ∧
          o.log = [⟨createCall table, created, s, u⟩, ⟨readAllCall table, reply, u, v⟩])) ∧
    ((∃ report, o.value = .ok report) ↔ ∃ ms rows, Migration.discover fs dir = .ok ms ∧
      Replies db table s (.ok rows) ∧ ∀ row ∈ rows, Readable row) ∧
    ∀ ms rows, Migration.discover fs dir = .ok ms → Replies db table s (.ok rows) →
      (∀ report, o.value = .ok report ↔
        (∀ row ∈ rows, Readable row) ∧ IsReport ms rows report) ∧
      (∀ report, o.value = .ok report → IsReport ms (rows.filter (concerns ms)) report) ∧
      ((∃ row ∈ rows, ¬ Readable row) →
        ∃ e, FirstFault rows e ∧ o.value = .error (.query table.text e)) := by
  intro o
  have htrace : ListTrace table fs dir o.log o.value := list_yields (observe_yields db _ s)
  have hlinked : Linked db s o.log o.state := observe_linked db _ s
  refine ⟨htrace.calls hlinked hdir, ⟨?_, ?_⟩, fun ms rows hms hreply => ⟨?_, ?_, ?_⟩⟩
  · rintro ⟨report, hok⟩
    exact (hok ▸ htrace).replies hlinked
  · rintro ⟨ms, rows, hms, hreply, hreadable⟩
    obtain ⟨records, hread⟩ := exists_records_iff.mpr hreadable
    have hreport := isReport_of_records hread (discover_ascending hms)
    exact ⟨_, (htrace.eq_ok_iff hlinked hms hreply).mpr ⟨hreadable, hreport⟩⟩
  · exact fun report => htrace.eq_ok_iff hlinked hms hreply
  · intro report hok
    obtain ⟨-, hreport⟩ := (htrace.eq_ok_iff hlinked hms hreply).mp hok
    exact hreport.filter_concerns
  · exact htrace.error_of_unreadable hlinked hms hreply

/-- A database that hands out the same rows for every query. -/
def answering (rows : List Row) : Database Unit
  | .execute .. => pure (.ok 1)
  | .executeBatch _ => pure (.ok ())
  | .queryRow .. => pure (.ok rows.head?)
  | .query .. => pure (.ok rows)

def earlyTime : Instant := ⟨-1, 999999999, by decide, by decide, by decide⟩

def lateTime : Instant := ⟨1, 0, by decide, by decide, by decide⟩

/-- The second of three files twice, and a file that is not there. -/
def repeatedRows : List Row :=
  [⟨[.text "2_b.sql", .timestamp lateTime]⟩, ⟨[.text "9_z.sql", .timestamp earlyTime, .null]⟩,
    ⟨[.text "2_b.sql", .timestamp earlyTime]⟩]

/-- Of the two times the one in the last row counts; a row without a time fails the report, though
no discovered file is concerned. -/
theorem list_exact_repeated :
    Path.isEmpty ⟨"m"⟩ = false ∧
    (observe (answering repeatedRows)
      (ExceptT.run (Engine.list .default threeFiles.fileSystem ⟨"m"⟩)) ()).value =
        .ok ⟨[⟨1, "a", "1_a.sql", false, none⟩, ⟨2, "b", "2_b.sql", true, some earlyTime⟩,
          ⟨3, "c", "3_c.sql", false, none⟩]⟩ ∧
    (observe (answering (⟨[.text "9_z.sql", .null]⟩ :: repeatedRows))
      (ExceptT.run (Engine.list .default threeFiles.fileSystem ⟨"m"⟩)) ()).value =
        .error (.query "schema_migrations" (.typeMismatch 1 .timestamp .null)) := by
  have hdir : Path.isEmpty ⟨"m"⟩ = false := by decide
  have hreplies : ∀ rows, Replies (answering rows) .default () (.ok rows) :=
    fun rows => ⟨(), (), rfl, rfl⟩
  refine ⟨hdir, ?_, ?_⟩
  · obtain ⟨-, -, hresult⟩ :=
      list_exact (answering repeatedRows) .default threeFiles.fileSystem () hdir
    obtain ⟨hreport, -, -⟩ := hresult _ _ threeFiles_discover (hreplies repeatedRows)
    refine (hreport _).mpr ⟨?_, ?_, by decide⟩
    · exact exists_records_iff.mp ⟨_, rfl⟩
    · exact .cons ⟨rfl, rfl, rfl, by decide, by decide, by decide⟩
        (.cons ⟨rfl, rfl, rfl, by decide, by decide, by decide⟩
          (.cons ⟨rfl, rfl, rfl, by decide, by decide, by decide⟩ .nil))
  · obtain ⟨-, -, hresult⟩ := list_exact (answering (⟨[.text "9_z.sql", .null]⟩ :: repeatedRows))
      .default threeFiles.fileSystem () hdir
    obtain ⟨-, -, hfault⟩ := hresult _ _ threeFiles_discover (hreplies _)
    have hunreadable : ¬ Readable ⟨[.text "9_z.sql", .null]⟩ := by
      rintro ⟨filename, time, -, htime⟩
      cases htime
    obtain ⟨e, hfirst, herror⟩ := hfault ⟨_, List.mem_cons_self, hunreadable⟩
    have hread : (⟨[.text "9_z.sql", .null]⟩ :: repeatedRows : List Row).mapM TableName.readRecord =
        .error (.typeMismatch 1 .timestamp .null) := rfl
    rw [← mapM_readRecord_eq_error, hread] at hfirst
    rw [Except.error.inj hfirst]
    exact herror

end SqlMigrations.Proofs
