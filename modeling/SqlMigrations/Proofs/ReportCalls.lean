import Mathlib.Data.List.Nodup
import SqlMigrations.Engine.Status
import SqlMigrations.Proofs.TrackedRows

/-!
# The calls of a report

A report creates the tracking table and reads it once. The time that it gives for a file is that of
the row of this file, so a row that stays gives every later report the same time.
-/

namespace SqlMigrations.Proofs

variable {σ : Type}

abbrev readAllCall (table : TableName) : Call := .query (Statement.readAll.text table) []

/-- The exchanges of a report and what it comes to. -/
inductive ListTrace (table : TableName) (fs : FileSystem) (dir : Path) :
    List (Exchange σ) → Except EngineError StatusReport → Prop
  | emptyPath (empty : dir.isEmpty = true) : ListTrace table fs dir [] (.error .emptyPath)
  | tableCreation {e : DatabaseError} {s₁ s₂ : σ} (nonempty : dir.isEmpty = false) :
      ListTrace table fs dir [⟨createCall table, .error e, s₁, s₂⟩]
        (.error (.tableCreation table.text e))
  | discovery {e : DiscoveryError} {s₁ s₂ : σ} (nonempty : dir.isEmpty = false)
      (undiscovered : Migration.discover fs dir = .error e) :
      ListTrace table fs dir [⟨createCall table, .ok (), s₁, s₂⟩] (.error (.discovery e))
  | query {ms : List Migration} {reply : Except DatabaseError (List Row)} {e : DatabaseError}
      {s₁ s₂ s₃ s₄ : σ} (nonempty : dir.isEmpty = false)
      (discovered : Migration.discover fs dir = .ok ms)
      (unread : (reply.bind fun rows => rows.mapM TableName.readRecord) = .error e) :
      ListTrace table fs dir
        [⟨createCall table, .ok (), s₁, s₂⟩, ⟨readAllCall table, reply, s₃, s₄⟩]
        (.error (.query table.text e))
  | report {ms : List Migration} {reply : List Row} {records : List AppliedRecord}
      {s₁ s₂ s₃ s₄ : σ} (nonempty : dir.isEmpty = false)
      (discovered : Migration.discover fs dir = .ok ms)
      (decoded : reply.mapM TableName.readRecord = .ok records) :
      ListTrace table fs dir
        [⟨createCall table, .ok (), s₁, s₂⟩, ⟨readAllCall table, .ok reply, s₃, s₄⟩]
        (.ok ⟨ms.map fun m => m.status records⟩)

lemma records_yields {table : TableName} {log : List (Exchange σ)}
    {r : Except EngineError (List AppliedRecord)}
    (h : Yields (ExceptT.run table.records) log r) :
    ∃ reply before after, log = [⟨readAllCall table, reply, before, after⟩] ∧
      r = (reply.bind fun rows => rows.mapM TableName.readRecord).mapError
        (EngineError.query table.text) := by
  unfold TableName.records at h
  rcases yields_andThen.mp h with ⟨log₁, rows, log₂, rfl, h₁, h₂⟩ | ⟨e, h₁, rfl⟩
  · obtain ⟨answer, before, after, rfl, ha⟩ := yields_ask.mp h₁
    obtain rfl := ok_eq_mapError.mp ha
    obtain ⟨rfl, rfl⟩ := yields_lift.mp h₂
    exact ⟨_, before, after, rfl, rfl⟩
  · obtain ⟨answer, before, after, rfl, ha⟩ := yields_ask.mp h₁
    obtain ⟨cause, rfl, rfl⟩ := error_eq_mapError.mp ha
    exact ⟨_, before, after, rfl, rfl⟩

theorem list_yields {table : TableName} {fs : FileSystem} {dir : Path}
    {log : List (Exchange σ)} {r : Except EngineError StatusReport}
    (h : Yields (ExceptT.run (Engine.list table fs dir)) log r) :
    ListTrace table fs dir log r := by
  unfold Engine.list at h
  by_cases hd : dir.isEmpty = true
  · rw [if_pos hd] at h
    obtain ⟨rfl, rfl⟩ := throw_yields h
    exact .emptyPath hd
  rw [if_neg hd] at h
  rw [Bool.not_eq_true] at hd
  rcases yields_andThen.mp h with ⟨log₁, u, log₂, rfl, h₁, h₂⟩ | ⟨e, h₁, rfl⟩
  · obtain ⟨created, before, after, rfl, hcreated⟩ := yields_ask.mp h₁
    obtain rfl := ok_eq_mapError.mp hcreated
    rcases yields_andThen.mp h₂ with ⟨log₃, ms, log₄, rfl, h₃, h₄⟩ | ⟨e, h₃, rfl⟩
    · obtain ⟨rfl, hms⟩ := yields_lift.mp h₃
      have hdisc : Migration.discover fs dir = .ok ms := ok_eq_mapError.mp hms
      rcases yields_andThen.mp h₄ with ⟨log₅, records, log₆, rfl, h₅, h₆⟩ | ⟨e, h₅, rfl⟩
      · obtain ⟨reply, before', after', rfl, hrecords⟩ := records_yields h₅
        obtain ⟨rfl, rfl⟩ := yields_pure.mp h₆
        cases reply with
        | error e => cases hrecords
        | ok rows => exact .report hd hdisc (ok_eq_mapError.mp hrecords)
      · obtain ⟨reply, before', after', rfl, hrecords⟩ := records_yields h₅
        obtain ⟨cause, hcause, rfl⟩ := error_eq_mapError.mp hrecords
        exact .query hd hdisc hcause
    · obtain ⟨rfl, hms⟩ := yields_lift.mp h₃
      obtain ⟨cause, hdisc, rfl⟩ := error_eq_mapError.mp hms
      exact .discovery hd hdisc
  · obtain ⟨created, before, after, rfl, hcreated⟩ := yields_ask.mp h₁
    obtain ⟨cause, rfl, rfl⟩ := error_eq_mapError.mp hcreated
    exact .tableCreation hd

/-- A database row shows a stored one. -/
def Shows (stored : StoredRow) (row : Row) : Prop :=
  ∃ t, TimeUnit.microsecond.instant? stored.micros.toInt = some t ∧
    row.values = [.text stored.filename, .timestamp t]

/-- A database that reads back what it has stored. -/
structure ReadsBack (table : TableName) (db : Database σ) (rows : σ → List StoredRow) : Prop where
  readAll_keeps : ∀ s, rows ((db (readAllCall table)).run s).2 = rows s
  readAll_shows : ∀ s t reply, (db (readAllCall table)).run s = (.ok reply, t) →
    List.Forall₂ Shows (rows s) reply

/-- A file has a row, and the row has this time. -/
def AppliedAt (rows : List StoredRow) (f : String) (t : Instant) : Prop :=
  ∃ stored ∈ rows, stored.filename = f ∧
    TimeUnit.microsecond.instant? stored.micros.toInt = some t

lemma appliedAt_cons {stored : StoredRow} {rows : List StoredRow} {f : String} {t : Instant} :
    AppliedAt (stored :: rows) f t ↔ stored.filename = f ∧
      TimeUnit.microsecond.instant? stored.micros.toInt = some t ∨ AppliedAt rows f t := by
  simp [AppliedAt]

lemma AppliedAt.mono {rows rows' : List StoredRow} {f : String} {t : Instant}
    (h : AppliedAt rows f t) (hrows : rows <+: rows') : AppliedAt rows' f t := by
  obtain ⟨stored, hstored, hf, ht⟩ := h
  exact ⟨stored, hrows.subset hstored, hf, ht⟩

/-- The record that a stored row is read as. -/
def ReadAs (stored : StoredRow) (record : AppliedRecord) : Prop :=
  record.filename = stored.filename ∧
    TimeUnit.microsecond.instant? stored.micros.toInt = some record.appliedAt

lemma exists_readRecord {stored : StoredRow} {row : Row} (hshows : Shows stored row) :
    ∃ record, TableName.readRecord row = .ok record ∧ ReadAs stored record := by
  obtain ⟨t, ht, hvalues⟩ := hshows
  refine ⟨⟨stored.filename, t⟩, ?_, rfl, ht⟩
  simp [TableName.readRecord, Row.getText, Row.getTimestamp, Row.get, hvalues, bind, Except.bind,
    pure, Except.pure]

lemma readRecord_of_shows {stored : StoredRow} {row : Row} {record : AppliedRecord}
    (hshows : Shows stored row) (hread : TableName.readRecord row = .ok record) :
    ReadAs stored record := by
  obtain ⟨record', hrow, hstored⟩ := exists_readRecord hshows
  rw [hrow] at hread
  obtain rfl := Except.ok.inj hread
  exact hstored

/-- Rows that are shown can be read. -/
lemma exists_records {rows : List StoredRow} {reply : List Row}
    (hshows : List.Forall₂ Shows rows reply) :
    ∃ records, reply.mapM TableName.readRecord = .ok records := by
  simp only [mapM_eq_ok]
  induction hshows with
  | nil => exact ⟨[], .nil⟩
  | cons hrow _ ih =>
    obtain ⟨record, hrecord, -⟩ := exists_readRecord hrow
    obtain ⟨records, hrecords⟩ := ih
    exact ⟨record :: records, .cons hrecord hrecords⟩

lemma records_of_shows {rows : List StoredRow} {reply : List Row} {records : List AppliedRecord}
    (hshows : List.Forall₂ Shows rows reply)
    (hread : reply.mapM TableName.readRecord = .ok records) :
    (records.map fun r => r.filename) = names rows ∧
      ∀ f t, ⟨f, t⟩ ∈ records ↔ AppliedAt rows f t := by
  rw [mapM_eq_ok] at hread
  induction hshows generalizing records with
  | nil =>
    cases hread
    exact ⟨rfl, by simp [AppliedAt]⟩
  | @cons stored row rows reply hrow _ ih =>
    obtain ⟨record, records, hrecord, hrest, rfl⟩ := List.forall₂_cons_left_iff.mp hread
    obtain ⟨hnames, htimes⟩ := ih hrest
    obtain ⟨hname, htime⟩ := readRecord_of_shows hrow hrecord
    refine ⟨?_, fun f t => ?_⟩
    · rw [List.map_cons, hnames, hname]
      rfl
    · rw [List.mem_cons, htimes, appliedAt_cons, ← hname, htime]
      cases record
      simp [eq_comm]

/-- Without a second record of the file, its time is that of its record. -/
lemma timeOf?_eq_some {records : List AppliedRecord} {f : String} {t : Instant}
    (hnodup : (records.map fun r => r.filename).Nodup) :
    AppliedRecord.timeOf? records f = some t ↔ ⟨f, t⟩ ∈ records := by
  unfold AppliedRecord.timeOf?
  constructor
  · intro h
    obtain ⟨record, hrecord, rfl⟩ := Option.map_eq_some_iff.mp h
    have hf : record.filename = f := by simpa using List.find?_some hrecord
    rw [← hf]
    exact List.mem_reverse.mp (List.mem_of_find?_eq_some hrecord)
  · intro h
    cases hfind : records.reverse.find? fun r => r.filename == f with
    | none =>
      have := List.find?_eq_none.mp hfind _ (List.mem_reverse.mpr h)
      simp at this
    | some record =>
      -- The search starts from the end, but there is no other record to find.
      have hrecord := List.mem_reverse.mp (List.mem_of_find?_eq_some hfind)
      have hf : record.filename = f := by simpa using List.find?_some hfind
      rw [List.inj_on_of_nodup_map hnodup hrecord h hf]
      rfl

/-- Over rows without a second one for any file, a report gives each file the time of its row. -/
theorem ListTrace.times {table : TableName} {db : Database σ} {rows : σ → List StoredRow}
    {fs : FileSystem} {dir : Path} {s t : σ} {log : List (Exchange σ)} {report : StatusReport}
    (hkeeps : ∀ s, rows ((db (createCall table)).run s).2 = rows s)
    (hback : ReadsBack table db rows) (hnodup : (names (rows s)).Nodup)
    (h : ListTrace table fs dir log (.ok report)) (hl : Linked db s log t) :
    ∀ m ∈ report.migrations, m.applied = m.appliedAt.isSome ∧
      ∀ time, m.appliedAt = some time ↔ AppliedAt (rows s) m.filename time := by
  cases h with
  | @report ms reply records _ _ _ _ _ discovered decoded =>
    obtain ⟨rfl, hcreate, rfl, hquery, -⟩ := hl
    have hshows := hback.readAll_shows _ _ _ hquery
    rw [rows_after (hkeeps _) hcreate] at hshows
    obtain ⟨hnames, htimes⟩ := records_of_shows hshows decoded
    intro status hstatus
    obtain ⟨m, -, rfl⟩ := List.mem_map.mp hstatus
    refine ⟨rfl, fun time => ?_⟩
    rw [← htimes, ← timeOf?_eq_some (hnames ▸ hnodup)]
    rfl

end SqlMigrations.Proofs
