import SqlMigrations.Proofs.RunOutcome

/-!
# Agreement of reports and runs

A run checks each file on its own; a report reads all rows at once and looks each file up in them.
Both find the same files applied, so a report foretells what a run applies and what the next report
shows.
-/

namespace SqlMigrations.Proofs

variable {σ : Type}

/-- Whether the version of an entry is within the bound of a run. -/
def isReportedWithin (bound : Option UInt64) (m : MigrationStatus) : Bool :=
  match bound with
  | some target => m.version ≤ target
  | none => true

/-- What a run that applies some files makes of an entry of a report. -/
def Applies (applied : List String) (m m' : MigrationStatus) : Prop :=
  if m.filename ∈ applied then ∃ time, m' = { m with applied := true, appliedAt := some time }
  else m' = m

section Records

variable {rows rows' : List StoredRow} {records records' : List AppliedRecord} {f : String}

lemma ReadAs.unique {stored : StoredRow} {record record' : AppliedRecord}
    (h : ReadAs stored record) (h' : ReadAs stored record') : record = record' := by
  obtain ⟨hname, htime⟩ := h
  obtain ⟨hname', htime'⟩ := h'
  rw [htime, Option.some.injEq] at htime'
  cases record
  cases record'
  simp_all

lemma readAs_of_shows {reply : List Row} (hshows : List.Forall₂ Shows rows reply)
    (hread : reply.mapM TableName.readRecord = .ok records) : List.Forall₂ ReadAs rows records := by
  rw [mapM_eq_ok] at hread
  induction hshows generalizing records with
  | nil =>
    cases hread
    exact .nil
  | cons hrow _ ih =>
    obtain ⟨record, records, hrecord, hrest, rfl⟩ := List.forall₂_cons_left_iff.mp hread
    exact .cons (readRecord_of_shows hrow hrecord) (ih hrest)

lemma names_of_readAs (h : List.Forall₂ ReadAs rows records) :
    (records.map fun r => r.filename) = names rows := by
  induction h with
  | nil => rfl
  | cons hrow _ ih =>
    rw [List.map_cons, ih, hrow.1]
    rfl

/-- More rows are read as more records. -/
lemma readAs_append (h : List.Forall₂ ReadAs rows records)
    (h' : List.Forall₂ ReadAs (rows ++ rows') records') :
    ∃ extra, records' = records ++ extra ∧ List.Forall₂ ReadAs rows' extra := by
  induction h generalizing records' with
  | nil => exact ⟨records', rfl, h'⟩
  | cons hrow _ ih =>
    obtain ⟨record, rest, hrecord, hrest, rfl⟩ := List.forall₂_cons_left_iff.mp h'
    obtain ⟨extra, rfl, hextra⟩ := ih hrest
    exact ⟨extra, by rw [hrow.unique hrecord, List.cons_append], hextra⟩

lemma timeOf?_append : AppliedRecord.timeOf? (records ++ records') f =
    (AppliedRecord.timeOf? records' f).or (AppliedRecord.timeOf? records f) := by
  unfold AppliedRecord.timeOf?
  rw [List.reverse_append, List.find?_append, Option.map_or]

lemma isSome_timeOf? :
    (AppliedRecord.timeOf? records f).isSome ↔ f ∈ records.map fun r => r.filename := by
  simp [AppliedRecord.timeOf?, List.find?_isSome]

lemma applied_status (h : List.Forall₂ ReadAs rows records) (m : Migration) :
    (m.status records).applied = decide (m.filename ∈ names rows) := by
  rw [Bool.eq_iff_iff, decide_eq_true_iff, ← names_of_readAs h]
  exact isSome_timeOf?

/-- The entry of a migration after rows were added to those that it was reported by. -/
lemma applies_status (h : List.Forall₂ ReadAs rows records)
    (h' : List.Forall₂ ReadAs (rows ++ rows') records') (m : Migration) :
    Applies (names rows') (m.status records) (m.status records') := by
  obtain ⟨extra, rfl, hextra⟩ := readAs_append h h'
  have hsome : (AppliedRecord.timeOf? extra m.filename).isSome ↔ m.filename ∈ names rows' := by
    rw [← names_of_readAs hextra]
    exact isSome_timeOf?
  unfold Applies
  by_cases hmem : m.filename ∈ names rows'
  · obtain ⟨time, htime⟩ := Option.isSome_iff_exists.mp (hsome.mpr hmem)
    rw [if_pos (show (m.status records).filename ∈ names rows' from hmem)]
    exact ⟨time, by simp [Migration.status, timeOf?_append, htime]⟩
  · have hnone : AppliedRecord.timeOf? extra m.filename = none := by
      rw [← Option.not_isSome_iff_eq_none, hsome]
      exact hmem
    rw [if_neg (show (m.status records).filename ∉ names rows' from hmem)]
    simp [Migration.status, timeOf?_append, hnone]

end Records

section Report

variable {table : TableName} {db : Database σ} {rows : σ → List StoredRow} {bodies : String → Prop}
  {fs : FileSystem} {dir : Path} {bound : Option UInt64} {s t : σ} {log : List (Exchange σ)}
  {ms : List Migration} {stored : List StoredRow} {records : List AppliedRecord}

lemma ListTrace.report_effect (hdb : Tracks table db rows bodies) (hback : ReadsBack table db rows)
    {report : StatusReport} (h : ListTrace table fs dir log (.ok report)) (hl : Linked db s log t) :
    ∃ ms records, Migration.discover fs dir = .ok ms ∧ List.Forall₂ ReadAs (rows s) records ∧
      report = ⟨ms.map fun m => m.status records⟩ ∧ rows t = rows s := by
  cases h with
  | @report ms reply records _ _ _ _ _ discovered decoded =>
    obtain ⟨rfl, hcreate, rfl, hquery, rfl⟩ := hl
    have hcreated := Proofs.rows_after (hdb.create_keeps _) hcreate
    have hshows := hback.readAll_shows _ _ _ hquery
    rw [hcreated] at hshows
    refine ⟨ms, records, discovered, readAs_of_shows hshows decoded, rfl, ?_⟩
    rw [Proofs.rows_after (hback.readAll_keeps _) hquery, hcreated]

/-- Where the migrations are discovered, only a call that fails keeps a report from its end. -/
lemma ListTrace.exists_report (hback : ReadsBack table db rows) {r : Except EngineError StatusReport}
    (h : ListTrace table fs dir log r) (hl : Linked db s log t)
    (hms : Migration.discover fs dir = .ok ms) (hsucceeded : AllSucceeded log) :
    ∃ report, r = .ok report := by
  cases h with
  | emptyPath empty =>
    rw [isEmpty_of_discover hms] at empty
    cases empty
  | tableCreation =>
    obtain ⟨value, hvalue⟩ := hsucceeded _ List.mem_cons_self
    cases hvalue
  | discovery _ undiscovered =>
    rw [hms] at undiscovered
    cases undiscovered
  | @query _ reply _ _ _ _ _ _ _ unread =>
    obtain ⟨-, -, -, hquery, -⟩ := hl
    cases reply with
    | error cause =>
      obtain ⟨value, hvalue⟩ := hsucceeded _ (List.mem_cons_of_mem _ List.mem_cons_self)
      cases hvalue
    | ok reply =>
      obtain ⟨records, hrecords⟩ := exists_records (hback.readAll_shows _ _ _ hquery)
      have hread : reply.mapM TableName.readRecord = .error _ := unread
      rw [hrecords] at hread
      cases hread
  | report => exact ⟨_, rfl⟩

end Report

section Entries

variable {bound : Option UInt64} {ms : List Migration} {stored : List StoredRow}
  {records : List AppliedRecord}

lemma isReportedWithin_status (bound : Option UInt64) (records : List AppliedRecord)
    (m : Migration) : isReportedWithin bound (m.status records) = Engine.isWithin bound m := rfl

/-- The pending entries within a bound are those of the files that a run would find pending. -/
lemma pending_report (h : List.Forall₂ ReadAs stored records) (ms : List Migration)
    (bound : Option UInt64) :
    (((⟨ms.map fun m => m.status records⟩ : StatusReport).pending.filter
      (isReportedWithin bound)).map fun m => m.filename) =
        pending (ms.filter (Engine.isWithin bound)) (names stored) := by
  unfold StatusReport.pending pending
  dsimp only
  rw [List.filter_map, List.filter_map, List.map_map, List.filter_map, List.filter_filter,
    List.filter_filter]
  refine congrArg _ (List.filter_congr fun m _ => ?_)
  simp [applied_status h, isReportedWithin_status, Bool.and_comm]

/-- Within a bound an entry is pending or applied. -/
lemma length_pending_add_applied (h : List.Forall₂ ReadAs stored records) (ms : List Migration)
    (bound : Option UInt64) :
    (pending (ms.filter (Engine.isWithin bound)) (names stored)).length +
      ((ms.map fun m => m.status records).filter fun m =>
        m.applied && isReportedWithin bound m).length = (ms.filter (Engine.isWithin bound)).length := by
  have happlied : ((ms.map fun m => m.status records).filter fun m =>
      m.applied && isReportedWithin bound m).length =
        ((ms.filter (Engine.isWithin bound)).filter fun m => m.filename ∈ names stored).length := by
    rw [List.filter_map, List.length_map, List.filter_filter]
    refine congrArg _ (List.filter_congr fun m _ => ?_)
    simp [applied_status h, isReportedWithin_status]
  have hpending : (pending (ms.filter (Engine.isWithin bound)) (names stored)).length =
      ((ms.filter (Engine.isWithin bound)).filter fun m => !decide (m.filename ∈ names stored)).length := by
    unfold pending
    rw [List.filter_map, List.length_map]
    refine congrArg _ (List.filter_congr fun m _ => ?_)
    simp
  have hlength := List.length_eq_length_filter_add (l := ms.filter (Engine.isWithin bound))
    fun m => decide (m.filename ∈ names stored)
  omega

lemma isUpToDate_iff (h : List.Forall₂ ReadAs stored records) (ms : List Migration) :
    (⟨ms.map fun m => m.status records⟩ : StatusReport).isUpToDate = true ↔
      pending ms (names stored) = [] := by
  have hlength := length_pending_add_applied h ms none
  have hany : (fun m : MigrationStatus => m.applied && isReportedWithin none m) =
      fun m => m.applied := funext fun m => Bool.and_true _
  rw [filter_isWithin_none, hany] at hlength
  rw [← List.length_eq_zero_iff]
  simp only [StatusReport.isUpToDate, StatusReport.pendingCount, StatusReport.appliedCount,
    List.length_map, beq_iff_eq]
  omega

/-- Of versions in ascending order the greatest is the last. -/
lemma max?_eq_getLast? {versions : List UInt64} (h : versions.Pairwise (· < ·)) :
    versions.max? = versions.getLast? := by
  cases versions with
  | nil => rfl
  | cons v versions =>
    rw [List.max?_cons']
    induction versions generalizing v with
    | nil => rfl
    | cons w versions ih =>
      obtain ⟨hv, hversions⟩ := List.pairwise_cons.mp h
      have hmax : max v w = w := if_pos (UInt64.le_of_lt (hv w List.mem_cons_self))
      rw [List.foldl_cons, hmax, List.getLast?_cons_cons]
      exact ih w hversions

end Entries

section Agreement

variable {table : TableName} {db : Database σ} {rows : σ → List StoredRow} {fs : FileSystem}
  {dir : Path} {bound : Option UInt64} {s t : σ} {log : List (Exchange σ)}

/-- What a report foretells of a run: it applies the pending entries within its bound, in order, and
skips the applied ones; and reports after it show just that. -/
structure Foretells (table : TableName) (db : Database σ) (fs : FileSystem) (dir : Path)
    (bound : Option UInt64) (report : StatusReport) (t : σ) (summary : RunSummary) : Prop where
  applied : summary.applied =
    (report.pending.filter (isReportedWithin bound)).map fun m => m.filename
  skipped : summary.skipped =
    (report.migrations.filter fun m => m.applied && isReportedWithin bound m).length
  answered : AllSucceeded (observe db (ExceptT.run (Engine.list table fs dir)) t).log →
    ∃ later, (observe db (ExceptT.run (Engine.list table fs dir)) t).value = .ok later
  reported : ∀ later, (observe db (ExceptT.run (Engine.list table fs dir)) t).value = .ok later →
    List.Forall₂ (Applies summary.applied) report.migrations later.migrations

lemma RunTrace.foretold (hdb : Tracks table db rows (IsBody fs dir))
    (hback : ReadsBack table db rows) {ms : List Migration} {records : List AppliedRecord}
    (hms : Migration.discover fs dir = .ok ms) (hrecords : List.Forall₂ ReadAs (rows s) records)
    {summary : RunSummary} (h : RunTrace table fs dir bound log (.ok summary))
    (hl : Linked db s log t) :
    Foretells table db fs dir bound ⟨ms.map fun m => m.status records⟩ t summary := by
  obtain ⟨ms', rest, hms', -, -, hcompleted, added, hadded, hnames⟩ := h.ok_effect hdb hl
  rw [hms] at hms'
  obtain rfl := Except.ok.inj hms'
  have happlied : summary.applied =
      pending (ms.filter (Engine.isWithin bound)) (names (rows s)) := hcompleted.applied_eq
  have hlist := list_yields (observe_yields db (ExceptT.run (Engine.list table fs dir)) t)
  have hlinked := observe_linked db (ExceptT.run (Engine.list table fs dir)) t
  refine ⟨?_, ?_, hlist.exists_report hback hlinked hms, fun later hlater => ?_⟩
  · rw [pending_report hrecords, happlied]
  · have hskipped := hcompleted.skipped_eq
    have hlength := length_pending_add_applied hrecords ms bound
    dsimp only at hskipped ⊢
    omega
  · rw [hlater] at hlist
    obtain ⟨ms', records', hms', hrecords', rfl, -⟩ := hlist.report_effect hdb hback hlinked
    rw [hms] at hms'
    obtain rfl := Except.ok.inj hms'
    rw [hadded] at hrecords'
    rw [happlied, ← hnames]
    refine List.forall₂_map_left_iff.mpr (List.forall₂_map_right_iff.mpr ?_)
    exact List.forall₂_same.mpr fun m _ => applies_status hrecords hrecords' m

/-- Reports agree with runs. A report foretells every run that ends well, up to whatever bound; it is
up to date if and only if a run without a bound executes no body; and the latest version that it shows
applied is that of its last applied entry. -/
theorem status_agrees_with_run (hdb : Tracks table db rows (IsBody fs dir))
    (hback : ReadsBack table db rows) {report : StatusReport}
    (h : (observe db (ExceptT.run (Engine.list table fs dir)) s).value = .ok report) :
    let t := (observe db (ExceptT.run (Engine.list table fs dir)) s).state
    let run := fun bound => observe db (ExceptT.run (Engine.run table fs dir bound)) t
    (∀ bound summary, (run bound).value = .ok summary →
      Foretells table db fs dir bound report (run bound).state summary) ∧
    (∀ summary, (run none).value = .ok summary →
      (report.isUpToDate = true ↔ executions table (run none).log = [])) ∧
    report.latestApplied? =
      (report.migrations.filter fun m => m.applied).getLast?.map (fun m => m.version) ∧
    (report.latestApplied? = none ↔ ∀ m ∈ report.migrations, m.applied = false) := by
  intro t run
  have hlist := list_yields (observe_yields db (ExceptT.run (Engine.list table fs dir)) s)
  have hlinked := observe_linked db (ExceptT.run (Engine.list table fs dir)) s
  rw [h] at hlist
  obtain ⟨ms, records, hms, hrecords, rfl, hrows⟩ := hlist.report_effect hdb hback hlinked
  have hrows' : rows t = rows s := hrows
  rw [← hrows'] at hrecords
  have htrace : ∀ bound, RunTrace table fs dir bound (run bound).log (run bound).value :=
    fun bound => run_yields (observe_yields db _ t)
  have hran : ∀ bound, Linked db t (run bound).log (run bound).state :=
    fun bound => observe_linked db _ t
  have hascending : ((ms.map fun m => m.status records).map fun m => m.version).Pairwise (· < ·) := by
    rw [List.map_map]
    exact List.pairwise_map.mpr (discover_ascending hms)
  refine ⟨fun bound summary hok => ?_, fun summary hok => ?_, ?_, ?_⟩
  · exact (hok ▸ htrace bound).foretold hdb hback hms hrecords (hran bound)
  · obtain ⟨ms', rest, hms', ⟨s₁, s₂, hlog⟩, -, hcompleted, -⟩ :=
      (hok ▸ htrace none).ok_effect hdb (hran none)
    rw [hms] at hms'
    obtain rfl := Except.ok.inj hms'
    have hexecuted : executedFiles table (run none).log = pending ms (names (rows t)) := by
      rw [filter_isWithin_none] at hcompleted
      rw [hlog]
      exact hcompleted.executed none
    rw [isUpToDate_iff hrecords, ← hexecuted]
    exact List.map_eq_nil_iff
  · unfold StatusReport.latestApplied?
    rw [max?_eq_getLast? (hascending.sublist (List.filter_sublist.map _)), List.getLast?_map]
  · unfold StatusReport.latestApplied?
    rw [List.max?_eq_none_iff, List.map_eq_nil_iff, List.filter_eq_nil_iff]
    simp

lemma observe_list_of_created {ms : List Migration} {u : σ}
    (hms : Migration.discover fs dir = .ok ms)
    (hcreate : (db (createCall table)).run s = (.ok (), u)) :
    observe db (ExceptT.run (Engine.list table fs dir)) s =
      let o := observe db (ExceptT.run table.records) u
      ⟨o.value.map fun records => ⟨ms.map fun m => m.status records⟩,
        ⟨createCall table, .ok (), s, u⟩ :: o.log, o.state⟩ := by
  have hdir : dir.isEmpty = false := isEmpty_of_discover hms
  have hensure : observe db (ExceptT.run table.ensure) s =
      ⟨.ok (), [⟨createCall table, .ok (), s, u⟩], u⟩ := by
    have hcall : ExceptT.run table.ensure = .call (createCall table) fun reply =>
        .done (reply.mapError (.tableCreation table.text)) := rfl
    rw [hcall, observe_call, hcreate]
    rfl
  have hdiscover : Engine.discover fs dir = pure ms := by
    unfold Engine.discover
    rw [hms]
    rfl
  have hpure : ∀ (report : StatusReport) (t : σ),
      observe db (ExceptT.run (pure report : Engine StatusReport)) t = ⟨.ok report, [], t⟩ :=
    fun _ _ => rfl
  unfold Engine.list
  rw [if_neg (by simp [hdir]), hdiscover]
  simp only [pure_bind, observe_andThen, hensure, hpure, List.append_nil]
  generalize observe db (ExceptT.run table.records) u = o
  obtain ⟨value, log, t⟩ := o
  cases value <;> rfl

end Agreement

/-- The report of the three files after the second one. -/
def lateReport : StatusReport :=
  ⟨[⟨1, "a", "1_a.sql", false, none⟩, ⟨2, "b", "2_b.sql", true, TimeUnit.microsecond.instant? 0⟩,
    ⟨3, "c", "3_c.sql", false, none⟩]⟩

lemma late_report : (observe liveDatabase
    (ExceptT.run (Engine.list .default threeFiles.fileSystem ⟨"m"⟩)) lateStore).value =
      .ok lateReport ∧
    (observe liveDatabase
      (ExceptT.run (Engine.list .default threeFiles.fileSystem ⟨"m"⟩)) lateStore).state =
        lateStore := by
  rw [observe_list_of_created threeFiles_discover live_create]
  exact ⟨eq_ok_of_toOption (by decide +kernel), by decide +kernel⟩

/-- The report foretells the run up to the second file. -/
theorem status_agrees_with_run_late :
    Foretells .default liveDatabase threeFiles.fileSystem ⟨"m"⟩ (some 2) lateReport
      (observe liveDatabase
        (ExceptT.run (Engine.run .default threeFiles.fileSystem ⟨"m"⟩ (some 2))) lateStore).state
      ⟨["1_a.sql"], 1, some 2⟩ := by
  obtain ⟨hreport, hstate⟩ := late_report
  obtain ⟨hforetells, -⟩ := status_agrees_with_run (threeFiles_tracks ⟨"m"⟩)
    (live_readsBack .default) hreport
  rw [hstate] at hforetells
  exact hforetells (some 2) _ late_run_value

end SqlMigrations.Proofs
