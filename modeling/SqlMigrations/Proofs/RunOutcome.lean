import Mathlib.Data.List.Nodup
import SqlMigrations.Proofs.LiveTracking
import SqlMigrations.Proofs.RunEquations

/-!
# What a run leaves

A run that ends well has recorded every migration within its bound, and lists the ones that it
applied. A run that fails has recorded a beginning of its pending files; what it executed beyond them
depends on the error.
-/

namespace SqlMigrations.Proofs

variable {σ : Type}

section Within

variable {ms : List Migration} {bound : Option UInt64}

lemma isWithin_of_lt {m m' : Migration} (hm : Engine.isWithin bound m = true)
    (h : m'.version < m.version) : Engine.isWithin bound m' = true := by
  cases bound with
  | none => rfl
  | some target =>
    simp only [Engine.isWithin, decide_eq_true_eq] at hm ⊢
    exact UInt64.le_of_lt (UInt64.lt_of_lt_of_le h hm)

lemma mem_of_lt_split {m m' : Migration} {passed rest : List Migration}
    (hasc : (passed ++ m :: rest).Pairwise fun a b => a.version < b.version)
    (hm' : m' ∈ passed ++ m :: rest) (h : m'.version < m.version) : m' ∈ passed := by
  rcases List.mem_append.mp hm' with hm' | hm'
  · exact hm'
  · have htail := (List.pairwise_append.mp hasc).2.1
    rcases List.mem_cons.mp hm' with rfl | hm'
    · exact absurd h (UInt64.lt_irrefl _)
    · exact absurd (UInt64.lt_trans h (List.rel_of_pairwise_cons htail hm')) (UInt64.lt_irrefl _)

lemma filename_notMem_of_lt {fs : FileSystem} {dir : Path} {m m' : Migration}
    {passed rest : List Migration} (hdisc : Migration.discover fs dir = .ok ms)
    (hsub : (passed ++ m :: rest).Sublist ms) (hm' : m' ∈ ms) (h : m.version < m'.version) :
    m'.filename ∉ (passed ++ [m]).map fun m => m.filename := by
  intro hmem
  obtain ⟨m'', hm'', hname⟩ := List.mem_map.mp hmem
  have hms : m'' ∈ ms := by
    apply hsub.subset
    rcases List.mem_append.mp hm'' with hm'' | hm''
    · exact List.mem_append_left _ hm''
    · exact List.mem_append_right _ (List.mem_singleton.mp hm'' ▸ List.mem_cons_self)
  obtain rfl := eq_of_filename hdisc hms hm' hname
  have hasc := (discover_ascending hdisc).sublist hsub
  rcases List.mem_append.mp hm'' with hm'' | hm''
  · have hlt := (List.pairwise_append.mp hasc).2.2 m'' hm'' m List.mem_cons_self
    exact UInt64.lt_irrefl _ (UInt64.lt_trans h hlt)
  · obtain rfl := List.mem_singleton.mp hm''
    exact UInt64.lt_irrefl _ h

end Within

lemma mem_pending {ms : List Migration} {recorded : List String} {f : String} :
    f ∈ pending ms recorded ↔ (∃ m ∈ ms, m.filename = f) ∧ f ∉ recorded := by
  simp [pending]

lemma mem_map_of_mem_pending {ms : List Migration} {recorded : List String} {f : String}
    (h : f ∈ pending ms recorded) : f ∈ ms.map fun m => m.filename :=
  List.mem_map.mpr (mem_pending.mp h).1

lemma mem_recorded_or_pending {ms : List Migration} {recorded : List String} {m : Migration}
    (hm : m ∈ ms) : m.filename ∈ recorded ++ pending ms recorded := by
  rw [List.mem_append, mem_pending]
  by_cases h : m.filename ∈ recorded
  · exact .inl h
  · exact .inr ⟨⟨m, hm, rfl⟩, h⟩

section Run

variable {table : TableName} {db : Database σ} {rows : σ → List StoredRow} {fs : FileSystem}
  {dir : Path} {bound : Option UInt64} {s t : σ} {log : List (Exchange σ)}

lemma RunTrace.ok_effect (hdb : Tracks table db rows (IsBody fs dir)) {summary : RunSummary}
    (h : RunTrace table fs dir bound log (.ok summary)) (hl : Linked db s log t) :
    ∃ ms rest, Migration.discover fs dir = .ok ms ∧
      (∃ s₁ s₂, log = ⟨createCall table, .ok (), s₁, s₂⟩ :: rest) ∧
      batches log = Statement.create.text table :: (executions table log).map Prod.snd ∧
      Completed table fs dir { stoppedAt := bound } summary (ms.filter (Engine.isWithin bound)) rest
        (pending (ms.filter (Engine.isWithin bound)) (names (rows s))) ∧
      ∃ added, rows t = rows s ++ added ∧
        names added = pending (ms.filter (Engine.isWithin bound)) (names (rows s)) := by
  cases h with
  | @blocks ms rest _ s₁ s₂ _ _ discovered _ blocks =>
    obtain ⟨rfl, hcreate, hrest⟩ := hl
    obtain ⟨hcompleted, added, hadded, hnames⟩ := blocks.completed hdb
      (fun m hm text hread => ⟨ms, discovered, m, List.mem_of_mem_filter hm, hread⟩)
      (filter_filenames_nodup discovered _) hrest
    rw [rows_after (hdb.create_keeps _) hcreate] at hcompleted hadded hnames
    exact ⟨ms, rest, discovered, ⟨_, _, rfl⟩, congrArg (_ :: ·) (blocks.batches_eq none),
      hcompleted, added, hadded, hnames⟩

lemma RunTrace.executed_text {r : Except EngineError RunSummary}
    (h : RunTrace table fs dir bound log r) {f text : String}
    (hp : (f, text) ∈ executions table log) : fs.readBytes (dir.join ⟨f⟩) = .ok text.toUTF8 := by
  cases h with
  | emptyPath | invalidVersion | tableCreation | discovery | versionNotFound => cases hp
  | blocks _ _ _ _ blocks => exact blocks.executed_text none hp

/-- Where a run has stopped that fails at a migration: those before it have passed, the ones after it
are untouched, and of the executed bodies all but `unrecorded` are recorded. -/
structure StopsAt (table : TableName) (fs : FileSystem) (dir : Path) (bound : Option UInt64)
    (before after : List StoredRow) (log : List (Exchange σ)) (ms : List Migration) (m : Migration)
    (p unrecorded : List String) : Prop where
  discovered : Migration.discover fs dir = .ok ms
  mem : m ∈ ms.filter (Engine.isWithin bound)
  recorded : ∃ added, after = before ++ added ∧ names added = p
  isPrefix : p <+: pending (ms.filter (Engine.isWithin bound)) (names before)
  notMem : m.filename ∉ p
  earlier : ∀ m' ∈ ms, m'.version < m.version → m'.filename ∈ names after
  later : ∀ m' ∈ ms, m.version < m'.version → m'.filename ∉ checkedFiles table log ∧
    m'.filename ∉ executedFiles table log ∧ m'.filename ∉ recordedFiles table log
  executed : executedFiles table log = p ++ unrecorded
  batched : batches log = Statement.create.text table :: (executions table log).map Prod.snd
  text : ∀ f text, (f, text) ∈ executions table log →
    fs.readBytes (dir.join ⟨f⟩) = .ok text.toUTF8

/-- What the log of blocks that end well shows when a failing block follows them. -/
lemma Completed.log_of_failed {summary summary' : RunSummary} {passed : List Migration}
    {m : Migration} {log₁ log₂ : List (Exchange σ)} {p : List String} {e : EngineError}
    (h : Completed table fs dir summary summary' passed log₁ p)
    (hblock : Block table fs dir m log₂ (.failed e)) :
    checkedFiles table (log₁ ++ log₂) = (passed ++ [m]).map (fun m => m.filename) ∧
      executedFiles table (log₁ ++ log₂) = p ++ (Ending.failed e).executed m ∧
      recordedFiles table (log₁ ++ log₂) = p ++ (Ending.failed e).executed m := by
  refine ⟨?_, ?_, ?_⟩
  · rw [checkedFiles_append, h.checked, hblock.checkedFiles_eq, List.map_append]
    rfl
  · unfold executedFiles executions
    rw [executionsAfter_append, List.map_append, h.executed, hblock.executed_eq]
  · rw [recordedFiles_append, h.recorded, hblock.recordedFiles_eq]

/-- After the table is created, blocks that end in an error stop a run at the migration of the last
one. -/
lemma Blocks.stopsAt (hdb : Tracks table db rows (IsBody fs dir))
    (hfail : FailedRecordsKeep table db rows) {ms : List Migration} {summary : RunSummary}
    {e : EngineError} (hdisc : Migration.discover fs dir = .ok ms)
    (h : Blocks table fs dir summary (ms.filter (Engine.isWithin bound)) log (.error e))
    (hl : Linked db s log t) (s₀ : σ) :
    ∃ m, ∃ log₂ : List (Exchange σ), ∃ p, Block table fs dir m log₂ (.failed e) ∧
      StopsAt table fs dir bound (rows s) (rows t)
        (⟨createCall table, .ok (), s₀, s⟩ :: log) ms m p ((Ending.failed e).executed m) := by
  have hbatched := h.batches_eq none
  have htext : ∀ f text, (f, text) ∈ executions table log →
      fs.readBytes (dir.join ⟨f⟩) = .ok text.toUTF8 := fun f text hp => h.executed_text none hp
  obtain ⟨passed, m, rest, log₁, log₂, summary', hsplit, rfl, hpassed, hblock⟩ := h.split_error
  obtain ⟨u, hl₁, hl₂⟩ := linked_append.mp hl
  have hsub : (passed ++ m :: rest).Sublist ms := hsplit ▸ List.filter_sublist
  have hm : m ∈ ms.filter (Engine.isWithin bound) :=
    hsplit ▸ List.mem_append_right _ List.mem_cons_self
  have hbodies : ∀ m' ∈ passed ++ m :: rest, ∀ text,
      fs.readBytes (dir.join ⟨m'.filename⟩) = .ok text.toUTF8 → IsBody fs dir text :=
    fun m' hm' text hread => ⟨ms, hdisc, m', hsub.subset hm', hread⟩
  have hnodup := (discover_filenames_nodup hdisc).sublist (hsub.map fun m => m.filename)
  obtain ⟨hcompleted, added, hadded, hnames⟩ := hpassed.completed hdb
    (fun m' hm' => hbodies m' (List.mem_append_left _ hm'))
    (hnodup.sublist ((List.sublist_append_left _ _).map _)) hl₁
  have hkept := hblock.rows_of_failed hdb hfail
    (hbodies m (List.mem_append_right _ List.mem_cons_self)) hl₂
  obtain ⟨hchecked, hexecuted, hrecorded⟩ := hcompleted.log_of_failed hblock
  refine ⟨m, log₂, _, hblock, hdisc, hm, ⟨added, by rw [hkept, hadded], hnames⟩, ?_, ?_, ?_, ?_,
    hexecuted, congrArg (_ :: ·) hbatched, htext⟩
  · rw [hsplit, pending_append]
    exact List.prefix_append _ _
  · intro hmem
    rw [List.map_append, List.map_cons] at hnodup
    exact (List.nodup_append.mp hnodup).2.2 _ (mem_map_of_mem_pending hmem) _ List.mem_cons_self rfl
  · intro m' hm' hlt
    have hwithin : m' ∈ passed ++ m :: rest := by
      rw [← hsplit, List.mem_filter]
      exact ⟨hm', isWithin_of_lt (List.mem_filter.mp hm).2 hlt⟩
    rw [hkept, hadded, names_append, hnames]
    exact mem_recorded_or_pending
      (mem_of_lt_split ((discover_ascending hdisc).sublist hsub) hwithin hlt)
  · intro m' hm' hlt
    -- What is executed or recorded has been checked, so one fact covers all three.
    have hunchecked := filename_notMem_of_lt hdisc hsub hm' hlt
    have hunexecuted : m'.filename ∉
        pending passed (names (rows s)) ++ (Ending.failed e).executed m := by
      intro h
      apply hunchecked
      rw [List.map_append]
      rcases List.mem_append.mp h with h | h
      · exact List.mem_append_left _ (mem_map_of_mem_pending h)
      · exact List.mem_append_right _ (Ending.eq_of_mem_executed h ▸ List.mem_singleton_self _)
    exact ⟨hchecked ▸ hunchecked, hexecuted ▸ hunexecuted, hrecorded ▸ hunexecuted⟩

/-- A run that ends well has applied what was not recorded among the migrations within its bound, in
ascending order and each with a row of its own, and has skipped the others of them. -/
theorem run_ok_applies_pending (hdb : Tracks table db rows (IsBody fs dir)) {summary : RunSummary}
    (h : (observe db (ExceptT.run (Engine.run table fs dir bound)) s).value = .ok summary) :
    let o := observe db (ExceptT.run (Engine.run table fs dir bound)) s
    ∃ ms, Migration.discover fs dir = .ok ms ∧
      let due := ms.filter (Engine.isWithin bound)
      due.Pairwise (fun a b => a.version < b.version) ∧
      (∃ added, rows o.state = rows s ++ added ∧ names added = summary.applied) ∧
      summary.applied = pending due (names (rows s)) ∧
      summary.applied.length + summary.skipped = due.length ∧
      (∀ m ∈ due, m.filename ∈ names (rows o.state)) ∧
      checkedFiles table o.log = due.map (fun m => m.filename) ∧
      executedFiles table o.log = summary.applied ∧
      recordedFiles table o.log = summary.applied ∧
      batches o.log = Statement.create.text table :: (executions table o.log).map Prod.snd ∧
      (∀ f text, (f, text) ∈ executions table o.log →
        fs.readBytes (dir.join ⟨f⟩) = .ok text.toUTF8) ∧
      (∀ m ∈ ms, ∀ target, bound = some target → target < m.version →
        m.filename ∉ executedFiles table o.log ∧ m.filename ∉ recordedFiles table o.log) ∧
      summary.stoppedAt = bound := by
  intro o
  have htrace : RunTrace table fs dir bound o.log (.ok summary) :=
    h ▸ run_yields (observe_yields db _ s)
  obtain ⟨ms, rest, hdisc, ⟨s₁, s₂, hlog⟩, hbatched, hcompleted, added, hadded, hnames⟩ :=
    htrace.ok_effect hdb (observe_linked db _ s)
  have happlied : summary.applied = pending (ms.filter (Engine.isWithin bound)) (names (rows s)) :=
    hcompleted.applied_eq
  have hlength : summary.applied.length + summary.skipped =
      (ms.filter (Engine.isWithin bound)).length := by
    have hskipped := hcompleted.skipped_eq
    rw [← happlied] at hskipped
    simpa using hskipped
  have hexecuted : executedFiles table o.log = summary.applied := by
    rw [hlog, happlied]
    exact hcompleted.executed none
  have hrecorded : recordedFiles table o.log = summary.applied := by
    rw [hlog, happlied]
    exact hcompleted.recorded
  refine ⟨ms, hdisc, (discover_ascending hdisc).filter _, ⟨added, hadded, happlied ▸ hnames⟩,
    happlied, hlength, ?_, ?_, hexecuted, hrecorded, hbatched, fun f text => htrace.executed_text,
    ?_, hcompleted.stoppedAt_eq⟩
  · intro m hm
    rw [hadded, names_append, hnames]
    exact mem_recorded_or_pending hm
  · rw [hlog]
    exact hcompleted.checked
  · intro m hm target hbound hlt
    rw [hexecuted, hrecorded, happlied, and_self, mem_pending]
    rintro ⟨⟨m', hm', hname⟩, -⟩
    obtain ⟨hm', hwithin⟩ := List.mem_filter.mp hm'
    obtain rfl := eq_of_filename hdisc hm' hm hname
    simp only [hbound, Engine.isWithin, decide_eq_true_eq] at hwithin
    exact UInt64.lt_irrefl _ (UInt64.lt_of_lt_of_le hlt hwithin)

lemma late_run_value : (observe liveDatabase
    (ExceptT.run (Engine.run .default threeFiles.fileSystem ⟨"m"⟩ (some 2))) lateStore).value =
      .ok ⟨["1_a.sql"], 1, some 2⟩ := by
  apply eq_ok_of_toOption
  rw [observe_run_of_created threeFiles_discover (by decide) (checkBound_eq_ok.mp rfl) live_create]
  decide +kernel

/-- A late file: its version lies below the one that is recorded. -/
theorem run_ok_applies_pending_late :
    let o := observe liveDatabase
      (ExceptT.run (Engine.run .default threeFiles.fileSystem ⟨"m"⟩ (some 2))) lateStore
    ∃ added, trackedRows .default o.state = trackedRows .default lateStore ++ added ∧
      names added = ["1_a.sql"] := by
  obtain ⟨ms, -, -, hadded, -⟩ := run_ok_applies_pending (threeFiles_tracks ⟨"m"⟩) late_run_value
  exact hadded

/-- What a run that fails does and leaves, by its error. For an empty directory and the bound zero it
calls nothing; without its table, its migrations or its bound it only creates the table; and else it
stops at the migration that the error names. Only a record that fails leaves an executed body without
a row. -/
def Leaves (table : TableName) (fs : FileSystem) (dir : Path) (bound : Option UInt64)
    (before after : List StoredRow) (log : List (Exchange σ)) : EngineError → Prop
  | .emptyPath | .invalidVersion _ => log = [] ∧ after = before
  | .tableCreation .. | .discovery _ | .versionNotFound _ =>
    log.map Exchange.call = [createCall table] ∧ after = before
  | .check f _ | .read f _ | .execution f _ => ∃ ms m p, m.filename = f ∧
    StopsAt table fs dir bound before after log ms m p []
  | .record f _ => ∃ ms m p, m.filename = f ∧ StopsAt table fs dir bound before after log ms m p [f]
  | .query .. | .invalidTableName _ => False

lemma RunTrace.error_effect (hdb : Tracks table db rows (IsBody fs dir))
    (hfail : FailedRecordsKeep table db rows) {e : EngineError}
    (h : RunTrace table fs dir bound log (.error e)) (hl : Linked db s log t) :
    Leaves table fs dir bound (rows s) (rows t) log e := by
  generalize hr : Except.error e = r at h
  cases h with
  | emptyPath | invalidVersion =>
    obtain rfl := Except.error.inj hr
    exact ⟨rfl, congrArg rows hl⟩
  | tableCreation | discovery | versionNotFound =>
    obtain rfl := Except.error.inj hr
    obtain ⟨rfl, hcreate, rfl⟩ := hl
    exact ⟨rfl, rows_after (hdb.create_keeps _) hcreate⟩
  | @blocks ms rest _ s₁ s₂ _ _ discovered _ blocks =>
    obtain rfl := hr
    obtain ⟨rfl, hcreate, hrest⟩ := hl
    obtain ⟨m, log₂, p, hblock, hstops⟩ := blocks.stopsAt hdb hfail discovered hrest s₁
    rw [rows_after (hdb.create_keeps _) hcreate] at hstops
    cases hblock with
    | checkFailed | undecoded | unread | bodyFailed | recordFailed =>
      exact ⟨ms, m, p, rfl, hstops⟩

/-- A run that fails leaves a beginning of its pending files recorded, as its error tells. -/
theorem run_error_leaves_beginning (hdb : Tracks table db rows (IsBody fs dir))
    (hfail : FailedRecordsKeep table db rows) {e : EngineError}
    (h : (observe db (ExceptT.run (Engine.run table fs dir bound)) s).value = .error e) :
    let o := observe db (ExceptT.run (Engine.run table fs dir bound)) s
    Leaves table fs dir bound (rows s) (rows o.state) o.log e := by
  intro o
  have htrace : RunTrace table fs dir bound o.log (.error e) :=
    h ▸ run_yields (observe_yields db _ s)
  exact htrace.error_effect hdb hfail (observe_linked db _ s)

end Run

/-- The file whose body has ended a run. -/
def failedBody? : Except EngineError RunSummary → Option String
  | .error (.execution f _) => some f
  | _ => none

lemma eq_execution_of_failedBody? {r : Except EngineError RunSummary} {f : String}
    (h : failedBody? r = some f) : ∃ cause, r = .error (.execution f cause) := by
  unfold failedBody? at h
  split at h
  · rename_i cause
    exact ⟨cause, by rw [Option.some.inj h]⟩
  · cases h

lemma third_run_value : ∃ cause, (observe liveDatabase
    (ExceptT.run (Engine.run .default threeFiles.fileSystem ⟨"m"⟩ none)) lateStore).value =
      .error (.execution "3_c.sql" cause) := by
  apply eq_execution_of_failedBody?
  rw [observe_run_of_created threeFiles_discover (by decide) (checkBound_eq_ok.mp rfl) live_create]
  decide +kernel

/-- The body of the third file fails. -/
theorem run_error_leaves_beginning_third :
    let o := observe liveDatabase
      (ExceptT.run (Engine.run .default threeFiles.fileSystem ⟨"m"⟩ none)) lateStore
    ∃ ms m p, m.filename = "3_c.sql" ∧ StopsAt .default threeFiles.fileSystem ⟨"m"⟩ none
      (trackedRows .default lateStore) (trackedRows .default o.state) o.log ms m p [] := by
  obtain ⟨cause, hcause⟩ := third_run_value
  exact run_error_leaves_beginning (threeFiles_tracks ⟨"m"⟩) (live_failedRecordsKeep .default)
    hcause

end SqlMigrations.Proofs
