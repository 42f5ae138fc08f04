import Mathlib.Data.List.Pairwise
import SqlMigrations.Proofs.AddedFiles
import SqlMigrations.Proofs.Interleaving
import SqlMigrations.Proofs.RunEquations

/-!
# Concurrent runs

Runs that take turns on one tracking table. Between the check of a file and its record, others may do
anything; what keeps the runs apart is that a file with a row is not recorded again and that a run
ends with a record that fails.
-/

namespace SqlMigrations.Proofs

variable {ι σ : Type}

/-- What a run is started with. -/
structure Request where
  fs : FileSystem
  dir : Path
  bound : Option UInt64

def Request.program (table : TableName) (r : Request) : Program (Except EngineError RunSummary) :=
  ExceptT.run (Engine.run table r.fs r.dir r.bound)

/-- An exchange that fails, if it does, because the file that it would record has a row. -/
def FailsAsSecond (table : TableName) (rows : σ → List StoredRow) (y : Exchange σ) : Prop :=
  y.reply.isOk = false → ∃ f ∈ names (rows y.before), recordedFile? table y = some f

instance {table : TableName} {rows : σ → List StoredRow} {y : Exchange σ} :
    Decidable (FailsAsSecond table rows y) :=
  inferInstanceAs (Decidable (y.reply.isOk = false → _))

section Linked

variable {table : TableName} {db : Database σ} {rows : σ → List StoredRow} {s t : σ}
  {log : List (Exchange σ)}

lemma names_subset_of_linked (hl : Linked db s log t) (h : ∀ y ∈ log, Appends table rows y) :
    names (rows s) ⊆ names (rows t) := by
  rw [names_of_linked_appends hl h]
  exact List.subset_append_left _ _

/-- An exchange meets the rows from the start. -/
lemma names_start_subset (hl : Linked db s log t) (h : ∀ y ∈ log, Appends table rows y)
    {y : Exchange σ} (hy : y ∈ log) : names (rows s) ⊆ names (rows y.before) := by
  obtain ⟨pre, post, rfl⟩ := List.append_of_mem hy
  obtain ⟨u, hpre, rfl, -⟩ := linked_append.mp hl
  exact names_subset_of_linked hpre fun z hz => h z (List.mem_append_left _ hz)

/-- The rows that an exchange meets are there at the end. -/
lemma names_before_subset (hl : Linked db s log t) (h : ∀ y ∈ log, Appends table rows y)
    {y : Exchange σ} (hy : y ∈ log) : names (rows y.before) ⊆ names (rows t) := by
  obtain ⟨pre, post, rfl⟩ := List.append_of_mem hy
  obtain ⟨u, -, hpost⟩ := linked_append.mp hl
  rw [hpost.1]
  exact names_subset_of_linked hpost fun z hz => h z (List.mem_append_right _ hz)

lemma linked_nodup (hunique : RefusesSecond table db rows) (hl : Linked db s log t)
    (h : ∀ y ∈ log, Appends table rows y) (hs : (names (rows s)).Nodup) :
    (names (rows t)).Nodup := by
  induction log generalizing s with
  | nil =>
    obtain rfl := hl
    exact hs
  | cons y log ih =>
    obtain ⟨rfl, hanswer, hrest⟩ := hl
    refine ih hrest (fun z hz => h z (List.mem_cons_of_mem y hz)) ?_
    obtain ⟨added, hadded, hnames⟩ := h y List.mem_cons_self
    rw [hadded, names_append, hnames]
    cases hfile : addedFile? table y with
    | none => simpa using hs
    | some f =>
      obtain ⟨n, before, after, rfl⟩ := eq_record_of_addedFile? hfile
      have hnew : f ∉ names (rows before) := hunique f _ _ n hanswer
      rw [Option.toList_some]
      exact List.nodup_append.mpr ⟨hs, List.nodup_singleton f, fun g hg f' hf' =>
        fun heq => hnew (List.mem_singleton.mp hf' ▸ heq ▸ hg)⟩

end Linked

/-! ### One run among others -/

section Run

variable {table : TableName} {db : Database σ} {rows : σ → List StoredRow}
  {bodies : String → Prop} {fs : FileSystem} {dir : Path} {bound : Option UInt64}
  {summary : RunSummary} {ms : List Migration} {log : List (Exchange σ)} {recorded : List String}

/-- Blocks that end well find each file recorded or record it. -/
lemma Blocks.settles (hdb : Tracks table db rows bodies) {summary' : RunSummary}
    (hanswer : ∀ y ∈ log, (db y.call).run y.before = (y.reply, y.after))
    (hseen : ∀ y ∈ log, names (rows y.before) ⊆ recorded)
    (hadded : addedFiles table log ⊆ recorded)
    (h : Blocks table fs dir summary ms log (.ok summary')) :
    ∀ m ∈ ms, m.filename ∈ recorded := by
  generalize hr : Except.ok summary' = r at h
  induction h with
  | done => exact nofun
  | @next summary summary₁ m ms log log' ending r block after _ ih =>
    rw [addedFiles_append] at hadded
    have hrest := ih (fun y hy => hanswer y (List.mem_append_right _ hy))
      (fun y hy => hseen y (List.mem_append_right _ hy))
      (fun f hf => hadded (List.mem_append_right _ hf)) hr
    have hm : m.filename ∈ recorded := by
      cases block with
      | skipped counted =>
        have hcheck := hanswer _ (List.mem_append_left _ List.mem_cons_self)
        exact hseen _ (List.mem_append_left _ List.mem_cons_self)
          (hdb.mem_of_countsSome hcheck counted)
      | applied uncounted read =>
        apply hadded
        rw [(Block.applied uncounted read).addedFiles_eq]
        exact List.mem_append_left _ List.mem_cons_self
      | checkFailed | undecoded | unread | bodyFailed | recordFailed => cases after
    intro m' hm'
    rcases List.mem_cons.mp hm' with rfl | hm'
    · exact hm
    · exact hrest m' hm'
  | cut => cases hr

lemma RunTrace.settles (hdb : Tracks table db rows bodies)
    (hanswer : ∀ y ∈ log, (db y.call).run y.before = (y.reply, y.after))
    (hseen : ∀ y ∈ log, names (rows y.before) ⊆ recorded)
    (hadded : addedFiles table log ⊆ recorded)
    (h : RunTrace table fs dir bound log (.ok summary)) :
    ∃ ms, Migration.discover fs dir = .ok ms ∧
      ∀ m ∈ ms, Engine.isWithin bound m → m.filename ∈ recorded := by
  cases h with
  | blocks _ _ discovered _ blocks =>
    refine ⟨_, discovered, fun m hm hwithin => ?_⟩
    exact blocks.settles hdb (fun y hy => hanswer y (List.mem_cons_of_mem _ hy))
      (fun y hy => hseen y (List.mem_cons_of_mem _ hy)) hadded m (List.mem_filter.mpr ⟨hm, hwithin⟩)

lemma Block.of_record_failed {m : Migration} {f : String} {cause : DatabaseError}
    (h : Block table fs dir m log (.failed (.record f cause))) :
    f = m.filename ∧ ∃ reply s₁ s₂ s₃ s₄, CountsNone reply ∧
      ⟨checkCall table f, .ok reply, s₁, s₂⟩ ∈ log ∧
      ⟨recordCall table f, .error cause, s₃, s₄⟩ ∈ log := by
  cases h with
  | recordFailed uncounted _ =>
    exact ⟨rfl, _, _, _, _, _, uncounted, List.mem_cons_self,
      List.mem_cons_of_mem _ (List.mem_cons_of_mem _ List.mem_cons_self)⟩

/-- A run that ends with a record has found no row of the file and has added none. -/
lemma RunTrace.of_record_failed (hdb : Tracks table db rows bodies)
    (hanswer : ∀ y ∈ log, (db y.call).run y.before = (y.reply, y.after)) {f : String}
    {cause : DatabaseError} (h : RunTrace table fs dir bound log (.error (.record f cause))) :
    f ∉ addedFiles table log ∧ (∃ y ∈ log, f ∉ names (rows y.before)) ∧
      ∃ before after, ⟨recordCall table f, .error cause, before, after⟩ ∈ log := by
  cases h with
  | @blocks _ _ _ s₁ s₂ _ _ discovered _ blocks =>
    obtain ⟨passed, m, rest, log₁, log₂, _, hsplit, rfl, hpassed, hblock⟩ := blocks.split_error
    obtain ⟨rfl, _, _, _, _, _, huncounted, hcheck, hrecord⟩ := hblock.of_record_failed
    have hlog₂ : ∀ y ∈ log₂, y ∈ ⟨createCall table, .ok (), s₁, s₂⟩ :: (log₁ ++ log₂) :=
      fun y hy => List.mem_cons_of_mem _ (List.mem_append_right _ hy)
    refine ⟨fun hf => ?_, ⟨_, hlog₂ _ hcheck, ?_⟩, _, _, hlog₂ _ hrecord⟩
    · -- It would have added the row for an earlier migration, but none has the same file name.
      have hnodup : ((passed ++ m :: rest).map fun m => m.filename).Nodup :=
        hsplit ▸ filter_filenames_nodup discovered _
      rw [List.map_append, List.map_cons] at hnodup
      rw [addedFiles_cons, addedFiles_append, hblock.addedFiles_eq] at hf
      have hpassed' : m.filename ∈ addedFiles table log₁ := by
        simpa [Ending.added, addedFile?, recordedFile?] using hf
      have hmem : m.filename ∈ passed.map fun m => m.filename :=
        hpassed.addedFiles_sublist.subset hpassed'
      exact (List.nodup_append.mp hnodup).2.2 _ hmem _ List.mem_cons_self rfl
    · exact hdb.notMem_of_countsNone (hanswer _ (hlog₂ _ hcheck)) huncounted

end Run

/-! ### Runs that take turns -/

section Runs

variable [DecidableEq ι] {table : TableName} {db : Database σ} {rows : σ → List StoredRow}
  {requests : ι → Request} {s : σ} {x : Interleaving ι σ (Except EngineError RunSummary)} {i j : ι}

lemma Interleaved.trace_of_done {r : Except EngineError RunSummary}
    (h : Interleaved db (fun i => (requests i).program table) s x) (hi : x.programs i = .done r) :
    RunTrace table (requests i).fs (requests i).dir (requests i).bound (x.logOf i) r := by
  have hend : Reaches ((requests i).program table) (x.logOf i) (.done r) := hi ▸ h.reaches i
  have hyields := hend.yields (.done r)
  rw [List.append_nil] at hyields
  exact run_yields hyields

lemma Interleaved.appends
    (hdb : Tracks table db rows fun text => ∃ i, IsBody (requests i).fs (requests i).dir text)
    (hfail : FailedRecordsKeep table db rows)
    (h : Interleaved db (fun i => (requests i).program table) s x) :
    ∀ y ∈ x.trace.map Prod.snd, Appends table rows y := by
  intro y hy
  obtain ⟨⟨i, y⟩, hiy, rfl⟩ := List.mem_map.mp hy
  obtain ⟨log', r, hyields⟩ := (h.reaches i).exists_yields x.state
  have htrace := run_yields hyields
  exact htrace.appends hdb hfail (fun text htext => ⟨i, htext⟩)
    (List.mem_append_left _ (mem_logOf.mpr hiy)) (linked_answer h.linked hy)

lemma addedFiles_logOf_sublist (i : ι) :
    (addedFiles table (x.logOf i)).Sublist (addedFiles table (x.trace.map Prod.snd)) :=
  (List.filter_sublist.map Prod.snd).filterMap _

lemma mem_addedFiles_trace {f : String} :
    f ∈ addedFiles table (x.trace.map Prod.snd) ↔ ∃ i, f ∈ addedFiles table (x.logOf i) := by
  constructor
  · intro hf
    obtain ⟨y, hy, hadded⟩ := List.mem_filterMap.mp hf
    obtain ⟨⟨i, y⟩, hiy, rfl⟩ := List.mem_map.mp hy
    exact ⟨i, List.mem_filterMap.mpr ⟨y, mem_logOf.mpr hiy, hadded⟩⟩
  · rintro ⟨i, hf⟩
    exact (addedFiles_logOf_sublist i).subset hf

/-- If no file is added twice, no two programs add one. -/
lemma addedFiles_disjoint (hnodup : (addedFiles table (x.trace.map Prod.snd)).Nodup)
    (hij : i ≠ j) : (addedFiles table (x.logOf i)).Disjoint (addedFiles table (x.logOf j)) := by
  intro f hi hj
  obtain ⟨y, hy, hfy⟩ := List.mem_filterMap.mp hi
  obtain ⟨z, hz, hfz⟩ := List.mem_filterMap.mp hj
  have hsymm : Std.Symm fun a b : ι × Exchange σ => ∀ f, addedFile? table a.2 = some f →
      ∀ g, addedFile? table b.2 = some g → f ≠ g :=
    ⟨fun a b hab f hf g hg => (hab g hg f hf).symm⟩
  have hpairs : x.trace.Pairwise fun a b : ι × Exchange σ => ∀ f, addedFile? table a.2 = some f →
      ∀ g, addedFile? table b.2 = some g → f ≠ g := by
    unfold addedFiles at hnodup
    rw [List.filterMap_map] at hnodup
    exact List.pairwise_filterMap.mp hnodup
  have hne : (i, y) ≠ (j, z) := fun heq => hij (Prod.mk.inj heq).1
  exact hpairs.forall (mem_logOf.mp hy) (mem_logOf.mp hz) hne f hfy f hfz rfl

/-- A run that ends well reports the rows that it has added and leaves each file within its bound
with a row. -/
lemma Interleaved.settles
    (hdb : Tracks table db rows fun text => ∃ i, IsBody (requests i).fs (requests i).dir text)
    (hfail : FailedRecordsKeep table db rows)
    (h : Interleaved db (fun i => (requests i).program table) s x) {summary : RunSummary}
    (hi : x.programs i = .done (.ok summary)) :
    summary.applied = addedFiles table (x.logOf i) ∧
      ∃ ms, Migration.discover (requests i).fs (requests i).dir = .ok ms ∧
        ∀ m ∈ ms, Engine.isWithin (requests i).bound m → m.filename ∈ names (rows x.state) := by
  have htrace := h.trace_of_done hi
  have happends := h.appends hdb hfail
  have hseen : ∀ y ∈ x.logOf i, names (rows y.before) ⊆ names (rows x.state) := fun y hy =>
    names_before_subset h.linked happends (mem_trace_of_logOf hy)
  have hadded : addedFiles table (x.logOf i) ⊆ names (rows x.state) := by
    intro f hf
    rw [names_of_linked_appends h.linked happends]
    exact List.mem_append_right _ ((addedFiles_logOf_sublist i).subset hf)
  exact ⟨htrace.applied_eq_added, htrace.settles hdb (fun y hy => h.answer hy) hseen hadded⟩

/-- Where calls fail only because a file has a row, a run whose record fails comes after another one
that has added the row. -/
lemma Interleaved.forestalled
    (hdb : Tracks table db rows fun text => ∃ i, IsBody (requests i).fs (requests i).dir text)
    (hfail : FailedRecordsKeep table db rows)
    (h : Interleaved db (fun i => (requests i).program table) s x)
    (hclash : ∀ y ∈ x.trace, FailsAsSecond table rows y.2) {f : String} {cause : DatabaseError}
    (hi : x.programs i = .done (.error (.record f cause))) :
    ∃ pre before after post,
      x.trace = pre ++ (i, ⟨recordCall table f, .error cause, before, after⟩) :: post ∧
      ∃ j, j ≠ i ∧ ∃ z, (j, z) ∈ pre ∧ addedFile? table z = some f := by
  have hlinked := h.linked
  have happends := h.appends hdb hfail
  obtain ⟨hnot, ⟨y, hy, hunseen⟩, before, after, hrecord⟩ :=
    (h.trace_of_done hi).of_record_failed hdb fun y hy => h.answer hy
  have hstart : f ∉ names (rows s) := fun hf =>
    hunseen (names_start_subset hlinked happends (mem_trace_of_logOf hy) hf)
  have hmem : f ∈ names (rows before) := by
    obtain ⟨f', hf', hfile⟩ := hclash _ (mem_logOf.mp hrecord) rfl
    have hcall := eq_record_of_recordedFile? hfile
    obtain rfl : f = f' := by simpa using hcall
    exact hf'
  obtain ⟨pre, post, hsplit⟩ := List.append_of_mem (mem_logOf.mp hrecord)
  rw [hsplit, List.map_append] at hlinked happends
  obtain ⟨u, hpre, rfl, -⟩ := linked_append.mp hlinked
  -- The file had no row when this run checked it, let alone at the start, so one was added since.
  rw [names_of_linked_appends hpre fun z hz => happends z (List.mem_append_left _ hz)] at hmem
  obtain ⟨z, hz, hadds⟩ := List.mem_filterMap.mp ((List.mem_append.mp hmem).resolve_left hstart)
  obtain ⟨⟨j, z⟩, hjz, rfl⟩ := List.mem_map.mp hz
  refine ⟨pre, before, after, post, hsplit, j, ?_, z, hjz, hadds⟩
  rintro rfl
  exact hnot (List.mem_filterMap.mpr
    ⟨z, mem_logOf.mpr (hsplit ▸ List.mem_append_left _ hjz), hadds⟩)

/-- Runs that take turns in any order on one tracking table, each with its own directory and bound.
No file gets a second row; each row that is added is added by one run, and the rows that a run adds
are what it reports if it ends well. A run that ends well leaves every file within its bound with a
row. Where calls fail only because a file has a row, a run that ends with a record that fails has been
forestalled by another one. -/
theorem concurrent_runs_disjoint
    (hdb : Tracks table db rows fun text => ∃ i, IsBody (requests i).fs (requests i).dir text)
    (hfail : FailedRecordsKeep table db rows) (hunique : RefusesSecond table db rows)
    (hnodup : (names (rows s)).Nodup) (schedule : List ι) :
    let x := interleave db (fun i => (requests i).program table) s schedule
    let recorded := fun i => addedFiles table (x.logOf i)
    (names (rows x.state)).Nodup ∧
    (∃ added, rows x.state = rows s ++ added ∧ (∀ i, (recorded i).Sublist (names added)) ∧
      ∀ f, f ∈ names added ↔ ∃ i, f ∈ recorded i) ∧
    (∀ i j, i ≠ j → (recorded i).Disjoint (recorded j)) ∧
    (∀ i summary, x.programs i = .done (.ok summary) → summary.applied = recorded i ∧
      ∃ ms, Migration.discover (requests i).fs (requests i).dir = .ok ms ∧
        ∀ m ∈ ms, Engine.isWithin (requests i).bound m → m.filename ∈ names (rows x.state)) ∧
    ((∀ y ∈ x.trace, FailsAsSecond table rows y.2) →
      ∀ i f cause, x.programs i = .done (.error (.record f cause)) →
        ∃ pre before after post,
          x.trace = pre ++ (i, ⟨recordCall table f, .error cause, before, after⟩) :: post ∧
          ∃ j, j ≠ i ∧ ∃ z, (j, z) ∈ pre ∧ addedFile? table z = some f) := by
  intro x recorded
  have hx : Interleaved db (fun i => (requests i).program table) s x :=
    interleaved_interleave db _ s schedule
  have happends := hx.appends hdb hfail
  have hend : (names (rows x.state)).Nodup := linked_nodup hunique hx.linked happends hnodup
  obtain ⟨added, hadded, hnames⟩ := linked_appends hx.linked happends
  refine ⟨hend, ⟨added, hadded, fun i => hnames ▸ addedFiles_logOf_sublist i, fun f => ?_⟩, ?_,
    fun i summary hi => hx.settles hdb hfail hi,
    fun hclash i f cause hi => hx.forestalled hdb hfail hclash hi⟩
  · rw [hnames]
    exact mem_addedFiles_trace
  · intro i j hij
    apply addedFiles_disjoint _ hij
    rw [hadded, names_append, hnames] at hend
    exact (List.nodup_append.mp hend).2.1

end Runs

/-- The file that a program has executed and failed to record. -/
def leftUnrecorded? : Program (Except EngineError RunSummary) → Option String
  | .done r => unrecorded? r
  | .call .. => none

lemma eq_done_of_leftUnrecorded? {p : Program (Except EngineError RunSummary)} {f : String}
    (h : leftUnrecorded? p = some f) : ∃ cause, p = .done (.error (.record f cause)) := by
  cases p with
  | done r =>
    obtain ⟨cause, rfl⟩ := eq_record_of_unrecorded? h
    exact ⟨cause, rfl⟩
  | call => cases h

/-- Two runs of the three files up to the second. -/
def twoRuns : Bool → Request := fun _ => ⟨threeFiles.fileSystem, ⟨"m"⟩, some 2⟩

/-- Both create the table, check the first file, execute it and record it. -/
def sideBySide : List Bool := [false, true, false, true, false, true, false, true]

lemma sideBySide_lost :
    let x := interleave liveDatabase (fun i => (twoRuns i).program .default) lateStore sideBySide
    leftUnrecorded? (x.programs true) = some "1_a.sql" ∧
      ∀ y ∈ x.trace, FailsAsSecond .default (trackedRows .default) y.2 := by
  have hschedule : sideBySide = false :: true :: [false, true, false, true, false, true] := rfl
  have hprograms : (fun i => (twoRuns i).program .default) = fun _ =>
      ExceptT.run (Engine.run .default threeFiles.fileSystem ⟨"m"⟩ (some 2)) := rfl
  rw [hschedule, hprograms, run_eq_call threeFiles_discover (by decide) (checkBound_eq_ok.mp rfl),
    interleave_cons, turn_of_answer rfl live_create, List.foldl_cons,
    turn_of_answer rfl live_create]
  exact ⟨by decide +kernel, by decide +kernel⟩

/-- The run that comes second with its record has been forestalled by the other one. -/
theorem concurrent_runs_disjoint_two :
    let x := interleave liveDatabase (fun i => (twoRuns i).program .default) lateStore sideBySide
    (names (trackedRows .default x.state)).Nodup ∧
      "1_a.sql" ∈ addedFiles .default (x.logOf false) := by
  have hbodies : ∀ text, (∃ i, IsBody (twoRuns i).fs (twoRuns i).dir text) →
      IsBody threeFiles.fileSystem ⟨"m"⟩ text := fun _ ⟨_, htext⟩ => htext
  have hstart : (names (trackedRows .default lateStore)).Nodup := by decide +kernel
  obtain ⟨hlost, hclash⟩ := sideBySide_lost
  obtain ⟨cause, hdone⟩ := eq_done_of_leftUnrecorded? hlost
  obtain ⟨hnodup, -, -, -, hforestalled⟩ := concurrent_runs_disjoint
    ((threeFiles_tracks ⟨"m"⟩).mono hbodies) (live_failedRecordsKeep .default)
    (live_refusesSecond .default) hstart sideBySide
  obtain ⟨pre, before, after, post, htrace, j, hj, z, hz, hadds⟩ :=
    hforestalled hclash true "1_a.sql" cause hdone
  have hother : j = false := by simpa using hj
  subst hother
  exact ⟨hnodup, List.mem_filterMap.mpr
    ⟨z, mem_logOf.mpr (htrace ▸ List.mem_append_left _ hz), hadds⟩⟩

end SqlMigrations.Proofs
