import SqlMigrations.Proofs.RunAccount

/-!
# Added files

An exchange of a run adds the row of a file if it is a record that succeeds, and no row otherwise.
So the log of a run tells for which files the run itself has added the rows, also when other runs add
rows in between.
-/

namespace SqlMigrations.Proofs

variable {σ : Type}

/-- The file name whose row an exchange adds. -/
def addedFile? (table : TableName) (x : Exchange σ) : Option String :=
  match x.reply with
  | .ok _ => recordedFile? table x
  | .error _ => none

def addedFiles (table : TableName) (log : List (Exchange σ)) : List String :=
  log.filterMap (addedFile? table)

lemma addedFiles_append {table : TableName} {log log' : List (Exchange σ)} :
    addedFiles table (log ++ log') = addedFiles table log ++ addedFiles table log' :=
  List.filterMap_append

lemma addedFiles_cons {table : TableName} {x : Exchange σ} {log : List (Exchange σ)} :
    addedFiles table (x :: log) = (addedFile? table x).toList ++ addedFiles table log := by
  cases hx : addedFile? table x <;> simp [addedFiles, hx]

lemma eq_record_of_recordedFile? {table : TableName} {x : Exchange σ} {f : String}
    (h : recordedFile? table x = some f) : x.call = recordCall table f := by
  unfold recordedFile? at h
  split at h
  · rename_i sql f' hcall
    split at h
    · rename_i hsql
      rw [hcall, hsql, Option.some.inj h]
    · cases h
  · cases h

lemma eq_record_of_addedFile? {table : TableName} {x : Exchange σ} {f : String}
    (h : addedFile? table x = some f) :
    ∃ n before after, x = ⟨recordCall table f, .ok n, before, after⟩ := by
  obtain ⟨call, reply, before, after⟩ := x
  cases reply with
  | error e => cases h
  | ok n =>
    obtain rfl : call = recordCall table f := eq_record_of_recordedFile? h
    exact ⟨n, before, after, rfl⟩

/-- The rows after an exchange are those before it, with the row of the file that it adds. -/
def Appends (table : TableName) (rows : σ → List StoredRow) (x : Exchange σ) : Prop :=
  ∃ added, rows x.after = rows x.before ++ added ∧ names added = (addedFile? table x).toList

section Linked

variable {table : TableName} {db : Database σ} {rows : σ → List StoredRow} {s t : σ}
  {log : List (Exchange σ)}

theorem linked_appends (hl : Linked db s log t) (h : ∀ x ∈ log, Appends table rows x) :
    ∃ added, rows t = rows s ++ added ∧ names added = addedFiles table log := by
  induction log generalizing s with
  | nil =>
    obtain rfl := hl
    exact ⟨[], by simp, rfl⟩
  | cons x log ih =>
    obtain ⟨rfl, -, hrest⟩ := hl
    obtain ⟨added, hadded, hnames⟩ := ih hrest fun y hy => h y (List.mem_cons_of_mem x hy)
    obtain ⟨first, hfirst, hname⟩ := h x List.mem_cons_self
    refine ⟨first ++ added, ?_, ?_⟩
    · rw [hadded, hfirst, List.append_assoc]
    · rw [names_append, hname, hnames, addedFiles_cons]

lemma names_of_linked_appends (hl : Linked db s log t) (h : ∀ x ∈ log, Appends table rows x) :
    names (rows t) = names (rows s) ++ addedFiles table log := by
  obtain ⟨added, hadded, hnames⟩ := linked_appends hl h
  rw [hadded, names_append, hnames]

end Linked

/-- The file name of a migration whose row was added in its block. -/
def Ending.added (ending : Ending) (m : Migration) : List String :=
  match ending with
  | .applied => [m.filename]
  | _ => []

section Run

variable {table : TableName} {db : Database σ} {rows : σ → List StoredRow}
  {bodies : String → Prop} {fs : FileSystem} {dir : Path} {bound : Option UInt64} {s t : σ}
  {summary : RunSummary} {ms : List Migration} {log : List (Exchange σ)}

lemma Block.kind_ne_query {m : Migration} {ending : Ending} (h : Block table fs dir m log ending) :
    ∀ x ∈ log, x.call.kind ≠ .query := by
  cases h <;> simp [Call.kind]

lemma Blocks.kind_ne_query {r : Except EngineError RunSummary}
    (h : Blocks table fs dir summary ms log r) : ∀ x ∈ log, x.call.kind ≠ .query := by
  induction h with
  | done => exact nofun
  | next block _ _ ih =>
    intro x hx
    rcases List.mem_append.mp hx with hx | hx
    · exact block.kind_ne_query x hx
    · exact ih x hx
  | cut block => exact block.kind_ne_query

/-- A run never reads the tracking table as a whole. -/
lemma RunTrace.kind_ne_query {r : Except EngineError RunSummary}
    (h : RunTrace table fs dir bound log r) : ∀ x ∈ log, x.call.kind ≠ .query := by
  cases h with
  | emptyPath | invalidVersion => exact nofun
  | tableCreation | discovery | versionNotFound => simp [Call.kind]
  | blocks _ _ _ _ blocks =>
    intro x hx
    rcases List.mem_cons.mp hx with rfl | hx
    · simp [Call.kind]
    · exact blocks.kind_ne_query x hx

lemma appends_of_kept {x : Exchange σ} (hadded : addedFile? table x = none)
    (hkept : rows x.after = rows x.before) : Appends table rows x := by
  refine ⟨[], ?_, ?_⟩
  · rw [hkept, List.append_nil]
  · rw [hadded]
    rfl

lemma Asks.appends (hdb : Tracks table db rows bodies) (hfail : FailedRecordsKeep table db rows)
    {x : Exchange σ} (h : Asks table bodies x.call) (hkind : x.call.kind ≠ .query)
    (hx : (db x.call).run x.before = (x.reply, x.after)) : Appends table rows x := by
  obtain ⟨call, reply, before, after⟩ := x
  cases h with
  | create =>
    apply appends_of_kept
    · cases reply <;> rfl
    · exact Proofs.rows_after (hdb.create_keeps _) hx
  | check f =>
    apply appends_of_kept
    · cases reply <;> rfl
    · exact Proofs.rows_after (hdb.check_keeps _ _) hx
  | body htext =>
    apply appends_of_kept
    · cases reply <;> rfl
    · exact Proofs.rows_after (hdb.body_keeps _ _ htext) hx
  | readAll => exact absurd rfl hkind
  | record f =>
    cases reply with
    | error e => exact appends_of_kept rfl (hfail _ _ _ _ hx)
    | ok n =>
      obtain ⟨micros, hrows⟩ := hdb.record_appends _ _ _ _ hx
      have hadded : addedFile? table ⟨recordCall table f, .ok n, before, after⟩ = some f := by
        simp [addedFile?, recordedFile?]
      exact ⟨[⟨f, micros⟩], hrows, by rw [hadded]; rfl⟩

/-- Whatever other runs do, an exchange of a run appends no row but the one that it adds. -/
theorem RunTrace.appends (hdb : Tracks table db rows bodies)
    (hfail : FailedRecordsKeep table db rows)
    (hbodies : ∀ text, IsBody fs dir text → bodies text) {r : Except EngineError RunSummary}
    (h : RunTrace table fs dir bound log r) {x : Exchange σ} (hx : x ∈ log)
    (hanswer : (db x.call).run x.before = (x.reply, x.after)) : Appends table rows x :=
  (h.asks x hx).appends (hdb.mono hbodies) hfail (h.kind_ne_query x hx) hanswer

lemma Block.addedFiles_eq {m : Migration} {ending : Ending}
    (h : Block table fs dir m log ending) : addedFiles table log = ending.added m := by
  cases h <;> simp [addedFiles, addedFile?, recordedFile?, List.filterMap, Ending.added]

/-- Blocks add rows for some of their migrations, in order. -/
lemma Blocks.addedFiles_sublist {r : Except EngineError RunSummary}
    (h : Blocks table fs dir summary ms log r) :
    (addedFiles table log).Sublist (ms.map fun m => m.filename) := by
  have hblock : ∀ (ending : Ending) (m : Migration), (ending.added m).Sublist [m.filename] := by
    intro ending m
    unfold Ending.added
    split
    · exact List.Sublist.refl _
    · exact List.nil_sublist _
  induction h with
  | done => exact List.nil_sublist _
  | @next _ _ m ms _ _ ending _ block _ _ ih =>
    rw [addedFiles_append, block.addedFiles_eq, List.map_cons, ← List.singleton_append]
    exact (hblock ending m).append ih
  | @cut _ m ms _ e block =>
    rw [block.addedFiles_eq, List.map_cons, ← List.singleton_append]
    exact (hblock (.failed e) m).trans (List.sublist_append_left _ _)

/-- The summary of blocks that end well lists what they add. -/
lemma Blocks.applied_eq_added {summary' : RunSummary}
    (h : Blocks table fs dir summary ms log (.ok summary')) :
    summary'.applied = summary.applied ++ addedFiles table log := by
  generalize hr : Except.ok summary' = r at h
  induction h with
  | done =>
    obtain rfl := Except.ok.inj hr
    simp [addedFiles]
  | @next _ _ m _ _ _ ending _ block after _ ih =>
    rw [ih hr, addedFiles_append, block.addedFiles_eq]
    cases ending with
    | skipped =>
      rw [← Except.ok.inj after]
      simp [Ending.added]
    | applied =>
      rw [← Except.ok.inj after]
      simp [Ending.added]
    | failed e => cases after
  | cut => cases hr

lemma RunTrace.applied_eq_added (h : RunTrace table fs dir bound log (.ok summary)) :
    summary.applied = addedFiles table log := by
  cases h with
  | blocks _ _ _ _ blocks => exact blocks.applied_eq_added

end Run

end SqlMigrations.Proofs
