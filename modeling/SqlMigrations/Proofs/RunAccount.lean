import SqlMigrations.Proofs.RunOutcome

/-!
# The account of an operation

A run executes one body for each row that it adds, and one more if its last record fails. Every
exchange of it either leaves the rows alone or appends the row of a body that the run has executed.
A report leaves them alone throughout.
-/

namespace SqlMigrations.Proofs

variable {σ : Type}

/-- The file that a run has executed and failed to record. -/
def unrecorded? : Except EngineError RunSummary → Option String
  | .error (.record f _) => some f
  | _ => none

lemma eq_record_of_unrecorded? {r : Except EngineError RunSummary} {f : String}
    (h : unrecorded? r = some f) : ∃ cause, r = .error (.record f cause) := by
  unfold unrecorded? at h
  split at h
  · rename_i cause
    exact ⟨cause, by rw [Option.some.inj h]⟩
  · cases h

lemma nodup_append_pending {ms : List Migration} {recorded p : List String}
    (hms : (ms.map fun m => m.filename).Nodup) (hrecorded : recorded.Nodup)
    (hp : p <+: pending ms recorded) : (recorded ++ p).Nodup := by
  have hpending : (recorded ++ pending ms recorded).Nodup := by
    rw [List.nodup_append]
    refine ⟨hrecorded, hms.filter _, ?_⟩
    rintro f hf g hg rfl
    exact (mem_pending.mp hg).2 hf
  exact hpending.sublist ((List.append_sublist_append_left recorded).mpr hp.sublist)

/-- Every batch that succeeds is the creation of the table or the body of a file. -/
def Batched (table : TableName) (log : List (Exchange σ)) : Prop :=
  batches log = (executions table log).map Prod.snd ∨
    batches log = Statement.create.text table :: (executions table log).map Prod.snd

/-- What an operation adds: a row for each body that it executes, but for the last one if that is
unrecorded. -/
structure Adds (table : TableName) (before after : List StoredRow) (log : List (Exchange σ))
    (unrecorded : Option String) : Prop where
  rows : ∃ added, after = before ++ added ∧
    executedFiles table log = names added ++ unrecorded.toList
  batched : Batched table log
  nodup : (names before).Nodup → (names after).Nodup

lemma Adds.nothing {table : TableName} {rows : List StoredRow} {log : List (Exchange σ)}
    (h : executedFiles table log = []) (hbatched : Batched table log) :
    Adds table rows rows log none :=
  ⟨⟨[], by simp, h⟩, hbatched, id⟩

section Run

variable {table : TableName} {db : Database σ} {rows : σ → List StoredRow} {fs : FileSystem}
  {dir : Path} {bound : Option UInt64} {s t : σ} {log : List (Exchange σ)}

lemma Adds.create {before : List StoredRow} (h : log.map Exchange.call = [createCall table]) :
    Adds table before before log none := by
  obtain ⟨⟨call, reply, s₁, s₂⟩, rfl, hcall⟩ := List.map_eq_singleton_iff.mp h
  obtain rfl : call = createCall table := hcall
  cases reply with
  | error e => exact .nothing rfl (.inl rfl)
  | ok u => exact .nothing rfl (.inr rfl)

lemma StopsAt.adds {before after : List StoredRow} {ms : List Migration} {m : Migration}
    {p unrecorded : List String} {failed : Option String} (hfailed : unrecorded = failed.toList)
    (h : StopsAt table fs dir bound before after log ms m p unrecorded) :
    Adds table before after log failed := by
  obtain ⟨added, hadded, hnames⟩ := h.recorded
  refine ⟨⟨added, hadded, by rw [h.executed, hnames, hfailed]⟩, .inr h.batched, fun hbefore => ?_⟩
  rw [hadded, names_append, hnames]
  exact nodup_append_pending (filter_filenames_nodup h.discovered _) hbefore h.isPrefix

lemma Leaves.adds {before after : List StoredRow} {e : EngineError}
    (h : Leaves table fs dir bound before after log e) :
    Adds table before after log (unrecorded? (.error e)) := by
  cases e with
  | emptyPath | invalidVersion =>
    obtain ⟨rfl, rfl⟩ := h
    exact .nothing rfl (.inl rfl)
  | tableCreation | discovery | versionNotFound =>
    obtain ⟨hlog, rfl⟩ := h
    exact .create hlog
  | check | read | execution | record =>
    obtain ⟨ms, m, p, -, hstops⟩ := h
    exact hstops.adds rfl
  | query | invalidTableName => exact h.elim

theorem RunTrace.adds (hdb : Tracks table db rows (IsBody fs dir))
    (hfail : FailedRecordsKeep table db rows) {r : Except EngineError RunSummary}
    (h : RunTrace table fs dir bound log r) (hl : Linked db s log t) :
    Adds table (rows s) (rows t) log (unrecorded? r) := by
  cases r with
  | error e => exact (h.error_effect hdb hfail hl).adds
  | ok summary =>
    obtain ⟨ms, rest, hdisc, ⟨s₁, s₂, rfl⟩, hbatched, hcompleted, added, hadded, hnames⟩ :=
      h.ok_effect hdb hl
    refine ⟨⟨added, hadded, ?_⟩, .inr hbatched, fun hbefore => ?_⟩
    · rw [hnames]
      exact (hcompleted.executed none).trans (List.append_nil _).symm
    · rw [hadded, names_append, hnames]
      exact nodup_append_pending (filter_filenames_nodup hdisc _) hbefore (List.prefix_refl _)

end Run

/-- The calls that an engine makes of a database. -/
inductive Asks (table : TableName) (bodies : String → Prop) : Call → Prop
  | create : Asks table bodies (createCall table)
  | check (f : String) : Asks table bodies (checkCall table f)
  | body {text : String} (h : bodies text) : Asks table bodies (.executeBatch text)
  | record (f : String) : Asks table bodies (recordCall table f)
  | readAll : Asks table bodies (readAllCall table)

section Exchange

variable {table : TableName} {db : Database σ} {rows : σ → List StoredRow}
  {bodies : String → Prop} {fs : FileSystem} {dir : Path} {bound : Option UInt64} {s t : σ}
  {log : List (Exchange σ)}

/-- Only a record changes the rows, and only by its own row at the end. -/
lemma Asks.rows_after (hdb : Tracks table db rows bodies) (hfail : FailedRecordsKeep table db rows)
    (hback : ReadsBack table db rows) {x : Exchange σ} (h : Asks table bodies x.call)
    (hx : (db x.call).run x.before = (x.reply, x.after)) :
    rows x.after = rows x.before ∨ ∃ f micros, x.call = recordCall table f ∧
      rows x.after = rows x.before ++ [⟨f, micros⟩] := by
  obtain ⟨call, reply, before, after⟩ := x
  cases h with
  | create => exact .inl (Proofs.rows_after (hdb.create_keeps _) hx)
  | check f => exact .inl (Proofs.rows_after (hdb.check_keeps _ _) hx)
  | body htext => exact .inl (Proofs.rows_after (hdb.body_keeps _ _ htext) hx)
  | readAll => exact .inl (Proofs.rows_after (hback.readAll_keeps _) hx)
  | record f =>
    cases reply with
    | error e => exact .inl (hfail _ _ _ _ hx)
    | ok n =>
      obtain ⟨micros, hrows⟩ := hdb.record_appends _ _ _ _ hx
      exact .inr ⟨f, micros, rfl, hrows⟩

lemma Block.asks {m : Migration} {ending : Ending} (h : Block table fs dir m log ending)
    (hbodies : ∀ text, fs.readBytes (dir.join ⟨m.filename⟩) = .ok text.toUTF8 → bodies text) :
    ∀ x ∈ log, Asks table bodies x.call := by
  cases h with
  | skipped | checkFailed | undecoded | unread => simp [Asks.check]
  | bodyFailed _ read => simp [Asks.check, Asks.body (hbodies _ read)]
  | applied _ read | recordFailed _ read =>
    simp [Asks.check, Asks.body (hbodies _ read), Asks.record]

lemma Blocks.asks {summary : RunSummary} {ms : List Migration} {r : Except EngineError RunSummary}
    (h : Blocks table fs dir summary ms log r)
    (hbodies : ∀ m ∈ ms, ∀ text, fs.readBytes (dir.join ⟨m.filename⟩) = .ok text.toUTF8 →
      bodies text) : ∀ x ∈ log, Asks table bodies x.call := by
  induction h with
  | done => exact nofun
  | next block _ _ ih =>
    intro x hx
    rcases List.mem_append.mp hx with hx | hx
    · exact block.asks (hbodies _ List.mem_cons_self) x hx
    · exact ih (fun m hm => hbodies m (List.mem_cons_of_mem _ hm)) x hx
  | cut block => exact block.asks (hbodies _ List.mem_cons_self)

lemma RunTrace.asks {r : Except EngineError RunSummary} (h : RunTrace table fs dir bound log r) :
    ∀ x ∈ log, Asks table (IsBody fs dir) x.call := by
  cases h with
  | emptyPath | invalidVersion => exact nofun
  | tableCreation | discovery | versionNotFound => simp [Asks.create]
  | blocks _ _ discovered _ blocks =>
    intro x hx
    rcases List.mem_cons.mp hx with rfl | hx
    · exact .create
    · exact blocks.asks (fun m hm text hread =>
        ⟨_, discovered, m, List.mem_of_mem_filter hm, hread⟩) x hx

/-- A record asks for the file of the body that was executed right before it. -/
lemma RecordFollows.mem_executedFiles {pre : List (Exchange σ)} {x : Exchange σ} {f : String}
    (h : RecordFollows table fs dir pre x) (hx : x.call = recordCall table f) :
    f ∈ executedFiles table pre := by
  obtain ⟨f', reply, text, before, s₁, s₂, s₃, s₄, hcall, -, -, rfl⟩ := h (by rw [hx]; rfl)
  obtain rfl : f' = f := by simpa using hcall.symm.trans hx
  unfold executedFiles executions
  rw [executionsAfter_append, List.map_append]
  apply List.mem_append_right
  simp [executionsAfter, checkedFile?, executedText?]

/-- Every exchange of a run leaves the rows alone, or it appends the row of a file whose body the run
has executed before. -/
theorem RunTrace.rows_after (hdb : Tracks table db rows (IsBody fs dir))
    (hfail : FailedRecordsKeep table db rows) (hback : ReadsBack table db rows)
    {r : Except EngineError RunSummary} (h : RunTrace table fs dir bound log r)
    (hl : Linked db s log t) : Throughout (fun pre x => rows x.after = rows x.before ∨
      ∃ f micros, rows x.after = rows x.before ++ [⟨f, micros⟩] ∧
        f ∈ executedFiles table pre) log := by
  intro pre x post hlog
  have hx : x ∈ log := hlog ▸ List.mem_append_right _ List.mem_cons_self
  rcases (h.asks x hx).rows_after hdb hfail hback (linked_answer hl hx) with
    hkept | ⟨f, micros, hcall, hrows⟩
  · exact .inl hkept
  · exact .inr ⟨f, micros, hrows, (h.record_follows pre x post hlog).mem_executedFiles hcall⟩

lemma ListTrace.rows_after (hdb : Tracks table db rows bodies)
    (hback : ReadsBack table db rows) {r : Except EngineError StatusReport}
    (h : ListTrace table fs dir log r) (hl : Linked db s log t) :
    ∀ x ∈ log, rows x.after = rows x.before := by
  intro x hx
  have hanswer := linked_answer hl hx
  cases h with
  | emptyPath => cases hx
  | tableCreation | discovery =>
    obtain rfl := List.mem_singleton.mp hx
    exact Proofs.rows_after (hdb.create_keeps _) hanswer
  | query | report =>
    rcases List.mem_cons.mp hx with rfl | hx
    · exact Proofs.rows_after (hdb.create_keeps _) hanswer
    · obtain rfl := List.mem_singleton.mp hx
      exact Proofs.rows_after (hback.readAll_keeps _) hanswer

end Exchange

end SqlMigrations.Proofs
