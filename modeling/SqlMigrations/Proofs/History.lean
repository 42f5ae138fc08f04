import Mathlib.Tactic.FinCases
import SqlMigrations.Proofs.RunAccount

/-!
# Histories

Runs and reports over one tracking table, one after the other, each with its own files, directory and
bound. Over a whole history every executed body is accounted for: by a row that stays, or by a run
that ended in a failed record.
-/

namespace SqlMigrations.Proofs

variable {σ : Type}

/-- A use of the engine, with all that it reads besides the database. -/
inductive Operation where
  | run (fs : FileSystem) (dir : Path) (bound : Option UInt64)
  | list (fs : FileSystem) (dir : Path)

/-- An operation as it went. -/
inductive Episode (σ : Type) where
  | run (fs : FileSystem) (dir : Path) (bound : Option UInt64)
    (o : Observation σ (Except EngineError RunSummary))
  | list (fs : FileSystem) (dir : Path) (o : Observation σ (Except EngineError StatusReport))

namespace Episode

def log : Episode σ → List (Exchange σ)
  | .run _ _ _ o => o.log
  | .list _ _ o => o.log

def state : Episode σ → σ
  | .run _ _ _ o => o.state
  | .list _ _ o => o.state

/-- The file that a run has executed and failed to record. -/
def unrecorded? : Episode σ → Option String
  | .run _ _ _ o => Proofs.unrecorded? o.value
  | .list .. => none

/-- The report of an episode that ends well. -/
def report? : Episode σ → Option StatusReport
  | .run .. => none
  | .list _ _ o => o.value.toOption

end Episode

def Operation.perform (db : Database σ) (table : TableName) (s : σ) : Operation → Episode σ
  | .run fs dir bound =>
      .run fs dir bound (observe db (ExceptT.run (Engine.run table fs dir bound)) s)
  | .list fs dir => .list fs dir (observe db (ExceptT.run (Engine.list table fs dir)) s)

/-- A text that an operation may execute as a body. -/
def Operation.IsBody : Operation → String → Prop
  | .run fs dir _, text => Proofs.IsBody fs dir text
  | .list .., _ => False

/-- Operations one after the other. -/
def history (db : Database σ) (table : TableName) : List Operation → σ → List (Episode σ)
  | [], _ => []
  | op :: ops, s => op.perform db table s :: history db table ops (op.perform db table s).state

/-- The state that a history leaves. -/
def finalState : σ → List (Episode σ) → σ
  | s, [] => s
  | _, e :: es => finalState e.state es

/-- The states of the database in a history, from the first to the last. -/
def visited (s : σ) (es : List (Episode σ)) : List σ :=
  s :: (es.flatMap Episode.log).map Exchange.after

/-- What one operation does to the tracking table. -/
structure Step (table : TableName) (db : Database σ) (rows : σ → List StoredRow) (s : σ)
    (e : Episode σ) : Prop where
  linked : Linked db s e.log e.state
  adds : Adds table (rows s) (rows e.state) e.log e.unrecorded?
  run : ∀ fs dir bound o, e = .run fs dir bound o →
    Throughout (fun pre x => rows x.after = rows x.before ∨
      ∃ f micros, rows x.after = rows x.before ++ [⟨f, micros⟩] ∧ f ∈ executedFiles table pre) o.log
  text : ∀ fs dir bound o, e = .run fs dir bound o → ∀ f text, (f, text) ∈ executions table o.log →
    fs.readBytes (dir.join ⟨f⟩) = .ok text.toUTF8
  list : ∀ fs dir o, e = .list fs dir o → ∀ x ∈ o.log, rows x.after = rows x.before
  listed : ∀ fs dir o, e = .list fs dir o → ∀ report, o.value = .ok report →
    ∃ ms, Migration.discover fs dir = .ok ms ∧
      report.migrations.map (fun m => m.filename) = ms.map fun m => m.filename
  times : (names (rows s)).Nodup → ∀ report ∈ e.report?, ∀ m ∈ report.migrations,
    m.applied = m.appliedAt.isSome ∧ ∀ t, m.appliedAt = some t ↔ AppliedAt (rows s) m.filename t

section Steps

variable {table : TableName} {db : Database σ} {rows : σ → List StoredRow}
  {bodies : String → Prop}

lemma ListTrace.adds {fs : FileSystem} {dir : Path} {log : List (Exchange σ)}
    {before : List StoredRow} {r : Except EngineError StatusReport}
    (h : ListTrace table fs dir log r) : Adds table before before log none := by
  cases h with
  | emptyPath | tableCreation => exact .nothing rfl (.inl rfl)
  | discovery | query | report => exact .nothing rfl (.inr rfl)

lemma ListTrace.listed {fs : FileSystem} {dir : Path} {log : List (Exchange σ)}
    {report : StatusReport} (h : ListTrace table fs dir log (.ok report)) :
    ∃ ms, Migration.discover fs dir = .ok ms ∧
      report.migrations.map (fun m => m.filename) = ms.map fun m => m.filename := by
  cases h with
  | @report ms _ _ _ _ _ _ _ discovered _ => exact ⟨ms, discovered, by simp [Migration.status]⟩

lemma linked_keeps {log : List (Exchange σ)} {s t : σ} (hl : Linked db s log t)
    (hkeeps : ∀ x ∈ log, rows x.after = rows x.before) : rows t = rows s := by
  induction log generalizing s with
  | nil => rw [hl]
  | cons x log ih =>
    obtain ⟨hbefore, -, hrest⟩ := hl
    rw [ih hrest fun y hy => hkeeps y (List.mem_cons_of_mem x hy), hkeeps x List.mem_cons_self,
      hbefore]

lemma RunTrace.step {fs : FileSystem} {dir : Path} {bound : Option UInt64} {s : σ}
    {o : Observation σ (Except EngineError RunSummary)}
    (hdb : Tracks table db rows (IsBody fs dir)) (hfail : FailedRecordsKeep table db rows)
    (hback : ReadsBack table db rows) (h : RunTrace table fs dir bound o.log o.value)
    (hl : Linked db s o.log o.state) : Step table db rows s (.run fs dir bound o) where
  linked := hl
  adds := h.adds hdb hfail hl
  run := by
    rintro _ _ _ _ ⟨⟩
    exact h.rows_after hdb hfail hback hl
  text := by
    rintro _ _ _ _ ⟨⟩ f text
    exact h.executed_text
  list := by rintro _ _ _ ⟨⟩
  listed := by rintro _ _ _ ⟨⟩
  times := by rintro - _ ⟨⟩

lemma ListTrace.step {fs : FileSystem} {dir : Path} {s : σ}
    {o : Observation σ (Except EngineError StatusReport)} (hdb : Tracks table db rows bodies)
    (hback : ReadsBack table db rows) (h : ListTrace table fs dir o.log o.value)
    (hl : Linked db s o.log o.state) : Step table db rows s (.list fs dir o) where
  linked := hl
  adds := by
    have hrows : rows o.state = rows s := linked_keeps hl (h.rows_after hdb hback hl)
    unfold Episode.state Episode.log Episode.unrecorded?
    rw [hrows]
    exact h.adds
  run := by rintro _ _ _ _ ⟨⟩
  text := by rintro _ _ _ _ ⟨⟩
  list := by
    rintro _ _ _ ⟨⟩
    exact h.rows_after hdb hback hl
  listed := by
    rintro _ _ _ ⟨⟩ report hvalue
    rw [hvalue] at h
    exact h.listed
  times := by
    intro hnodup report hreport
    have hvalue : o.value = .ok report := eq_ok_of_toOption hreport
    rw [hvalue] at h
    exact h.times hdb.create_keeps hback hnodup hl

theorem Operation.perform_step (hdb : Tracks table db rows bodies)
    (hfail : FailedRecordsKeep table db rows) (hback : ReadsBack table db rows) (op : Operation)
    (hbodies : ∀ text, op.IsBody text → bodies text) (s : σ) :
    Step table db rows s (op.perform db table s) := by
  cases op with
  | run fs dir bound =>
    exact (run_yields (observe_yields db _ s)).step (hdb.mono hbodies) hfail hback
      (observe_linked db _ s)
  | list fs dir =>
    exact (list_yields (observe_yields db _ s)).step hdb hback (observe_linked db _ s)

/-- A history is a chain of steps. -/
def Chained (table : TableName) (db : Database σ) (rows : σ → List StoredRow) :
    σ → List (Episode σ) → Prop
  | _, [] => True
  | s, e :: es => Step table db rows s e ∧ Chained table db rows e.state es

theorem history_chained (hdb : Tracks table db rows bodies)
    (hfail : FailedRecordsKeep table db rows) (hback : ReadsBack table db rows)
    {ops : List Operation} (hbodies : ∀ op ∈ ops, ∀ text, op.IsBody text → bodies text) (s : σ) :
    Chained table db rows s (history db table ops s) := by
  induction ops generalizing s with
  | nil => trivial
  | cons op ops ih =>
    refine ⟨op.perform_step hdb hfail hback (hbodies op List.mem_cons_self) s, ?_⟩
    exact ih (fun op' hop' => hbodies op' (List.mem_cons_of_mem op hop')) _

lemma Step.extends {s : σ} {e : Episode σ} (h : Step table db rows s e) :
    ∀ x ∈ e.log, rows x.before <+: rows x.after := by
  intro x hx
  cases e with
  | run fs dir bound o =>
    obtain ⟨pre, post, hlog⟩ := List.append_of_mem hx
    rcases h.run fs dir bound o rfl pre x post hlog with hkept | ⟨f, micros, hrows, -⟩
    · exact hkept ▸ List.prefix_refl _
    · rw [hrows]
      exact List.prefix_append _ _
  | list fs dir o => exact h.list fs dir o rfl x hx ▸ List.prefix_refl _

lemma linked_extends {log : List (Exchange σ)} {s t : σ} (hl : Linked db s log t)
    (hext : ∀ x ∈ log, rows x.before <+: rows x.after) :
    (s :: log.map Exchange.after).Pairwise (fun a b => rows a <+: rows b) ∧
      ∀ v ∈ s :: log.map Exchange.after, rows v <+: rows t := by
  induction log generalizing s with
  | nil =>
    obtain rfl := hl
    simp
  | cons x log ih =>
    obtain ⟨rfl, -, hrest⟩ := hl
    obtain ⟨hpair, hall⟩ := ih hrest fun y hy => hext y (List.mem_cons_of_mem x hy)
    have hx : rows x.before <+: rows x.after := hext x List.mem_cons_self
    have hlater : ∀ v ∈ x.after :: log.map Exchange.after, rows x.before <+: rows v := by
      intro v hv
      rcases List.mem_cons.mp hv with rfl | hv
      · exact hx
      · exact hx.trans (List.rel_of_pairwise_cons hpair hv)
    refine ⟨List.pairwise_cons.mpr ⟨hlater, hpair⟩, fun v hv => ?_⟩
    rcases List.mem_cons.mp hv with rfl | hv
    · exact hx.trans (hall _ List.mem_cons_self)
    · exact hall v hv

namespace Chained

variable {s : σ} {es : List (Episode σ)}

lemma linked (h : Chained table db rows s es) :
    Linked db s (es.flatMap Episode.log) (finalState s es) := by
  induction es generalizing s with
  | nil => rfl
  | cons e es ih => exact linked_append.mpr ⟨e.state, h.1.linked, ih h.2⟩

lemma extends_log (h : Chained table db rows s es) :
    ∀ x ∈ es.flatMap Episode.log, rows x.before <+: rows x.after := by
  induction es generalizing s with
  | nil => exact nofun
  | cons e es ih =>
    intro x hx
    rcases List.mem_append.mp hx with hx | hx
    · exact h.1.extends x hx
    · exact ih h.2 x hx

lemma nodup (h : Chained table db rows s es) (hs : (names (rows s)).Nodup) :
    (names (rows (finalState s es))).Nodup := by
  induction es generalizing s with
  | nil => exact hs
  | cons e es ih => exact ih h.2 (h.1.adds.nodup hs)

/-- Each episode is a step from a state that has kept the rows of the first one. -/
lemma step_of_mem (h : Chained table db rows s es) (hs : (names (rows s)).Nodup) {e : Episode σ}
    (he : e ∈ es) :
    ∃ s', rows s <+: rows s' ∧ (names (rows s')).Nodup ∧ Step table db rows s' e := by
  induction es generalizing s with
  | nil => cases he
  | cons e' es ih =>
    rcases List.mem_cons.mp he with rfl | he
    · exact ⟨s, List.prefix_refl _, hs, h.1⟩
    · obtain ⟨s', hext, hnodup, hstep⟩ := ih h.2 (h.1.adds.nodup hs) he
      obtain ⟨added, hadded, -⟩ := h.1.adds.rows
      exact ⟨s', (List.prefix_append (rows s) added).trans (hadded ▸ hext), hnodup, hstep⟩

lemma accounts (h : Chained table db rows s es) :
    ∃ added, rows (finalState s es) = rows s ++ added ∧ ∀ f,
      (es.flatMap fun e => executedFiles table e.log).count f =
        (names added).count f + (es.filterMap Episode.unrecorded?).count f := by
  induction es generalizing s with
  | nil => exact ⟨[], by simp [finalState], fun f => rfl⟩
  | cons e es ih =>
    obtain ⟨added, hadded, hexecuted⟩ := h.1.adds.rows
    obtain ⟨added', hadded', hcount⟩ := ih h.2
    refine ⟨added ++ added', ?_, fun f => ?_⟩
    · rw [finalState, hadded', hadded, List.append_assoc]
    · have hunrecorded : (e :: es).filterMap Episode.unrecorded? =
          e.unrecorded?.toList ++ es.filterMap Episode.unrecorded? := by
        cases he : e.unrecorded? <;> simp [he]
      rw [List.flatMap_cons, List.count_append, hcount, hexecuted, hunrecorded, names_append,
        List.count_append, List.count_append, List.count_append]
      omega

lemma reports_agree (h : Chained table db rows s es) (hs : (names (rows s)).Nodup) :
    es.Pairwise fun e e' => ∀ report ∈ e.report?, ∀ report' ∈ e'.report?,
      ∀ m ∈ report.migrations, m.applied = true → m.appliedAt.isSome = true ∧
        ∀ m' ∈ report'.migrations, m'.filename = m.filename →
          m'.applied = true ∧ m'.appliedAt = m.appliedAt := by
  induction es generalizing s with
  | nil => exact .nil
  | cons e es ih =>
    refine List.pairwise_cons.mpr ⟨fun e' he' => ?_, ih h.2 (h.1.adds.nodup hs)⟩
    -- The row behind the earlier report is still there, and still the only one of its file.
    intro report hreport report' hreport' m hm happlied
    obtain ⟨s', hext, hnodup, hstep⟩ := h.2.step_of_mem (h.1.adds.nodup hs) he'
    obtain ⟨hsome, htime⟩ := h.1.times hs report hreport m hm
    rw [happlied] at hsome
    obtain ⟨t, ht⟩ := Option.isSome_iff_exists.mp hsome.symm
    refine ⟨hsome.symm, fun m' hm' hname => ?_⟩
    obtain ⟨hsome', htime'⟩ := hstep.times hnodup report' hreport' m' hm'
    obtain ⟨added, hadded, -⟩ := h.1.adds.rows
    have hrow : AppliedAt (rows s') m'.filename t := by
      rw [hname]
      exact ((htime t).mp ht).mono ((List.prefix_append (rows s) added).trans (hadded ▸ hext))
    have ht' : m'.appliedAt = some t := (htime' t).mpr hrow
    exact ⟨by rw [hsome', ht']; rfl, by rw [ht', ht]⟩

end Chained

end Steps

/-- The account of a history. -/
structure Accounted (table : TableName) (rows : σ → List StoredRow) (s : σ)
    (es : List (Episode σ)) : Prop where
  /-- A body that was executed has a row, or its run ended in a failed record. -/
  bodies : ∃ added, rows (finalState s es) = rows s ++ added ∧ ∀ f,
    (es.flatMap fun e => executedFiles table e.log).count f =
      (names added).count f + (es.filterMap Episode.unrecorded?).count f
  /-- What was executed for a file is its content, -/
  text : ∀ fs dir bound o, .run fs dir bound o ∈ es → ∀ f text, (f, text) ∈ executions table o.log →
    fs.readBytes (dir.join ⟨f⟩) = .ok text.toUTF8
  /-- and nothing else was executed but the creation of the table. -/
  batched : ∀ e ∈ es, Batched table e.log
  /-- Rows are only ever appended. -/
  appended : (visited s es).Pairwise fun a b => rows a <+: rows b
  /-- No file ever has two rows. -/
  unique : ∀ v ∈ visited s es, (names (rows v)).Nodup
  /-- A run adds a row only for a body that it has executed before. -/
  run : ∀ fs dir bound o, .run fs dir bound o ∈ es → ∀ pre x post, o.log = pre ++ x :: post →
    rows x.after = rows x.before ∨
      ∃ f micros, rows x.after = rows x.before ++ [⟨f, micros⟩] ∧ f ∈ executedFiles table pre
  /-- A report adds no row. -/
  list : ∀ fs dir o, .list fs dir o ∈ es → ∀ x ∈ o.log, rows x.after = rows x.before
  /-- A report is about the discovered files. -/
  listed : ∀ fs dir o, .list fs dir o ∈ es → ∀ report, o.value = .ok report →
    ∃ ms, Migration.discover fs dir = .ok ms ∧
      report.migrations.map (fun m => m.filename) = ms.map fun m => m.filename
  /-- What is reported as applied has a time, and every later report gives it the same. -/
  reported : es.Pairwise fun e e' => ∀ report ∈ e.report?, ∀ report' ∈ e'.report?,
    ∀ m ∈ report.migrations, m.applied = true → m.appliedAt.isSome = true ∧
      ∀ m' ∈ report'.migrations, m'.filename = m.filename →
        m'.applied = true ∧ m'.appliedAt = m.appliedAt

/-- Every history is accounted for that starts without a file that has two rows. -/
theorem history_accounted {table : TableName} {db : Database σ} {rows : σ → List StoredRow}
    {ops : List Operation} {s : σ}
    (hdb : Tracks table db rows fun text => ∃ op ∈ ops, op.IsBody text)
    (hfail : FailedRecordsKeep table db rows) (hback : ReadsBack table db rows)
    (hstart : (names (rows s)).Nodup) : Accounted table rows s (history db table ops s) := by
  have hchain : Chained table db rows s (history db table ops s) :=
    history_chained hdb hfail hback (fun op hop text htext => ⟨op, hop, htext⟩) s
  obtain ⟨hpair, hkept⟩ := linked_extends hchain.linked hchain.extends_log
  refine ⟨hchain.accounts, ?_, fun e he => ?_, hpair, fun v hv => ?_, ?_, ?_, ?_,
    hchain.reports_agree hstart⟩
  · intro fs dir bound o ho
    obtain ⟨s', -, -, hstep⟩ := hchain.step_of_mem hstart ho
    exact hstep.text fs dir bound o rfl
  · obtain ⟨s', -, -, hstep⟩ := hchain.step_of_mem hstart he
    exact hstep.adds.batched
  · exact (hchain.nodup hstart).sublist ((hkept v hv).sublist.map _)
  · intro fs dir bound o ho
    obtain ⟨s', -, -, hstep⟩ := hchain.step_of_mem hstart ho
    exact hstep.run fs dir bound o rfl
  · intro fs dir o ho
    obtain ⟨s', -, -, hstep⟩ := hchain.step_of_mem hstart ho
    exact hstep.list fs dir o rfl
  · intro fs dir o ho
    obtain ⟨s', -, -, hstep⟩ := hchain.step_of_mem hstart ho
    exact hstep.listed fs dir o rfl

/-- A run up to the second file, a run that fails at the third, and a report. -/
theorem history_accounted_three : Accounted .default (trackedRows .default) lateStore
    (history liveDatabase .default [.run threeFiles.fileSystem ⟨"m"⟩ (some 2),
      .run threeFiles.fileSystem ⟨"m"⟩ none, .list threeFiles.fileSystem ⟨"m"⟩] lateStore) := by
  have hspares : ∀ text, (∃ op ∈ [Operation.run threeFiles.fileSystem ⟨"m"⟩ (some 2),
      .run threeFiles.fileSystem ⟨"m"⟩ none, .list threeFiles.fileSystem ⟨"m"⟩], op.IsBody text) →
      spares .default text = true := by
    rintro text ⟨op, hop, htext⟩
    fin_cases hop
    · exact threeFiles_spare htext
    · exact threeFiles_spare htext
    · exact htext.elim
  exact history_accounted ((live_tracks .default).mono hspares) (live_failedRecordsKeep .default)
    (live_readsBack .default) (by decide +kernel)

end SqlMigrations.Proofs
