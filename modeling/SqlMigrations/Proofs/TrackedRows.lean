import SqlMigrations.Database.Store
import SqlMigrations.Proofs.RunLog

/-!
# Tracked rows

What a run relies on of a database, seen through the rows of the tracking table, and what the blocks
of a run do to these rows. The database is otherwise arbitrary: any call may fail in any state.
-/

namespace SqlMigrations.Proofs

variable {σ : Type}

/-- The file names of rows, in order. -/
def names (rows : List StoredRow) : List String := rows.map StoredRow.filename

/-- A text that a run may execute as a body: that of a discovered migration. -/
def IsBody (fs : FileSystem) (dir : Path) (text : String) : Prop :=
  ∃ ms, Migration.discover fs dir = .ok ms ∧
    ∃ m ∈ ms, fs.readBytes (dir.join ⟨m.filename⟩) = .ok text.toUTF8

/-- A database with a tracking table. `rows` are the rows of the table in a state, none if it is
absent; `bodies` are texts that do not touch them. -/
structure Tracks (table : TableName) (db : Database σ) (rows : σ → List StoredRow)
    (bodies : String → Prop) : Prop where
  create_keeps : ∀ s, rows ((db (createCall table)).run s).2 = rows s
  body_keeps : ∀ text s, bodies text → rows ((db (.executeBatch text)).run s).2 = rows s
  check_keeps : ∀ f s, rows ((db (checkCall table f)).run s).2 = rows s
  check_counts : ∀ f s t reply, (db (checkCall table f)).run s = (.ok reply, t) →
    ∃ row n, reply = some row ∧ row.getInt 0 = .ok n ∧ n.toInt = (names (rows s)).count f
  record_appends : ∀ f s t n, (db (recordCall table f)).run s = (.ok n, t) →
    ∃ micros, rows t = rows s ++ [⟨f, micros⟩]

lemma Tracks.mono {table : TableName} {db : Database σ} {rows : σ → List StoredRow}
    {bodies bodies' : String → Prop} (h : Tracks table db rows bodies)
    (hbodies : ∀ text, bodies' text → bodies text) : Tracks table db rows bodies' :=
  { h with body_keeps := fun text s htext => h.body_keeps text s (hbodies text htext) }

/-- A record that fails leaves the rows alone. -/
def FailedRecordsKeep (table : TableName) (db : Database σ) (rows : σ → List StoredRow) : Prop :=
  ∀ f s t e, (db (recordCall table f)).run s = (.error e, t) → rows t = rows s

/-- A file that has a row is not recorded again. -/
def RefusesSecond (table : TableName) (db : Database σ) (rows : σ → List StoredRow) : Prop :=
  ∀ f s t n, (db (recordCall table f)).run s = (.ok n, t) → f ∉ names (rows s)

/-- A file has rows, and no more than a check can count. -/
def Counted (recorded : List String) (f : String) : Prop :=
  0 < recorded.count f ∧ recorded.count f < 2 ^ 63

/-- A database that leaves a tracking table in place: to create it again changes nothing, and neither
does a check, which answers for every file on record. `present` tells the states with the table. -/
structure Steady (table : TableName) (db : Database σ) (rows : σ → List StoredRow)
    (bodies : String → Prop) (present : σ → Prop) : Prop where
  create_makes : ∀ s t, (db (createCall table)).run s = (.ok (), t) → present t
  create_again : ∀ s, present s → (db (createCall table)).run s = (.ok (), s)
  check_same : ∀ f s, ((db (checkCall table f)).run s).2 = s
  check_answers : ∀ f s, present s → Counted (names (rows s)) f →
    ∃ reply, ((db (checkCall table f)).run s).1 = .ok reply
  body_leaves : ∀ text s, bodies text → present s → present ((db (.executeBatch text)).run s).2
  record_leaves : ∀ f s, present s → present ((db (recordCall table f)).run s).2

lemma Steady.mono {table : TableName} {db : Database σ} {rows : σ → List StoredRow}
    {bodies bodies' : String → Prop} {present : σ → Prop}
    (h : Steady table db rows bodies present) (hbodies : ∀ text, bodies' text → bodies text) :
    Steady table db rows bodies' present :=
  { h with body_leaves := fun text s htext => h.body_leaves text s (hbodies text htext) }

/-- The file names of migrations that are not among the recorded ones, in order. -/
def pending (ms : List Migration) (recorded : List String) : List String :=
  (ms.map fun m => m.filename).filter fun f => f ∉ recorded

lemma names_append (rows rows' : List StoredRow) :
    names (rows ++ rows') = names rows ++ names rows' :=
  List.map_append

lemma pending_cons_of_mem {m : Migration} {ms : List Migration} {recorded : List String}
    (h : m.filename ∈ recorded) : pending (m :: ms) recorded = pending ms recorded := by
  simp [pending, h]

lemma pending_cons_of_notMem {m : Migration} {ms : List Migration} {recorded : List String}
    (h : m.filename ∉ recorded) (hm : m.filename ∉ ms.map fun m => m.filename) :
    pending (m :: ms) recorded = m.filename :: pending ms (recorded ++ [m.filename]) := by
  have htail : pending ms (recorded ++ [m.filename]) = pending ms recorded := by
    unfold pending
    refine List.filter_congr fun f hf => ?_
    have hne : f ≠ m.filename := fun heq => hm (heq ▸ hf)
    simp [hne]
  rw [htail]
  simp [pending, h]

lemma pending_append {ms ms' : List Migration} {recorded : List String} :
    pending (ms ++ ms') recorded = pending ms recorded ++ pending ms' recorded := by
  simp [pending]

section Blocks

variable {table : TableName} {db : Database σ} {rows : σ → List StoredRow} {bodies : String → Prop}
  {fs : FileSystem} {dir : Path} {m : Migration} {log : List (Exchange σ)} {s t : σ}

lemma Tracks.mem_of_countsSome (hdb : Tracks table db rows bodies) {f : String}
    {reply : Option Row} (h : (db (checkCall table f)).run s = (.ok reply, t))
    (hsome : CountsSome reply) : f ∈ names (rows s) := by
  obtain ⟨row, n, rfl, hn, hcount⟩ := hdb.check_counts f s t reply h
  obtain ⟨row', n', hrow, hn', hpos⟩ := hsome
  obtain rfl := Option.some.inj hrow
  rw [getInt_zero, hn'] at hn
  obtain rfl : n' = n := by simpa using hn
  rw [Int64.lt_iff_toInt_lt, hcount] at hpos
  exact List.count_pos_iff.mp (by simpa using hpos)

lemma Tracks.notMem_of_countsNone (hdb : Tracks table db rows bodies) {f : String}
    {reply : Option Row} (h : (db (checkCall table f)).run s = (.ok reply, t))
    (hnone : CountsNone reply) : f ∉ names (rows s) := by
  obtain ⟨row, n, rfl, hn, hcount⟩ := hdb.check_counts f s t reply h
  rcases hnone with hrow | ⟨row', n', hrow, hn', hle⟩
  · cases hrow
  · obtain rfl := Option.some.inj hrow
    rw [getInt_zero, hn'] at hn
    obtain rfl : n' = n := by simpa using hn
    rw [Int64.le_iff_toInt_le, hcount] at hle
    refine List.count_eq_zero.mp ?_
    simpa using hle

lemma rows_after {c : Call} {reply : Except DatabaseError c.Reply}
    (hkeeps : rows ((db c).run s).2 = rows s) (h : (db c).run s = (reply, t)) :
    rows t = rows s := by
  rw [← hkeeps, h]

lemma Block.rows_of_skipped (hdb : Tracks table db rows bodies)
    (h : Block table fs dir m log .skipped) (hl : Linked db s log t) :
    m.filename ∈ names (rows s) ∧ rows t = rows s := by
  cases h with
  | skipped counted =>
    obtain ⟨rfl, hcheck, rfl⟩ := hl
    exact ⟨hdb.mem_of_countsSome hcheck counted, rows_after (hdb.check_keeps _ _) hcheck⟩

lemma Block.rows_of_applied (hdb : Tracks table db rows bodies)
    (hbodies : ∀ text, fs.readBytes (dir.join ⟨m.filename⟩) = .ok text.toUTF8 → bodies text)
    (h : Block table fs dir m log .applied) (hl : Linked db s log t) :
    m.filename ∉ names (rows s) ∧ ∃ micros, rows t = rows s ++ [⟨m.filename, micros⟩] := by
  cases h with
  | applied uncounted read =>
    obtain ⟨rfl, hcheck, rfl, hbody, rfl, hrecord, rfl⟩ := hl
    refine ⟨hdb.notMem_of_countsNone hcheck uncounted, ?_⟩
    obtain ⟨micros, hrows⟩ := hdb.record_appends _ _ _ _ hrecord
    rw [rows_after (hdb.body_keeps _ _ (hbodies _ read)) hbody,
      rows_after (hdb.check_keeps _ _) hcheck] at hrows
    exact ⟨micros, hrows⟩

lemma Block.rows_of_failed (hdb : Tracks table db rows bodies)
    (hfail : FailedRecordsKeep table db rows)
    (hbodies : ∀ text, fs.readBytes (dir.join ⟨m.filename⟩) = .ok text.toUTF8 → bodies text)
    {e : EngineError} (h : Block table fs dir m log (.failed e)) (hl : Linked db s log t) :
    rows t = rows s := by
  cases h with
  | checkFailed | undecoded | unread =>
    obtain ⟨rfl, hcheck, rfl⟩ := hl
    exact rows_after (hdb.check_keeps _ _) hcheck
  | bodyFailed _ read =>
    obtain ⟨rfl, hcheck, rfl, hbody, rfl⟩ := hl
    rw [rows_after (hdb.body_keeps _ _ (hbodies _ read)) hbody,
      rows_after (hdb.check_keeps _ _) hcheck]
  | recordFailed _ read =>
    obtain ⟨rfl, hcheck, rfl, hbody, rfl, hrecord, rfl⟩ := hl
    rw [hfail _ _ _ _ hrecord, rows_after (hdb.body_keeps _ _ (hbodies _ read)) hbody,
      rows_after (hdb.check_keeps _ _) hcheck]

/-- Blocks that all end well apply the pending files, and append a row for each of them. -/
theorem Blocks.completed (hdb : Tracks table db rows bodies) {ms : List Migration}
    {summary summary' : RunSummary}
    (hbodies : ∀ m ∈ ms, ∀ text, fs.readBytes (dir.join ⟨m.filename⟩) = .ok text.toUTF8 →
      bodies text)
    (hms : (ms.map fun m => m.filename).Nodup)
    (h : Blocks table fs dir summary ms log (.ok summary')) (hl : Linked db s log t) :
    Completed table fs dir summary summary' ms log (pending ms (names (rows s))) ∧
      ∃ added, rows t = rows s ++ added ∧ names added = pending ms (names (rows s)) := by
  generalize hr : Except.ok summary' = r at h
  -- Each block is judged by the rows that the ones before it have left.
  induction h generalizing s with
  | done summary =>
    obtain rfl := Except.ok.inj hr
    obtain rfl := hl
    refine ⟨⟨?_, ?_, rfl, rfl, rfl, fun _ => rfl⟩, [], by simp, rfl⟩
    · simp [pending]
    · simp [pending]
  | @next summary summary₁ m ms log log' ending r block after rest ih =>
    obtain ⟨u, hl₁, hl₂⟩ := linked_append.mp hl
    obtain ⟨hm, hms⟩ := List.nodup_cons.mp hms
    have hrest := ih (s := u) (fun m' hm' => hbodies m' (List.mem_cons_of_mem m hm')) hms hl₂ hr
    cases ending with
    | skipped =>
      obtain ⟨hmem, hrows⟩ := block.rows_of_skipped hdb hl₁
      obtain ⟨hcompleted, added, hadded, hnames⟩ := hrest
      rw [hrows] at hcompleted hadded hnames
      rw [pending_cons_of_mem hmem]
      exact ⟨hcompleted.cons block after, added, hadded, hnames⟩
    | applied =>
      obtain ⟨hnot, micros, hrows⟩ :=
        block.rows_of_applied hdb (hbodies m List.mem_cons_self) hl₁
      obtain ⟨hcompleted, added, hadded, hnames⟩ := hrest
      rw [hrows, names_append] at hcompleted hnames
      rw [pending_cons_of_notMem hnot hm]
      refine ⟨hcompleted.cons block after, ⟨m.filename, micros⟩ :: added, ?_, ?_⟩
      · rw [hadded, hrows, List.append_assoc]
        rfl
      · change m.filename :: names added = _
        rw [hnames]
        rfl
    | failed e => cases after
  | cut => cases hr

end Blocks

end SqlMigrations.Proofs
