import Mathlib.Tactic.FinCases
import SqlMigrations.Database.Live
import SqlMigrations.FileSystem.Memory
import SqlMigrations.Proofs.QueryResults
import SqlMigrations.Proofs.ReportCalls
import SqlMigrations.Proofs.TrackingStatements

/-!
# Tracking in a live store

A live store does what runs and reports rely on, for every tracking table and for every body whose
commands name other tables.
-/

namespace SqlMigrations.Proofs

section Tables

variable {s : Store} {name other : String} {table : Table}

lemma lookup_filter_ne {α : Type} {key key' : String} (h : key' ≠ key) (l : List (String × α)) :
    (l.filter fun entry => entry.1 != key).lookup key' = l.lookup key' := by
  induction l with
  | nil => rfl
  | cons entry l ih =>
    by_cases hentry : entry.1 = key
    · have hne : (key' == entry.1) = false := by simpa [hentry] using h
      rw [List.filter_cons_of_neg (by simpa using hentry), ih, List.lookup_cons, hne]
    · rw [List.filter_cons_of_pos (by simpa using hentry), List.lookup_cons, List.lookup_cons, ih]

@[simp]
lemma table?_setTable : (s.setTable name table).table? name = some table := by
  simp [Store.table?, Store.setTable]

lemma table?_setTable_of_ne (h : Store.lower other ≠ Store.lower name) :
    (s.setTable name table).table? other = s.table? other := by
  have hne : (Store.lower other == Store.lower name) = false := by simpa using h
  simp only [Store.table?, Store.setTable, List.lookup_cons, hne]
  exact lookup_filter_ne h _

lemma rows_eq_ok {rows : List StoredRow} :
    s.rows name = .ok rows ↔ s.table? name = some (.tracking rows) := by
  unfold Store.rows
  cases s.table? name with
  | none => simp
  | some table => cases table <;> simp

lemma insert_eq_ok {filename : String} {now : Int64} {next : Store}
    (h : s.insert name filename now = .ok next) :
    ∃ rows, s.rows name = .ok rows ∧
      next = s.setTable name (.tracking (rows ++ [⟨filename, now⟩])) := by
  unfold Store.insert at h
  cases hrows : s.rows name with
  | error e => simp [hrows, bind, Except.bind] at h
  | ok rows =>
    refine ⟨rows, rfl, ?_⟩
    simp only [hrows, bind, Except.bind] at h
    split at h
    · simp [throw, throwThe, MonadExceptOf.throw] at h
    · exact (Except.ok.inj h).symm

lemma notMem_of_insert {rows : List StoredRow} {filename : String} {now : Int64} {next : Store}
    (h : s.insert name filename now = .ok next) (hrows : s.rows name = .ok rows) :
    filename ∉ names rows := by
  intro hmem
  obtain ⟨row, hrow, hname⟩ := List.mem_map.mp hmem
  have hany : (rows.any fun row => row.filename == filename) = true :=
    List.any_eq_true.mpr ⟨row, hrow, by simpa using hname⟩
  simp [Store.insert, hrows, bind, Except.bind, hany, throw, throwThe, MonadExceptOf.throw] at h

end Tables

/-- The rows of the tracking table, none if the store has no tracking table of that name. -/
def trackedRows (table : TableName) (s : LiveStore) : List StoredRow :=
  match s.store.table? table.text with
  | some (.tracking rows) => rows
  | _ => []

/-- The table whose rows a command may change. -/
def changedTable? : Sql.Command → Option String
  | .select | .createTable _ => none
  | .dropTable name | .deleteFrom name | .insert name _ => some name

/-- Whether the commands of a text leave the rows of a tracking table alone. -/
def spares (table : TableName) (text : String) : Bool :=
  (Sql.statements text.toList).all fun piece =>
    ((Sql.command? piece).bind changedTable?).all fun name =>
      Store.lower table.text != Store.lower name

section Rows

variable {table : TableName} {s next : LiveStore} {name : String}

lemma trackedRows_eq_of_table? {s' : LiveStore}
    (h : s'.store.table? table.text = s.store.table? table.text) :
    trackedRows table s' = trackedRows table s := by
  unfold trackedRows
  rw [h]

lemma trackedRows_of_rows {rows : List StoredRow} (h : s.store.rows table.text = .ok rows) :
    trackedRows table s = rows := by
  unfold trackedRows
  rw [rows_eq_ok.mp h]

lemma trackedRows_of_no_rows {e : StoreError} (h : s.store.rows table.text = .error e) :
    trackedRows table s = [] := by
  unfold trackedRows
  split
  · rename_i rows hrows
    rw [rows_eq_ok.mpr hrows] at h
    cases h
  · rfl

lemma liveInsert_eq_ok {filename : String} (h : s.insert name filename = .ok next) :
    s.store.insert name filename s.clock = .ok next.store := by
  unfold LiveStore.insert at h
  cases hstore : s.store.insert name filename s.clock with
  | error e => simp [hstore, bind, Except.bind] at h
  | ok store =>
    simp only [hstore, bind, Except.bind, pure, Except.pure] at h
    rw [← Except.ok.inj h]

lemma trackedRows_insert {filename : String} (h : s.insert table.text filename = .ok next) :
    trackedRows table next = trackedRows table s ++ [⟨filename, s.clock⟩] := by
  obtain ⟨rows, hrows, hnext⟩ := insert_eq_ok (liveInsert_eq_ok h)
  rw [trackedRows_of_rows hrows, trackedRows_of_rows (rows_eq_ok.mpr (hnext ▸ table?_setTable))]

/-- A table stays what it is, but where there is none an empty one may appear. -/
def KeepsTable (table : TableName) (s t : LiveStore) : Prop :=
  t.store.table? table.text = s.store.table? table.text ∨
    s.store.table? table.text = none ∧
      ∃ found, t.store.table? table.text = some found ∧ found ∈ [.plain, .tracking []]

lemma KeepsTable.refl (table : TableName) (s : LiveStore) : KeepsTable table s s := .inl rfl

lemma KeepsTable.trans {t u : LiveStore} (h : KeepsTable table s t) (h' : KeepsTable table t u) :
    KeepsTable table s u := by
  rcases h with h | ⟨hnone, found, hfound, hempty⟩
  · unfold KeepsTable at h' ⊢
    rwa [h] at h'
  · rcases h' with h' | ⟨hnone', -⟩
    · exact .inr ⟨hnone, found, h'.trans hfound, hempty⟩
    · rw [hfound] at hnone'
      cases hnone'

lemma KeepsTable.trackedRows_eq {t : LiveStore} (h : KeepsTable table s t) :
    trackedRows table t = trackedRows table s := by
  rcases h with h | ⟨hnone, found, hfound, hempty⟩
  · exact trackedRows_eq_of_table? h
  · unfold trackedRows
    rw [hnone, hfound]
    fin_cases hempty <;> rfl

lemma KeepsTable.isSome {t : LiveStore} (h : KeepsTable table s t)
    (hs : (s.store.table? table.text).isSome) : (t.store.table? table.text).isSome := by
  rcases h with h | ⟨hnone, -⟩
  · rwa [h]
  · rw [hnone] at hs
    cases hs

lemma table?_congr {name other : String} (h : Store.lower name = Store.lower other) (s : Store) :
    s.table? name = s.table? other := by
  simp only [Store.table?, h]

/-- A command that names another table, or that only creates one, leaves the table alone. -/
lemma keepsTable_perform {command : Sql.Command}
    (hspares : ∀ name, changedTable? command = some name →
      Store.lower table.text ≠ Store.lower name)
    (h : s.perform command = .ok next) : KeepsTable table s next := by
  cases command with
  | select =>
    rw [← Except.ok.inj h]
    exact .refl table s
  | createTable name =>
    unfold LiveStore.perform Store.createPlain at h
    cases htable : s.store.table? name with
    | some _ => simp [htable, Except.map] at h
    | none =>
      simp only [htable, Except.map, Except.ok.injEq] at h
      rw [← h]
      by_cases heq : Store.lower table.text = Store.lower name
      · refine .inr ⟨(table?_congr heq _).trans htable, .plain, ?_, by simp⟩
        exact (table?_congr heq _).trans table?_setTable
      · exact .inl (table?_setTable_of_ne heq)
  | dropTable name =>
    unfold LiveStore.perform Store.drop at h
    cases htable : s.store.table? name with
    | none => simp [htable, Except.map] at h
    | some _ =>
      simp only [htable, Except.map, Except.ok.injEq] at h
      rw [← h]
      exact .inl (lookup_filter_ne (hspares name rfl) _)
  | deleteFrom name =>
    unfold LiveStore.perform Store.clear at h
    cases htable : s.store.table? name with
    | none => simp [htable, Except.map] at h
    | some found =>
      cases found with
      | plain =>
        simp only [htable, Except.map, Except.ok.injEq] at h
        rw [← h]
        exact .refl table s
      | tracking rows =>
        simp only [htable, Except.map, Except.ok.injEq] at h
        rw [← h]
        exact .inl (table?_setTable_of_ne (hspares name rfl))
  | insert name filename =>
    obtain ⟨rows, -, hnext⟩ := insert_eq_ok (liveInsert_eq_ok h)
    refine .inl ?_
    rw [hnext]
    exact table?_setTable_of_ne (hspares name rfl)

lemma keepsTable_performAll {pieces : List (List Char)}
    (hspares : ∀ piece ∈ pieces, ∀ command, Sql.command? piece = some command →
      ∀ name, changedTable? command = some name → Store.lower table.text ≠ Store.lower name) :
    KeepsTable table s (s.performAll pieces).2 := by
  induction pieces generalizing s with
  | nil => exact .refl table s
  | cons piece pieces ih =>
    have hrest := fun s : LiveStore =>
      ih (s := s) fun p hp => hspares p (List.mem_cons_of_mem piece hp)
    unfold LiveStore.performAll
    cases hcommand : Sql.command? piece with
    | none => exact .refl table s
    | some command =>
      cases hperform : s.perform command with
      | error e =>
        simp only [Option.elim_some, hperform]
        exact .refl table s
      | ok next =>
        simp only [Option.elim_some, hperform]
        exact (keepsTable_perform (hspares piece List.mem_cons_self command hcommand)
          hperform).trans (hrest next)

lemma keepsTable_ensure :
    KeepsTable table s { s with store := s.store.ensureTracking name } := by
  unfold Store.ensureTracking
  cases htable : s.store.table? name with
  | some _ => exact .refl table s
  | none =>
    by_cases heq : Store.lower table.text = Store.lower name
    · refine .inr ⟨(table?_congr heq _).trans htable, .tracking [], ?_, by simp⟩
      exact (table?_congr heq _).trans table?_setTable
    · exact .inl (table?_setTable_of_ne heq)

/-- A batch that spares the tracking table leaves it alone, also when it fails halfway. -/
lemma keepsTable_runBatch {text : String} (h : spares table text = true) :
    KeepsTable table s (s.runBatch text).2 := by
  unfold LiveStore.runBatch
  split
  · exact keepsTable_ensure
  · exact .refl table s
  · apply keepsTable_performAll
    intro piece hpiece command hcommand name hname
    have := List.all_eq_true.mp h piece hpiece
    simpa [hcommand, hname] using this

end Rows

/-- A live store behind its lock, as a database. -/
def liveDatabase : Database LiveStore := fun c s =>
  match (Backend.handler LiveStore.connection c).run.run ⟨s, false⟩ with
  | (.ok reply, b) => (reply, b.connection)
  | (.error .panic, b) => (.error .poisoned, b.connection)

section Database

variable {table : TableName} {s t : LiveStore} {filename : String}

lemma liveDatabase_run (c : Call) :
    (liveDatabase c).run s =
      let answer := (asked LiveStore.connection c).run s
      match worth c answer.1 with
      | .ok reply => (reply, answer.2)
      | .error .panic => (.error .poisoned, answer.2) := by
  change (match (Backend.handler LiveStore.connection c).run.run ⟨s, false⟩ with
    | (.ok reply, b) => (reply, b.connection)
    | (.error .panic, b) => (.error .poisoned, b.connection)) = _
  rw [handler_of_unpoisoned LiveStore.connection c rfl]
  rcases (asked LiveStore.connection c).run s with ⟨_ | _ | _, t⟩ <;> rfl

lemma liveDatabase_executeBatch (sql : String) :
    (liveDatabase (.executeBatch sql)).run s =
      match s.runBatch sql with
      | (.ok value, t) => (.ok value, t)
      | (.error text, t) => (.error (.execution text), t)
      | (.panic, t) => (.error .poisoned, t) := by
  rw [liveDatabase_run]
  simp only [asked, LiveStore.connection, StateT.run]
  rcases s.runBatch sql with ⟨_ | _ | _, t⟩ <;> rfl

lemma liveDatabase_execute (sql : String) (params : List SqlValue) :
    (liveDatabase (.execute sql params)).run s =
      match s.answerExecute sql (params.map SqlValue.toRaw) with
      | (.ok n, t) => (.ok n, t)
      | (.error text, t) => (.error (.execution (Backend.about sql text)), t)
      | (.panic, t) => (.error .poisoned, t) := by
  rw [liveDatabase_run]
  simp only [asked, LiveStore.connection, StateT.run]
  rcases s.answerExecute sql (params.map SqlValue.toRaw) with ⟨_ | _ | _, t⟩ <;> rfl

lemma liveDatabase_queryRow (sql : String) (params : List SqlValue) :
    (liveDatabase (.queryRow sql params)).run s =
      (match s.answerQuery sql (params.map SqlValue.toRaw) with
        | .ok answer => Backend.firstRow answer
        | .error text => .error (.query (Backend.about sql text))
        | .panic => .error .poisoned, s) := by
  rw [liveDatabase_run]
  simp only [asked, LiveStore.connection, StateT.run]
  cases s.answerQuery sql (params.map SqlValue.toRaw) <;> rfl

lemma liveDatabase_query (sql : String) (params : List SqlValue) :
    (liveDatabase (.query sql params)).run s =
      (match s.answerQuery sql (params.map SqlValue.toRaw) with
        | .ok answer => Backend.everyRow answer
        | .error text => .error (.query (Backend.about sql text))
        | .panic => .error .poisoned, s) := by
  rw [liveDatabase_run]
  simp only [asked, LiveStore.connection, StateT.run]
  cases s.answerQuery sql (params.map SqlValue.toRaw) <;> rfl

lemma performAll_ne_panic {pieces : List (List Char)} : (s.performAll pieces).1 ≠ .panic := by
  induction pieces generalizing s with
  | nil => simp [LiveStore.performAll]
  | cons piece pieces ih =>
    unfold LiveStore.performAll
    split
    · exact ih
    · simp

lemma runBatch_ne_panic {sql : String} : (s.runBatch sql).1 ≠ .panic := by
  unfold LiveStore.runBatch
  split
  · simp
  · simp
  · exact performAll_ne_panic

lemma answerExecute_ne_panic {sql : String} {params : List RawValue} :
    (s.answerExecute sql params).1 ≠ .panic := by
  unfold LiveStore.answerExecute
  split
  · split <;> simp
  · simp

lemma answerQuery_ne_panic {sql : String} {params : List RawValue} :
    s.answerQuery sql params ≠ .panic := by
  unfold LiveStore.answerQuery
  split
  · split <;> simp
  · cases s.store.rows _ <;> simp [LiveStore.answer, Except.map]
  · cases s.store.rows _ <;> simp [LiveStore.answer, Except.map]
  · simp

lemma asked_ne_panic (c : Call) : ((asked LiveStore.connection c).run s).1 ≠ .panic := by
  cases c with
  | execute sql params => exact answerExecute_ne_panic
  | executeBatch sql => exact runBatch_ne_panic
  | queryRow sql params => exact answerQuery_ne_panic
  | query sql params => exact answerQuery_ne_panic

/-- No call to a live store panics, so the backend answers as the database does. -/
theorem handler_eq_liveDatabase (c : Call) (s : LiveStore) :
    (Backend.handler LiveStore.connection c).run.run ⟨s, false⟩ =
      (.ok ((liveDatabase c).run s).1, ⟨((liveDatabase c).run s).2, false⟩) := by
  rw [liveDatabase_run, handler_of_unpoisoned LiveStore.connection c rfl]
  rcases hanswer : (asked LiveStore.connection c).run s with ⟨_ | _ | _, t⟩
  · simp only [worth, isPanic]
  · simp only [worth, isPanic]
  · exact absurd (congrArg Prod.fst hanswer) (asked_ne_panic c)

lemma live_create : (liveDatabase (createCall table)).run s =
    (.ok (), { s with store := s.store.ensureTracking table.text }) := by
  rw [liveDatabase_executeBatch]
  unfold LiveStore.runBatch
  rw [createdTracking?_create]

lemma live_record {reply : Except DatabaseError Nat}
    (h : (liveDatabase (recordCall table filename)).run s = (reply, t)) :
    (∃ n, reply = .ok n ∧ s.insert table.text filename = .ok t) ∨
      ∃ e, reply = .error e ∧ t = s := by
  rw [liveDatabase_execute] at h
  unfold LiveStore.answerExecute at h
  rw [insertion?_record] at h
  cases hinsert : s.insert table.text filename with
  | ok next =>
    simp only [List.map_cons, List.map_nil, SqlValue.toRaw, hinsert] at h
    obtain ⟨rfl, rfl⟩ := h
    exact .inl ⟨1, rfl, rfl⟩
  | error e =>
    simp only [List.map_cons, List.map_nil, SqlValue.toRaw, hinsert] at h
    obtain ⟨rfl, rfl⟩ := h
    exact .inr ⟨_, rfl, rfl⟩

lemma count_names (rows : List StoredRow) (f : String) :
    (rows.filter fun row => row.filename == f).length = (names rows).count f := by
  rw [← List.countP_eq_length_filter, names, List.count, List.countP_map]
  rfl

lemma live_check {reply : Option Row}
    (h : (liveDatabase (checkCall table filename)).run s = (.ok reply, t)) :
    ∃ row n, reply = some row ∧ row.getInt 0 = .ok n ∧
      n.toInt = (names (trackedRows table s)).count filename := by
  rw [liveDatabase_queryRow] at h
  have hanswer := (Prod.mk.inj h).1
  unfold LiveStore.answerQuery at hanswer
  rw [query?_check] at hanswer
  cases hrows : s.store.rows table.text with
  | error e => simp [hrows, SqlValue.toRaw, LiveStore.answer, Except.map] at hanswer
  | ok rows =>
    rw [trackedRows_of_rows hrows, ← count_names]
    simp only [hrows, SqlValue.toRaw, LiveStore.answer, Except.map, List.map_cons,
      List.map_nil] at hanswer
    rw [firstRow_cons] at hanswer
    obtain ⟨row, hrow, rfl⟩ := map_eq_ok.mp hanswer
    -- The row holds the count as a word.
    obtain ⟨n, hfirst, hn⟩ := integer_at (i := 0) (rowOfRaw_eq_ok.mp hrow) rfl
    exact ⟨row, n, rfl, getInt_zero.mpr hfirst, hn⟩

/-- A live store tracks, whatever the bodies that spare the tracking table do. -/
theorem live_tracks (table : TableName) :
    Tracks table liveDatabase (trackedRows table) fun text => spares table text = true where
  create_keeps s := by
    rw [live_create]
    exact keepsTable_ensure.trackedRows_eq
  body_keeps text s hspares := by
    have hkeeps := (keepsTable_runBatch (s := s) hspares).trackedRows_eq
    rw [liveDatabase_executeBatch]
    generalize s.runBatch text = answer at hkeeps
    rcases answer with ⟨_ | _ | _, t⟩ <;> exact hkeeps
  check_keeps f s := by rw [liveDatabase_queryRow]
  check_counts f s t reply h := live_check h
  record_appends f s t n h := by
    rcases live_record h with ⟨_, -, hinsert⟩ | ⟨e, he, -⟩
    · exact ⟨s.clock, trackedRows_insert hinsert⟩
    · cases he

theorem live_failedRecordsKeep (table : TableName) :
    FailedRecordsKeep table liveDatabase (trackedRows table) := by
  intro f s t e h
  rcases live_record h with ⟨_, hn, -⟩ | ⟨_, -, rfl⟩
  · cases hn
  · rfl

theorem live_refusesSecond (table : TableName) :
    RefusesSecond table liveDatabase (trackedRows table) := by
  intro f s t n h
  rcases live_record h with ⟨_, -, hinsert⟩ | ⟨e, he, -⟩
  · have hstore := liveInsert_eq_ok hinsert
    obtain ⟨rows, hrows, -⟩ := insert_eq_ok hstore
    rw [trackedRows_of_rows hrows]
    exact notMem_of_insert hstore hrows
  · cases he

lemma fits_count {n : ℕ} (h : n < 2 ^ 63) : Fits (.integer .bigInt n) := by
  have hlow : -(2 : Int) ^ 63 ≤ n := by omega
  have hhigh : (n : Int) < 2 ^ 63 := by omega
  exact ⟨nofun, hlow, hhigh⟩

lemma live_check_answers (h : Counted (names (trackedRows table s)) filename) :
    ∃ reply, ((liveDatabase (checkCall table filename)).run s).1 = .ok reply := by
  rw [liveDatabase_queryRow]
  unfold LiveStore.answerQuery
  rw [query?_check]
  cases hrows : s.store.rows table.text with
  | error e =>
    rw [trackedRows_of_no_rows hrows] at h
    exact absurd h.1 (by simp [names])
  | ok rows =>
    rw [trackedRows_of_rows hrows] at h
    have hfits : ∀ raw ∈ [RawValue.integer .bigInt ((names rows).count filename : ℕ)],
        Fits raw := by
      intro raw hraw
      rw [List.mem_singleton.mp hraw]
      exact fits_count h.2
    obtain ⟨row, hrow⟩ := exists_rowOfRaw.mpr hfits
    simp only [hrows, SqlValue.toRaw, LiveStore.answer, Except.map, List.map_cons, List.map_nil,
      count_names]
    rw [firstRow_cons]
    exact ⟨some row, map_eq_ok.mpr ⟨row, hrow, rfl⟩⟩

theorem live_steady (table : TableName) :
    Steady table liveDatabase (trackedRows table) (fun text => spares table text = true)
      fun s => (s.store.table? table.text).isSome where
  create_makes s t h := by
    rw [live_create] at h
    rw [← (Prod.mk.inj h).2]
    unfold Store.ensureTracking
    cases htable : s.store.table? table.text <;> simp [htable]
  create_again s hs := by
    obtain ⟨found, hfound⟩ := Option.isSome_iff_exists.mp hs
    rw [live_create]
    simp [Store.ensureTracking, hfound]
  check_same f s := by rw [liveDatabase_queryRow]
  check_answers f s _ h := live_check_answers h
  body_leaves text s hspares hs := by
    have hleaves := (keepsTable_runBatch (s := s) hspares).isSome hs
    rw [liveDatabase_executeBatch]
    generalize s.runBatch text = answer at hleaves
    rcases answer with ⟨_ | _ | _, t⟩ <;> exact hleaves
  record_leaves f s hs := by
    obtain ⟨⟨reply, t⟩, h⟩ : ∃ answer, (liveDatabase (recordCall table f)).run s = answer :=
      ⟨_, rfl⟩
    rw [h]
    rcases live_record h with ⟨_, -, hinsert⟩ | ⟨_, -, rfl⟩
    · obtain ⟨rows, -, hnext⟩ := insert_eq_ok (liveInsert_eq_ok hinsert)
      simp [hnext]
    · exact hs

lemma shows_of_ofRaw {stored : StoredRow} {row : Row}
    (h : Row.ofRaw (LiveStore.shown stored) = .ok row) : Shows stored row := by
  obtain ⟨values⟩ := row
  cases rowOfRaw_eq_ok.mp h with
  | cons hname hrest =>
    cases hname
    cases hrest with
    | cons htime hnil =>
      cases hnil
      cases htime with
      | timestamp same => exact ⟨_, instant?_eq_some.mpr same, rfl⟩

theorem live_readsBack (table : TableName) :
    ReadsBack table liveDatabase (trackedRows table) where
  readAll_keeps s := by rw [liveDatabase_query]
  readAll_shows s t reply h := by
    rw [liveDatabase_query] at h
    have hanswer := (Prod.mk.inj h).1
    unfold LiveStore.answerQuery at hanswer
    rw [query?_readAll] at hanswer
    cases hrows : s.store.rows table.text with
    | error e => simp [hrows, LiveStore.answer, Except.map] at hanswer
    | ok rows =>
      simp only [hrows, LiveStore.answer, Except.map, List.map_nil, everyRow_stepped] at hanswer
      rw [trackedRows_of_rows hrows]
      exact (List.forall₂_map_left_iff.mp (mapM_eq_ok.mp hanswer)).imp fun _ _ => shows_of_ofRaw

end Database

/-- Three migrations; no store understands the body of the last. -/
def threeFiles : MemoryFileSystem :=
  ((MemoryFileSystem.empty.addFile ⟨"m/1_a.sql"⟩ "SELECT 1".toUTF8).addFile ⟨"m/2_b.sql"⟩
    "CREATE TABLE b (id INT)".toUTF8).addFile ⟨"m/3_c.sql"⟩ "ALTER TABLE b".toUTF8

/-- A store in which the second of them is recorded. -/
def lateStore : LiveStore :=
  ⟨⟨[("schema_migrations", .tracking [⟨"2_b.sql", 0⟩])]⟩, LiveStore.firstClock⟩

lemma threeFiles_discover : Migration.discover threeFiles.fileSystem ⟨"m"⟩ =
    .ok [⟨1, "a", "1_a.sql"⟩, ⟨2, "b", "2_b.sql"⟩, ⟨3, "c", "3_c.sql"⟩] :=
  discover_of_sorted [⟨"1_a.sql", true⟩, ⟨"2_b.sql", true⟩, ⟨"3_c.sql", true⟩]
    (by decide +kernel) (by decide +kernel) (by decide +kernel) (by decide +kernel)
    (by decide +kernel)

lemma mem_of_readBytes {fs : MemoryFileSystem} {path : Path} {bytes : ByteArray}
    (h : fs.readBytes path = .ok bytes) : bytes ∈ fs.files.map Prod.snd := by
  unfold MemoryFileSystem.readBytes at h
  split at h
  · rename_i content hlookup
    obtain ⟨before, after, hfiles, -⟩ := List.lookup_eq_some_iff.mp hlookup
    rw [hfiles, ← Except.ok.inj h]
    simp
  · cases h

lemma threeFiles_spare {dir : Path} {text : String} (h : IsBody threeFiles.fileSystem dir text) :
    spares .default text = true := by
  obtain ⟨ms, -, m, -, hread⟩ := h
  have hfiles : threeFiles.files.map Prod.snd =
      ["SELECT 1", "CREATE TABLE b (id INT)", "ALTER TABLE b"].map String.toUTF8 := by
    decide +kernel
  have hspares : ∀ text ∈ ["SELECT 1", "CREATE TABLE b (id INT)", "ALTER TABLE b"],
      spares .default text = true := by decide +kernel
  have hmem := mem_of_readBytes hread
  rw [hfiles] at hmem
  obtain ⟨text', htext', hbytes⟩ := List.mem_map.mp hmem
  rw [← String.toByteArray_inj.mp hbytes]
  exact hspares text' htext'

lemma threeFiles_tracks (dir : Path) : Tracks .default liveDatabase (trackedRows .default)
    (IsBody threeFiles.fileSystem dir) :=
  (live_tracks .default).mono fun _ => threeFiles_spare

end SqlMigrations.Proofs
