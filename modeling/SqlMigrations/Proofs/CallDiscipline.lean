import SqlMigrations.Proofs.DiscoveryOrder
import SqlMigrations.Proofs.Observation

/-!
# The calls of a run

Whatever a database answers, a run creates the tracking table and then makes one block of calls for
each migration in ascending order: a check, the body if the check counts no row, and the record if
the body succeeds. The first failure is the last call.
-/

namespace SqlMigrations.Proofs

variable {σ : Type}

abbrev createCall (table : TableName) : Call := .executeBatch (Statement.create.text table)

abbrev checkCall (table : TableName) (filename : String) : Call :=
  .queryRow (Statement.check.text table) [.text filename]

abbrev recordCall (table : TableName) (filename : String) : Call :=
  .execute (Statement.record.text table) [.text filename]

/-- The reply to a check starts with a positive integer. -/
def CountsSome (reply : Option Row) : Prop :=
  ∃ row n, reply = some row ∧ row.values[0]? = some (.int n) ∧ 0 < n

/-- The reply to a check has no row, or one that starts with an integer that is not positive. -/
def CountsNone (reply : Option Row) : Prop :=
  reply = none ∨ ∃ row n, reply = some row ∧ row.values[0]? = some (.int n) ∧ n ≤ 0

/-- How the calls about one migration end. -/
inductive Ending where
  | skipped
  | applied
  | failed (e : EngineError)

/-- What a summary becomes by the calls about a migration. -/
def Ending.after (ending : Ending) (summary : RunSummary) (m : Migration) :
    Except EngineError RunSummary :=
  match ending with
  | .skipped => .ok { summary with skipped := summary.skipped + 1 }
  | .applied => .ok { summary with applied := summary.applied ++ [m.filename] }
  | .failed e => .error e

/-- The exchanges about one migration. -/
inductive Block (table : TableName) (fs : FileSystem) (dir : Path) (m : Migration) :
    List (Exchange σ) → Ending → Prop
  | skipped {reply : Option Row} {s₁ s₂ : σ} (counted : CountsSome reply) :
      Block table fs dir m [⟨checkCall table m.filename, .ok reply, s₁, s₂⟩] .skipped
  | applied {reply : Option Row} {body : String} {n : Nat} {s₁ s₂ s₃ s₄ s₅ s₆ : σ}
      (uncounted : CountsNone reply)
      (read : fs.readBytes (dir.join ⟨m.filename⟩) = .ok body.toUTF8) :
      Block table fs dir m [⟨checkCall table m.filename, .ok reply, s₁, s₂⟩,
        ⟨.executeBatch body, .ok (), s₃, s₄⟩, ⟨recordCall table m.filename, .ok n, s₅, s₆⟩] .applied
  | checkFailed {e : DatabaseError} {s₁ s₂ : σ} :
      Block table fs dir m [⟨checkCall table m.filename, .error e, s₁, s₂⟩]
        (.failed (.check m.filename e))
  | undecoded {reply : Option Row} {e : DatabaseError} {s₁ s₂ : σ}
      (undecoded : TableName.countsRow reply = .error e) :
      Block table fs dir m [⟨checkCall table m.filename, .ok reply, s₁, s₂⟩]
        (.failed (.check m.filename e))
  | unread {reply : Option Row} {e : IoError} {s₁ s₂ : σ} (uncounted : CountsNone reply)
      (unread : fs.readText (dir.join ⟨m.filename⟩) = .error e) :
      Block table fs dir m [⟨checkCall table m.filename, .ok reply, s₁, s₂⟩]
        (.failed (.read m.filename e))
  | bodyFailed {reply : Option Row} {body : String} {e : DatabaseError} {s₁ s₂ s₃ s₄ : σ}
      (uncounted : CountsNone reply)
      (read : fs.readBytes (dir.join ⟨m.filename⟩) = .ok body.toUTF8) :
      Block table fs dir m [⟨checkCall table m.filename, .ok reply, s₁, s₂⟩,
        ⟨.executeBatch body, .error e, s₃, s₄⟩] (.failed (.execution m.filename e))
  | recordFailed {reply : Option Row} {body : String} {e : DatabaseError} {s₁ s₂ s₃ s₄ s₅ s₆ : σ}
      (uncounted : CountsNone reply)
      (read : fs.readBytes (dir.join ⟨m.filename⟩) = .ok body.toUTF8) :
      Block table fs dir m [⟨checkCall table m.filename, .ok reply, s₁, s₂⟩,
        ⟨.executeBatch body, .ok (), s₃, s₄⟩, ⟨recordCall table m.filename, .error e, s₅, s₆⟩]
        (.failed (.record m.filename e))

/-- One block after the other, cut off at the first one that fails. -/
inductive Blocks (table : TableName) (fs : FileSystem) (dir : Path) :
    RunSummary → List Migration → List (Exchange σ) → Except EngineError RunSummary → Prop
  | done (summary : RunSummary) : Blocks table fs dir summary [] [] (.ok summary)
  | next {summary summary' : RunSummary} {m : Migration} {ms : List Migration}
      {log log' : List (Exchange σ)} {ending : Ending} {r : Except EngineError RunSummary}
      (block : Block table fs dir m log ending) (after : ending.after summary m = .ok summary')
      (rest : Blocks table fs dir summary' ms log' r) :
      Blocks table fs dir summary (m :: ms) (log ++ log') r
  | cut {summary : RunSummary} {m : Migration} {ms : List Migration} {log : List (Exchange σ)}
      {e : EngineError} (block : Block table fs dir m log (.failed e)) :
      Blocks table fs dir summary (m :: ms) log (.error e)

lemma getInt_zero {row : Row} {n : Int64} :
    row.getInt 0 = .ok n ↔ row.values[0]? = some (.int n) := by
  unfold Row.getInt Row.get
  cases row.values[0]? with
  | none => simp [bind, Except.bind]
  | some value => cases value <;> simp [bind, Except.bind]

lemma countsRow_eq_true {reply : Option Row} :
    TableName.countsRow reply = .ok true ↔ CountsSome reply := by
  unfold TableName.countsRow CountsSome
  cases reply with
  | none => simp
  | some row =>
    simp only [Option.some.injEq, exists_and_left, exists_eq_left', ← getInt_zero]
    cases row.getInt 0 <;> simp [Except.map]

lemma countsRow_eq_false {reply : Option Row} :
    TableName.countsRow reply = .ok false ↔ CountsNone reply := by
  unfold TableName.countsRow CountsNone
  cases reply with
  | none => simp
  | some row =>
    simp only [Option.some.injEq, exists_and_left, exists_eq_left', ← getInt_zero]
    cases row.getInt 0 <;> simp [Except.map, Int64.not_lt]

lemma decode_eq_ok {bytes : ByteArray} {text : String} (h : Utf8.decode bytes = .ok text) :
    bytes = text.toUTF8 := by
  unfold Utf8.decode String.fromUTF8? at h
  by_cases hv : bytes.IsValidUTF8
  · rw [dif_pos hv] at h
    obtain rfl := Except.ok.inj h
    rfl
  · rw [dif_neg hv] at h
    cases h

lemma readText_eq_ok {fs : FileSystem} {path : Path} {text : String}
    (h : fs.readText path = .ok text) : fs.readBytes path = .ok text.toUTF8 := by
  unfold FileSystem.readText at h
  cases hb : fs.readBytes path with
  | error e => simp [hb, bind, Except.bind] at h
  | ok bytes =>
    cases hd : Utf8.decode bytes with
    | error fault => simp [hb, hd, bind, Except.bind] at h
    | ok decoded =>
      simp only [hb, hd, bind, Except.bind, mapError_ok, Except.ok.injEq] at h
      rw [decode_eq_ok hd, h]

lemma isApplied_yields {table : TableName} {f : String} {log : List (Exchange σ)}
    {r : Except EngineError Bool} (h : Yields (ExceptT.run (table.isApplied f)) log r) :
    ∃ reply before after, log = [⟨checkCall table f, reply, before, after⟩] ∧
      r = (reply.bind TableName.countsRow).mapError (EngineError.check f) := by
  unfold TableName.isApplied at h
  rcases yields_andThen.mp h with ⟨log₁, reply, log₂, rfl, h₁, h₂⟩ | ⟨e, h₁, rfl⟩
  · obtain ⟨answer, before, after, rfl, ha⟩ := yields_ask.mp h₁
    obtain rfl := ok_eq_mapError.mp ha
    obtain ⟨rfl, rfl⟩ := yields_lift.mp h₂
    exact ⟨_, before, after, rfl, rfl⟩
  · obtain ⟨answer, before, after, rfl, ha⟩ := yields_ask.mp h₁
    obtain ⟨cause, rfl, rfl⟩ := error_eq_mapError.mp ha
    exact ⟨_, before, after, rfl, rfl⟩

lemma record_yields {table : TableName} {f : String} {log : List (Exchange σ)}
    {r : Except EngineError Unit} (h : Yields (ExceptT.run (table.record f)) log r) :
    ∃ reply before after, log = [⟨recordCall table f, reply, before, after⟩] ∧
      r = (reply.map fun _ => ()).mapError (EngineError.record f) := by
  unfold TableName.record at h
  rcases yields_andThen.mp h with ⟨log₁, count, log₂, rfl, h₁, h₂⟩ | ⟨e, h₁, rfl⟩
  · obtain ⟨answer, before, after, rfl, ha⟩ := yields_ask.mp h₁
    obtain rfl := ok_eq_mapError.mp ha
    obtain ⟨rfl, rfl⟩ := yields_pure.mp h₂
    exact ⟨_, before, after, rfl, rfl⟩
  · obtain ⟨answer, before, after, rfl, ha⟩ := yields_ask.mp h₁
    obtain ⟨cause, rfl, rfl⟩ := error_eq_mapError.mp ha
    exact ⟨_, before, after, rfl, rfl⟩

/-- After a check that counts no row, a migration is read, executed and recorded. -/
lemma applyOne_yields {table : TableName} {fs : FileSystem} {dir : Path} {m : Migration}
    {log : List (Exchange σ)} {r : Except EngineError Unit} {reply : Option Row} {s₁ s₂ : σ}
    (huncounted : CountsNone reply)
    (h : Yields (ExceptT.run (Engine.applyOne table fs dir m)) log r) :
    ∃ ending, Block table fs dir m (⟨checkCall table m.filename, .ok reply, s₁, s₂⟩ :: log) ending ∧
      ((r = .ok () ∧ ending = .applied) ∨ ∃ e, r = .error e ∧ ending = .failed e) := by
  unfold Engine.applyOne at h
  rcases yields_andThen.mp h with ⟨log₁, body, log₂, rfl, h₁, h₂⟩ | ⟨e, h₁, rfl⟩
  · obtain ⟨rfl, hbody⟩ := yields_lift.mp h₁
    have hread := readText_eq_ok (ok_eq_mapError.mp hbody)
    rcases yields_andThen.mp h₂ with ⟨log₃, u, log₄, rfl, h₃, h₄⟩ | ⟨e, h₃, rfl⟩
    · obtain ⟨answer, before, after, rfl, ha⟩ := yields_ask.mp h₃
      obtain rfl := ok_eq_mapError.mp ha
      obtain ⟨count, before', after', rfl, rfl⟩ := record_yields h₄
      cases count with
      | error e => exact ⟨_, .recordFailed huncounted hread, .inr ⟨_, rfl, rfl⟩⟩
      | ok n => exact ⟨_, .applied huncounted hread, .inl ⟨rfl, rfl⟩⟩
    · obtain ⟨answer, before, after, rfl, ha⟩ := yields_ask.mp h₃
      obtain ⟨cause, rfl, rfl⟩ := error_eq_mapError.mp ha
      exact ⟨_, .bodyFailed huncounted hread, .inr ⟨_, rfl, rfl⟩⟩
  · obtain ⟨rfl, hbody⟩ := yields_lift.mp h₁
    obtain ⟨cause, hunread, rfl⟩ := error_eq_mapError.mp hbody
    exact ⟨_, .unread huncounted hunread, .inr ⟨_, rfl, rfl⟩⟩

/-- A step is one block, and its summary follows from how the block ends. -/
theorem step_yields {table : TableName} {fs : FileSystem} {dir : Path} {summary : RunSummary}
    {m : Migration} {log : List (Exchange σ)} {r : Except EngineError RunSummary}
    (h : Yields (ExceptT.run (Engine.step table fs dir summary m)) log r) :
    ∃ ending, Block table fs dir m log ending ∧ r = ending.after summary m := by
  unfold Engine.step at h
  rcases yields_andThen.mp h with ⟨log₁, isApplied, log₂, rfl, h₁, h₂⟩ | ⟨e, h₁, rfl⟩
  · obtain ⟨answer, before, after, rfl, ha⟩ := isApplied_yields h₁
    cases answer with
    | error e => cases ha
    | ok reply =>
      have hcount : TableName.countsRow reply = .ok isApplied := ok_eq_mapError.mp ha
      cases isApplied with
      | true =>
        obtain ⟨rfl, rfl⟩ := yields_pure.mp h₂
        exact ⟨.skipped, .skipped (countsRow_eq_true.mp hcount), rfl⟩
      | false =>
        have hnone := countsRow_eq_false.mp hcount
        rcases yields_andThen.mp h₂ with ⟨log₃, u, log₄, rfl, h₃, h₄⟩ | ⟨e, h₃, rfl⟩
        · obtain ⟨rfl, rfl⟩ := yields_pure.mp h₄
          obtain ⟨ending, hblock, ⟨-, rfl⟩ | ⟨e, he, -⟩⟩ := applyOne_yields hnone h₃
          · exact ⟨.applied, by simpa using hblock, rfl⟩
          · cases he
        · obtain ⟨ending, hblock, ⟨he, -⟩ | ⟨e', he, rfl⟩⟩ := applyOne_yields hnone h₃
          · cases he
          · exact ⟨.failed e', hblock, by rw [Except.error.inj he]; rfl⟩
  · obtain ⟨answer, before, after, rfl, ha⟩ := isApplied_yields h₁
    obtain ⟨cause, hcause, rfl⟩ := error_eq_mapError.mp ha
    cases answer with
    | error e' =>
      rw [← Except.error.inj hcause]
      exact ⟨_, .checkFailed, rfl⟩
    | ok reply => exact ⟨_, .undecoded hcause, rfl⟩

/-- The loop of a run is a sequence of blocks. -/
theorem foldlM_step_yields {table : TableName} {fs : FileSystem} {dir : Path}
    {ms : List Migration} {summary : RunSummary} {log : List (Exchange σ)}
    {r : Except EngineError RunSummary}
    (h : Yields (ExceptT.run (ms.foldlM (Engine.step table fs dir) summary)) log r) :
    Blocks table fs dir summary ms log r := by
  induction ms generalizing summary log with
  | nil =>
    obtain ⟨rfl, rfl⟩ := yields_pure.mp h
    exact .done summary
  | cons m ms ih =>
    rw [List.foldlM_cons] at h
    rcases yields_andThen.mp h with ⟨log₁, summary', log₂, rfl, h₁, h₂⟩ | ⟨e, h₁, rfl⟩
    · obtain ⟨ending, hblock, hafter⟩ := step_yields h₁
      exact .next hblock hafter.symm (ih h₂)
    · obtain ⟨ending, hblock, hafter⟩ := step_yields h₁
      cases ending with
      | skipped => cases hafter
      | applied => cases hafter
      | failed e' =>
        rw [Except.error.inj hafter]
        exact .cut hblock

/-- A bound, if there is one, is the version of a migration. -/
def BoundFound (bound : Option UInt64) (ms : List Migration) : Prop :=
  ∀ target, bound = some target → ∃ m ∈ ms, m.version = target

/-- The exchanges of a run and what it comes to. -/
inductive RunTrace (table : TableName) (fs : FileSystem) (dir : Path) (bound : Option UInt64) :
    List (Exchange σ) → Except EngineError RunSummary → Prop
  | emptyPath (empty : dir.isEmpty = true) : RunTrace table fs dir bound [] (.error .emptyPath)
  | invalidVersion (nonempty : dir.isEmpty = false) (zero : bound = some 0) :
      RunTrace table fs dir bound [] (.error (.invalidVersion 0))
  | tableCreation {e : DatabaseError} {s₁ s₂ : σ} (nonempty : dir.isEmpty = false)
      (positive : bound ≠ some 0) :
      RunTrace table fs dir bound [⟨createCall table, .error e, s₁, s₂⟩]
        (.error (.tableCreation table.text e))
  | discovery {e : DiscoveryError} {s₁ s₂ : σ} (nonempty : dir.isEmpty = false)
      (positive : bound ≠ some 0) (undiscovered : Migration.discover fs dir = .error e) :
      RunTrace table fs dir bound [⟨createCall table, .ok (), s₁, s₂⟩] (.error (.discovery e))
  | versionNotFound {target : UInt64} {ms : List Migration} {s₁ s₂ : σ}
      (nonempty : dir.isEmpty = false) (positive : bound ≠ some 0)
      (discovered : Migration.discover fs dir = .ok ms) (bounded : bound = some target)
      (missing : ∀ m ∈ ms, m.version ≠ target) :
      RunTrace table fs dir bound [⟨createCall table, .ok (), s₁, s₂⟩]
        (.error (.versionNotFound target))
  | blocks {ms : List Migration} {log : List (Exchange σ)} {r : Except EngineError RunSummary}
      {s₁ s₂ : σ} (nonempty : dir.isEmpty = false) (positive : bound ≠ some 0)
      (discovered : Migration.discover fs dir = .ok ms) (found : BoundFound bound ms)
      (blocks : Blocks table fs dir { stoppedAt := bound } (ms.filter (Engine.isWithin bound))
        log r) :
      RunTrace table fs dir bound (⟨createCall table, .ok (), s₁, s₂⟩ :: log) r

lemma checkBound_eq_ok {bound : Option UInt64} {ms : List Migration} {u : Unit} :
    Engine.checkBound bound ms = .ok u ↔ BoundFound bound ms := by
  cases bound with
  | none => simp [Engine.checkBound, BoundFound]
  | some target => simp [Engine.checkBound, BoundFound]

lemma checkBound_eq_error {bound : Option UInt64} {ms : List Migration} {e : EngineError}
    (h : Engine.checkBound bound ms = .error e) :
    ∃ target, bound = some target ∧ (∀ m ∈ ms, m.version ≠ target) ∧
      e = .versionNotFound target := by
  cases bound with
  | none => cases h
  | some target =>
    simp only [Engine.checkBound] at h
    by_cases hany : (ms.any fun m => m.version == target) = true
    · rw [if_pos hany] at h
      cases h
    · rw [if_neg hany] at h
      refine ⟨target, rfl, ?_, (Except.error.inj h).symm⟩
      simpa using hany

lemma throw_yields {α β : Type} {e : EngineError} {f : α → Engine β} {log : List (Exchange σ)}
    {r : Except EngineError β} (h : Yields (ExceptT.run ((throw e : Engine α) >>= f)) log r) :
    log = [] ∧ r = .error e := by
  rcases yields_andThen.mp h with ⟨log₁, a, log₂, -, h₁, -⟩ | ⟨e', h₁, rfl⟩
  · cases (yields_throw.mp h₁).2
  · obtain ⟨rfl, he⟩ := yields_throw.mp h₁
    exact ⟨rfl, by rw [Except.error.inj he]⟩

theorem run_yields {table : TableName} {fs : FileSystem} {dir : Path} {bound : Option UInt64}
    {log : List (Exchange σ)} {r : Except EngineError RunSummary}
    (h : Yields (ExceptT.run (Engine.run table fs dir bound)) log r) :
    RunTrace table fs dir bound log r := by
  unfold Engine.run at h
  by_cases hd : dir.isEmpty = true
  · rw [if_pos hd] at h
    obtain ⟨rfl, rfl⟩ := throw_yields h
    exact .emptyPath hd
  rw [if_neg hd] at h
  rw [Bool.not_eq_true] at hd
  by_cases hb : bound = some 0
  · simp only [if_pos hb] at h
    obtain ⟨rfl, rfl⟩ := throw_yields h
    exact .invalidVersion hd hb
  simp only [if_neg hb] at h
  rcases yields_andThen.mp h with ⟨log₁, u, log₂, rfl, h₁, h₂⟩ | ⟨e, h₁, rfl⟩
  · obtain ⟨created, before, after, rfl, hcreated⟩ := yields_ask.mp h₁
    obtain rfl := ok_eq_mapError.mp hcreated
    rcases yields_andThen.mp h₂ with ⟨log₃, ms, log₄, rfl, h₃, h₄⟩ | ⟨e, h₃, rfl⟩
    · obtain ⟨rfl, hms⟩ := yields_lift.mp h₃
      have hdisc : Migration.discover fs dir = .ok ms := ok_eq_mapError.mp hms
      rcases yields_andThen.mp h₄ with ⟨log₅, u', log₆, rfl, h₅, h₆⟩ | ⟨e, h₅, rfl⟩
      · obtain ⟨rfl, hbound⟩ := yields_lift.mp h₅
        rw [takeWhile_isWithin bound (discover_ascending hdisc)] at h₆
        exact .blocks hd hb hdisc (checkBound_eq_ok.mp hbound.symm) (foldlM_step_yields h₆)
      · obtain ⟨rfl, hbound⟩ := yields_lift.mp h₅
        obtain ⟨target, rfl, hmissing, rfl⟩ := checkBound_eq_error hbound.symm
        exact .versionNotFound hd hb hdisc rfl hmissing
    · obtain ⟨rfl, hms⟩ := yields_lift.mp h₃
      obtain ⟨cause, hdisc, rfl⟩ := error_eq_mapError.mp hms
      exact .discovery hd hb hdisc
  · obtain ⟨created, before, after, rfl, hcreated⟩ := yields_ask.mp h₁
    obtain ⟨cause, rfl, rfl⟩ := error_eq_mapError.mp hcreated
    exact .tableCreation hd hb

/-- A record stands right after the body of its file, and that right after a check which counts no
row. -/
def RecordFollows (table : TableName) (fs : FileSystem) (dir : Path) (pre : List (Exchange σ))
    (e : Exchange σ) : Prop :=
  e.call.kind = .execute → ∃ f reply body before s₁ s₂ s₃ s₄, e.call = recordCall table f ∧
    CountsNone reply ∧ fs.readBytes (dir.join ⟨f⟩) = .ok body.toUTF8 ∧
    pre = before ++ [⟨checkCall table f, .ok reply, s₁, s₂⟩, ⟨.executeBatch body, .ok (), s₃, s₄⟩]

/-- Nothing that stands before another call has failed. -/
def AllSucceeded (log : List (Exchange σ)) : Prop := ∀ e ∈ log, ∃ value, e.reply = .ok value

section Preceding

variable {table : TableName} {fs : FileSystem} {dir : Path} {m : Migration}
  {log : List (Exchange σ)}

lemma RecordFollows.prepend {pre : List (Exchange σ)} {e : Exchange σ}
    (h : RecordFollows table fs dir pre e) (l : List (Exchange σ)) :
    RecordFollows table fs dir (l ++ pre) e := by
  intro he
  obtain ⟨f, reply, body, before, s₁, s₂, s₃, s₄, hcall, hnone, hread, rfl⟩ := h he
  exact ⟨f, reply, body, l ++ before, s₁, s₂, s₃, s₄, hcall, hnone, hread, by simp⟩

lemma recordFollows_of_ne {pre : List (Exchange σ)} {e : Exchange σ}
    (h : e.call.kind ≠ .execute) : RecordFollows table fs dir pre e :=
  fun he => absurd he h

lemma Block.record_follows {ending : Ending} (h : Block table fs dir m log ending) :
    Throughout (RecordFollows table fs dir) log := by
  cases h with
  | skipped | checkFailed | undecoded | unread =>
    exact throughout_cons.mpr ⟨recordFollows_of_ne (by simp [Call.kind]), throughout_nil⟩
  | bodyFailed =>
    exact throughout_cons.mpr ⟨recordFollows_of_ne (by simp [Call.kind]),
      throughout_cons.mpr ⟨recordFollows_of_ne (by simp [Call.kind]), throughout_nil⟩⟩
  | applied huncounted hread | recordFailed huncounted hread =>
    simp only [throughout_cons, throughout_nil, and_true]
    refine ⟨recordFollows_of_ne (by simp [Call.kind]), recordFollows_of_ne (by simp [Call.kind]),
      fun _ => ?_⟩
    exact ⟨_, _, _, [], _, _, _, _, rfl, huncounted, hread, rfl⟩

lemma Block.all_succeeded {ending : Ending} (h : Block table fs dir m log ending)
    (hending : ∀ e, ending ≠ .failed e) : AllSucceeded log := by
  cases h with
  | skipped | applied => simp [AllSucceeded]
  | checkFailed | undecoded | unread | bodyFailed | recordFailed => exact absurd rfl (hending _)

lemma Block.failure_last {ending : Ending} (h : Block table fs dir m log ending) :
    Throughout (fun pre _ => AllSucceeded pre) log := by
  cases h <;> simp [throughout_cons, throughout_nil, AllSucceeded]

lemma Ending.not_failed_of_after {ending : Ending} {summary summary' : RunSummary}
    (h : ending.after summary m = .ok summary') (e : EngineError) : ending ≠ .failed e := by
  rintro rfl
  cases h

lemma Blocks.record_follows {summary : RunSummary} {ms : List Migration}
    {r : Except EngineError RunSummary} (h : Blocks table fs dir summary ms log r) :
    Throughout (RecordFollows table fs dir) log := by
  induction h with
  | done => exact throughout_nil
  | next block _ _ ih =>
    exact throughout_append.mpr ⟨block.record_follows, ih.imp fun _ _ h => h.prepend _⟩
  | cut block => exact block.record_follows

lemma Blocks.failure_last {summary : RunSummary} {ms : List Migration}
    {r : Except EngineError RunSummary} (h : Blocks table fs dir summary ms log r) :
    Throughout (fun pre _ => AllSucceeded pre) log := by
  induction h with
  | done => exact throughout_nil
  | next block after _ ih =>
    -- A block that others follow did not fail, so what precedes a call in them succeeded as well.
    have hblock := block.all_succeeded (Ending.not_failed_of_after after)
    refine throughout_append.mpr ⟨block.failure_last, ih.imp fun pre _ h e he => ?_⟩
    rcases List.mem_append.mp he with he | he
    · exact hblock e he
    · exact h e he
  | cut block => exact block.failure_last

lemma RunTrace.record_follows {bound : Option UInt64} {r : Except EngineError RunSummary}
    (h : RunTrace table fs dir bound log r) : Throughout (RecordFollows table fs dir) log := by
  cases h with
  | emptyPath | invalidVersion => exact throughout_nil
  | tableCreation | discovery | versionNotFound =>
    exact throughout_cons.mpr ⟨recordFollows_of_ne (by simp [Call.kind]), throughout_nil⟩
  | blocks _ _ _ _ blocks =>
    exact throughout_cons.mpr ⟨recordFollows_of_ne (by simp [Call.kind]),
      blocks.record_follows.imp fun _ _ h => h.prepend [_]⟩

lemma RunTrace.failure_last {bound : Option UInt64} {r : Except EngineError RunSummary}
    (h : RunTrace table fs dir bound log r) : Throughout (fun pre _ => AllSucceeded pre) log := by
  cases h with
  | emptyPath | invalidVersion => exact throughout_nil
  | tableCreation | discovery | versionNotFound =>
    exact throughout_cons.mpr ⟨nofun, throughout_nil⟩
  | blocks _ _ _ _ blocks =>
    refine throughout_cons.mpr ⟨nofun, blocks.failure_last.imp fun pre _ h e he => ?_⟩
    rcases List.mem_cons.mp he with rfl | he
    · exact ⟨(), rfl⟩
    · exact h e he

/-- Past its checks a run creates the tracking table, and what follows is a sequence of blocks. -/
lemma RunTrace.blocks_follow {bound : Option UInt64} {r : Except EngineError RunSummary}
    (h : RunTrace table fs dir bound log r) (hd : dir.isEmpty = false) (hb : bound ≠ some 0) :
    ∃ created s₁ s₂ rest, log = ⟨createCall table, created, s₁, s₂⟩ :: rest ∧
      (rest ≠ [] → created = .ok () ∧
        ∃ ms, Migration.discover fs dir = .ok ms ∧ BoundFound bound ms) ∧
      ∀ ms, created = .ok () → Migration.discover fs dir = .ok ms → BoundFound bound ms →
        ms.Pairwise (fun a b => a.version < b.version) ∧
        Blocks table fs dir { stoppedAt := bound } (ms.filter (Engine.isWithin bound)) rest r := by
  cases h with
  | emptyPath empty =>
    rw [empty] at hd
    cases hd
  | invalidVersion _ zero => exact absurd zero hb
  | tableCreation => exact ⟨_, _, _, [], rfl, nofun, nofun⟩
  | discovery _ _ undiscovered =>
    refine ⟨_, _, _, [], rfl, nofun, fun ms _ hms => ?_⟩
    rw [undiscovered] at hms
    cases hms
  | versionNotFound _ _ discovered bounded missing =>
    refine ⟨_, _, _, [], rfl, nofun, fun ms _ hms hfound => ?_⟩
    rw [discovered] at hms
    obtain rfl := Except.ok.inj hms
    obtain ⟨m, hm, hversion⟩ := hfound _ bounded
    exact absurd hversion (missing m hm)
  | @blocks ms rest _ s₁ s₂ _ _ discovered found blocks =>
    refine ⟨_, _, _, rest, rfl, fun _ => ⟨rfl, ms, discovered, found⟩, fun ms' _ hms _ => ?_⟩
    rw [discovered] at hms
    obtain rfl := Except.ok.inj hms
    exact ⟨discover_ascending discovered, blocks⟩

lemma RunTrace.log_eq_nil {bound : Option UInt64} {r : Except EngineError RunSummary}
    (h : RunTrace table fs dir bound log r) (hrefused : dir.isEmpty = true ∨ bound = some 0) :
    log = [] := by
  cases h with
  | emptyPath | invalidVersion => rfl
  | tableCreation nonempty positive | discovery nonempty positive
  | versionNotFound nonempty positive | blocks nonempty positive =>
    rcases hrefused with hd | hb
    · rw [hd] at nonempty
      cases nonempty
    · exact absurd hb positive

end Preceding

/-- The calls of a run over any database at all. Nothing is called for an empty directory or the
bound zero. Otherwise the tracking table is created, and then, if that worked, the migrations are
discovered and the bound is among them, there is one block for each migration within the bound, in
strictly ascending order of version, up to the first one that fails. Every record stands right after
the body of its file and that right after a check which counts no row; only the last call can fail. -/
theorem run_call_discipline (db : Database σ) (table : TableName) (fs : FileSystem) (dir : Path)
    (bound : Option UInt64) (s : σ) :
    let o := observe db (ExceptT.run (Engine.run table fs dir bound)) s
    (dir.isEmpty = true ∨ bound = some 0 → o.log = []) ∧
    (dir.isEmpty = false → bound ≠ some 0 →
      ∃ created s₁ s₂ rest, o.log = ⟨createCall table, created, s₁, s₂⟩ :: rest ∧
        (rest ≠ [] → created = .ok () ∧
          ∃ ms, Migration.discover fs dir = .ok ms ∧ BoundFound bound ms) ∧
        ∀ ms, created = .ok () → Migration.discover fs dir = .ok ms → BoundFound bound ms →
          ms.Pairwise (fun a b => a.version < b.version) ∧
          Blocks table fs dir { stoppedAt := bound } (ms.filter (Engine.isWithin bound)) rest
            o.value) ∧
    (∀ pre e post, o.log = pre ++ e :: post → e.call.kind = .execute →
      ∃ f reply body before s₁ s₂ s₃ s₄, e.call = recordCall table f ∧ CountsNone reply ∧
        fs.readBytes (dir.join ⟨f⟩) = .ok body.toUTF8 ∧
        pre = before ++
          [⟨checkCall table f, .ok reply, s₁, s₂⟩, ⟨.executeBatch body, .ok (), s₃, s₄⟩]) ∧
    ∀ pre e post, o.log = pre ++ e :: post → ∀ e' ∈ pre, ∃ value, e'.reply = .ok value := by
  intro o
  have htrace : RunTrace table fs dir bound o.log o.value := run_yields (observe_yields db _ s)
  exact ⟨htrace.log_eq_nil, htrace.blocks_follow, htrace.record_follows, htrace.failure_last⟩

end SqlMigrations.Proofs
