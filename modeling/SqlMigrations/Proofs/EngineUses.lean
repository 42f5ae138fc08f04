import SqlMigrations.Proofs.ReportCalls
import SqlMigrations.Proofs.RunEquations

/-!
# Uses of the engine

The operations of the engine on a database, as one type, and what their calls have in common: the
tracking table is created by the first call if at all, and every later batch is a body.
-/

namespace SqlMigrations.Proofs

variable {σ : Type}

/-- The operations of the engine on a database. -/
inductive Use where
  | run (fs : FileSystem) (dir : Path) (bound : Option UInt64)
  | list (fs : FileSystem) (dir : Path)
  | ensure
  | isApplied (filename : String)
  | record (filename : String)
  | records
  | appliedTimes

namespace Use

abbrev Result : Use → Type
  | run .. => RunSummary
  | list .. => StatusReport
  | ensure | record _ => Unit
  | isApplied _ => Bool
  | records | appliedTimes => List AppliedRecord

def engine (table : TableName) : (u : Use) → Engine u.Result
  | run fs dir bound => Engine.run table fs dir bound
  | list fs dir => Engine.list table fs dir
  | ensure => table.ensure
  | isApplied filename => table.isApplied filename
  | record filename => table.record filename
  | records => table.records
  | appliedTimes => table.appliedTimes

/-- A text that a use may execute as a body. -/
def IsBody : Use → String → Prop
  | run fs dir _, text => Proofs.IsBody fs dir text
  | _, _ => False

end Use

/-- A call other than the creation of the table: any batch is a body. -/
inductive MayFollow (table : TableName) (bodies : String → Prop) : Call → Prop
  | check (filename : String) : MayFollow table bodies (checkCall table filename)
  | body {text : String} (h : bodies text) : MayFollow table bodies (.executeBatch text)
  | record (filename : String) : MayFollow table bodies (recordCall table filename)
  | readAll : MayFollow table bodies (readAllCall table)

section Uses

variable {table : TableName} {fs : FileSystem} {dir : Path} {bodies : String → Prop}
  {log : List (Exchange σ)}

lemma Block.mayFollow {m : Migration} {ending : Ending} (h : Block table fs dir m log ending)
    (hm : ∀ text, fs.readBytes (dir.join ⟨m.filename⟩) = .ok text.toUTF8 → bodies text) :
    ∀ x ∈ log, MayFollow table bodies x.call := by
  cases h with
  | skipped | checkFailed | undecoded | unread =>
    exact List.forall_mem_singleton.mpr (.check _)
  | applied _ read | recordFailed _ read =>
    simp only [List.forall_mem_cons]
    exact ⟨.check _, .body (hm _ read), .record _, by simp⟩
  | bodyFailed _ read =>
    simp only [List.forall_mem_cons]
    exact ⟨.check _, .body (hm _ read), by simp⟩

lemma Blocks.mayFollow {summary : RunSummary} {ms : List Migration}
    {r : Except EngineError RunSummary} (h : Blocks table fs dir summary ms log r)
    (hms : ∀ m ∈ ms, ∀ text, fs.readBytes (dir.join ⟨m.filename⟩) = .ok text.toUTF8 →
      bodies text) : ∀ x ∈ log, MayFollow table bodies x.call := by
  induction h with
  | done => simp
  | next block _ _ ih =>
    intro x hx
    rcases List.mem_append.mp hx with hx | hx
    · exact block.mayFollow (hms _ List.mem_cons_self) x hx
    · exact ih (fun m hm => hms m (List.mem_cons_of_mem _ hm)) x hx
  | cut block => exact block.mayFollow (hms _ List.mem_cons_self)

/-- Only the first call may create the table, and it executes nothing else. -/
def WellOpened (table : TableName) (bodies : String → Prop) (log : List (Exchange σ)) : Prop :=
  (∀ x ∈ log.head?, x.call = createCall table ∨ MayFollow table (fun _ => False) x.call) ∧
    ∀ x ∈ log.tail, MayFollow table bodies x.call

lemma wellOpened_nil : WellOpened table bodies ([] : List (Exchange σ)) := by
  simp [WellOpened]

lemma wellOpened_single {x : Exchange σ} (hx : MayFollow table (fun _ => False) x.call) :
    WellOpened table bodies [x] := by
  simp [WellOpened, hx]

lemma wellOpened_create {x : Exchange σ} (hx : x.call = createCall table)
    (hlog : ∀ y ∈ log, MayFollow table bodies y.call) : WellOpened table bodies (x :: log) := by
  refine ⟨?_, hlog⟩
  simp [hx]

lemma RunTrace.wellOpened {bound : Option UInt64} {r : Except EngineError RunSummary}
    (h : RunTrace table fs dir bound log r) : WellOpened table (IsBody fs dir) log := by
  cases h with
  | emptyPath | invalidVersion => exact wellOpened_nil
  | tableCreation | discovery | versionNotFound => exact wellOpened_create rfl (by simp)
  | @blocks ms _ _ _ _ _ _ discovered _ blocks =>
    refine wellOpened_create rfl (blocks.mayFollow fun m hm text htext => ?_)
    exact ⟨ms, discovered, m, List.mem_of_mem_filter hm, htext⟩

lemma ListTrace.wellOpened {r : Except EngineError StatusReport}
    (h : ListTrace table fs dir log r) : WellOpened table bodies log := by
  cases h with
  | emptyPath => exact wellOpened_nil
  | tableCreation | discovery => exact wellOpened_create rfl (by simp)
  | query | report => exact wellOpened_create rfl (List.forall_mem_singleton.mpr .readAll)

lemma records_wellOpened {r : Except EngineError (List AppliedRecord)}
    (h : Yields (ExceptT.run table.records) log r) : WellOpened table bodies log := by
  obtain ⟨reply, before, after, rfl, -⟩ := records_yields h
  exact wellOpened_single .readAll

theorem Use.wellOpened {u : Use} {r : Except EngineError u.Result}
    (h : Yields (ExceptT.run (u.engine table)) log r) : WellOpened table u.IsBody log := by
  cases u with
  | run fs dir bound => exact (run_yields h).wellOpened
  | list fs dir => exact (list_yields h).wellOpened
  | ensure =>
    obtain ⟨reply, before, after, rfl, -⟩ := yields_ask.mp h
    exact wellOpened_create rfl (by simp)
  | isApplied filename =>
    obtain ⟨reply, before, after, rfl, -⟩ := isApplied_yields h
    exact wellOpened_single (.check filename)
  | record filename =>
    obtain ⟨reply, before, after, rfl, -⟩ := record_yields h
    exact wellOpened_single (.record filename)
  | records => exact records_wellOpened h
  | appliedTimes =>
    have hmap : Use.appliedTimes.engine table =
        table.records >>= fun records => pure (AppliedRecord.byFilename records) :=
      (bind_pure_comp AppliedRecord.byFilename table.records).symm
    rw [hmap] at h
    rcases yields_andThen.mp h with ⟨log₁, records, log₂, rfl, h₁, h₂⟩ | ⟨e, h₁, -⟩
    · obtain ⟨rfl, -⟩ := yields_pure.mp h₂
      rw [List.append_nil]
      exact records_wellOpened h₁
    · exact records_wellOpened h₁

end Uses

end SqlMigrations.Proofs
