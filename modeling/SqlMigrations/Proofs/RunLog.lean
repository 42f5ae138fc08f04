import SqlMigrations.Proofs.CallDiscipline

/-!
# Reading the log of a run

Which files a log checks, which bodies it executes for which file, and which records it asks for. A
batch belongs to the file that was checked last; the creation of the tracking table comes before any
check and belongs to none.
-/

namespace SqlMigrations.Proofs

variable {σ : Type}

/-- The file name that an exchange checks. -/
def checkedFile? (table : TableName) (e : Exchange σ) : Option String :=
  match e.call with
  | .queryRow sql [.text f] => if sql = Statement.check.text table then some f else none
  | _ => none

/-- The file name that an exchange asks to record. -/
def recordedFile? (table : TableName) (e : Exchange σ) : Option String :=
  match e.call with
  | .execute sql [.text f] => if sql = Statement.record.text table then some f else none
  | _ => none

/-- The text of a batch that succeeds. -/
def executedText? (e : Exchange σ) : Option String :=
  match e with
  | ⟨.executeBatch text, .ok _, _, _⟩ => some text
  | _ => none

/-- The file that was checked last, with the one before the log. -/
def lastChecked (table : TableName) (last : Option String) (log : List (Exchange σ)) :
    Option String :=
  log.foldl (fun last e => (checkedFile? table e).or last) last

/-- The batches that succeed, each with the file that was checked last. -/
def executionsAfter (table : TableName) :
    Option String → List (Exchange σ) → List (String × String)
  | _, [] => []
  | last, e :: log =>
    match (checkedFile? table e).or last, executedText? e with
    | some f, some text => (f, text) :: executionsAfter table (some f) log
    | last, _ => executionsAfter table last log

/-- The bodies that a run executes, with their file names. -/
def executions (table : TableName) (log : List (Exchange σ)) : List (String × String) :=
  executionsAfter table none log

/-- The file names of the bodies that a run executes. -/
def executedFiles (table : TableName) (log : List (Exchange σ)) : List String :=
  (executions table log).map Prod.fst

/-- The texts of the batches that succeed, whatever they belong to. -/
def batches (log : List (Exchange σ)) : List String := log.filterMap executedText?

def checkedFiles (table : TableName) (log : List (Exchange σ)) : List String :=
  log.filterMap (checkedFile? table)

/-- The file names that a run asks to record, whether that works or not. -/
def recordedFiles (table : TableName) (log : List (Exchange σ)) : List String :=
  log.filterMap (recordedFile? table)

section Readers

variable {table : TableName}

lemma checkedFiles_append {log log' : List (Exchange σ)} :
    checkedFiles table (log ++ log') = checkedFiles table log ++ checkedFiles table log' :=
  List.filterMap_append

lemma recordedFiles_append {log log' : List (Exchange σ)} :
    recordedFiles table (log ++ log') = recordedFiles table log ++ recordedFiles table log' :=
  List.filterMap_append

lemma batches_append {log log' : List (Exchange σ)} :
    batches (log ++ log') = batches log ++ batches log' :=
  List.filterMap_append

lemma executionsAfter_append {last : Option String} {log log' : List (Exchange σ)} :
    executionsAfter table last (log ++ log') =
      executionsAfter table last log ++
        executionsAfter table (lastChecked table last log) log' := by
  induction log generalizing last with
  | nil => rfl
  | cons e log ih =>
    simp only [List.cons_append, executionsAfter, lastChecked, List.foldl_cons]
    split
    · rename_i f text hf ht
      rw [ih, hf]
      rfl
    · rw [ih]
      rfl

end Readers

/-- The file name of a migration whose body was executed in its block. -/
def Ending.executed (ending : Ending) (m : Migration) : List String :=
  match ending with
  | .applied | .failed (.record _ _) => [m.filename]
  | _ => []

lemma Ending.eq_of_mem_executed {ending : Ending} {m : Migration} {f : String}
    (h : f ∈ ending.executed m) : f = m.filename := by
  unfold Ending.executed at h
  split at h
  · exact List.mem_singleton.mp h
  · exact List.mem_singleton.mp h
  · cases h

section Block

variable {table : TableName} {fs : FileSystem} {dir : Path} {m : Migration}
  {log : List (Exchange σ)} {ending : Ending}

lemma Block.checkedFiles_eq (h : Block table fs dir m log ending) :
    checkedFiles table log = [m.filename] := by
  cases h <;> simp [checkedFiles, checkedFile?, List.filterMap]

lemma Block.recordedFiles_eq (h : Block table fs dir m log ending) :
    recordedFiles table log = ending.executed m := by
  cases h <;> simp [recordedFiles, recordedFile?, List.filterMap, Ending.executed]

lemma Block.executed_eq (h : Block table fs dir m log ending) (last : Option String) :
    (executionsAfter table last log).map Prod.fst =
      ending.executed m := by
  cases h <;> simp [executionsAfter, checkedFile?, executedText?, Ending.executed]

lemma Block.batches_eq (h : Block table fs dir m log ending) (last : Option String) :
    batches log = (executionsAfter table last log).map Prod.snd := by
  cases h <;> simp [batches, List.filterMap, executionsAfter, checkedFile?, executedText?]

lemma Block.executed_text (h : Block table fs dir m log ending) (last : Option String)
    {f text : String} (hp : (f, text) ∈ executionsAfter table last log) :
    fs.readBytes (dir.join ⟨f⟩) = .ok text.toUTF8 := by
  cases h <;> simp_all [executionsAfter, checkedFile?, executedText?]

end Block

/-- What the log of blocks that all end well shows, and what it adds to the summary. -/
structure Completed (table : TableName) (fs : FileSystem) (dir : Path)
    (summary summary' : RunSummary) (ms : List Migration) (log : List (Exchange σ))
    (applied : List String) : Prop where
  applied_eq : summary'.applied = summary.applied ++ applied
  skipped_eq : applied.length + summary'.skipped = summary.skipped + ms.length
  stoppedAt_eq : summary'.stoppedAt = summary.stoppedAt
  checked : checkedFiles table log = ms.map fun m => m.filename
  recorded : recordedFiles table log = applied
  executed : ∀ last, (executionsAfter table last log).map Prod.fst = applied

section Blocks

variable {table : TableName} {fs : FileSystem} {dir : Path} {summary : RunSummary}
  {ms : List Migration} {log : List (Exchange σ)}

lemma Completed.cons {m : Migration} {ending : Ending} {summary₁ summary₂ : RunSummary}
    {log' : List (Exchange σ)} {applied : List String}
    (hblock : Block table fs dir m log ending) (hafter : ending.after summary m = .ok summary₁)
    (h : Completed table fs dir summary₁ summary₂ ms log' applied) :
    Completed table fs dir summary summary₂ (m :: ms) (log ++ log')
      (ending.executed m ++ applied) where
  applied_eq := by
    rw [h.applied_eq]
    cases ending with
    | skipped => rw [← Except.ok.inj hafter]; rfl
    | applied => rw [← Except.ok.inj hafter]; simp [Ending.executed]
    | failed e => cases hafter
  skipped_eq := by
    have hskipped := h.skipped_eq
    cases ending with
    | skipped =>
      rw [← Except.ok.inj hafter] at hskipped
      simp [Ending.executed] at hskipped ⊢
      omega
    | applied =>
      rw [← Except.ok.inj hafter] at hskipped
      simp [Ending.executed] at hskipped ⊢
      omega
    | failed e => cases hafter
  stoppedAt_eq := by
    rw [h.stoppedAt_eq]
    cases ending with
    | skipped | applied => rw [← Except.ok.inj hafter]
    | failed e => cases hafter
  checked := by
    rw [checkedFiles_append, hblock.checkedFiles_eq, h.checked]
    rfl
  recorded := by
    rw [recordedFiles_append, hblock.recordedFiles_eq, h.recorded]
  executed last := by
    rw [executionsAfter_append, List.map_append, hblock.executed_eq, h.executed]

lemma Blocks.batches_eq {r : Except EngineError RunSummary}
    (h : Blocks table fs dir summary ms log r) (last : Option String) :
    batches log = (executionsAfter table last log).map Prod.snd := by
  induction h generalizing last with
  | done => rfl
  | next block _ _ ih =>
    rw [batches_append, executionsAfter_append, List.map_append, ← block.batches_eq, ← ih]
  | cut block => exact block.batches_eq last

lemma Blocks.executed_text {r : Except EngineError RunSummary}
    (h : Blocks table fs dir summary ms log r) (last : Option String) {f text : String}
    (hp : (f, text) ∈ executionsAfter table last log) :
    fs.readBytes (dir.join ⟨f⟩) = .ok text.toUTF8 := by
  induction h generalizing last with
  | done => cases hp
  | next block _ _ ih =>
    rw [executionsAfter_append] at hp
    rcases List.mem_append.mp hp with hp | hp
    · exact block.executed_text last hp
    · exact ih _ hp
  | cut block => exact block.executed_text last hp

/-- Blocks that end in an error are blocks that end well, and then one that fails. -/
theorem Blocks.split_error {e : EngineError} (h : Blocks table fs dir summary ms log (.error e)) :
    ∃ passed m rest log₁ log₂ summary', ms = passed ++ m :: rest ∧ log = log₁ ++ log₂ ∧
      Blocks table fs dir summary passed log₁ (.ok summary') ∧
      Block table fs dir m log₂ (.failed e) := by
  generalize hr : Except.error e = r at h
  induction h with
  | done => cases hr
  | next block after _ ih =>
    obtain ⟨passed, m', rest, log₁, log₂, summary', rfl, rfl, hpassed, hm'⟩ := ih hr
    exact ⟨_ :: passed, m', rest, _ ++ log₁, log₂, summary', rfl, by simp,
      .next block after hpassed, hm'⟩
  | @cut summary m ms log e' block =>
    rw [Except.error.inj hr]
    exact ⟨[], m, ms, [], log, summary, rfl, rfl, .done _, block⟩

end Blocks

end SqlMigrations.Proofs
