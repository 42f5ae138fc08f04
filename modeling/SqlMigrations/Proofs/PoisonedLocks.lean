import SqlMigrations.Database.Live
import SqlMigrations.Engine.Status
import SqlMigrations.Proofs.CallDiscipline
import SqlMigrations.Proofs.QueryResults

/-!
# Poisoned locks

A backend goes on after any call, also after one that panics. Until the first panic each call is
answered by the connection, and neither its errors nor values that cannot be decoded poison the
lock; from then on every call fails without reaching the connection. A run or a report that starts
behind a poisoned lock fails at the creation of its table.
-/

namespace SqlMigrations.Proofs

/-- A call to a backend with what it comes to, and the backend around it. -/
structure Visit (κ : Type) where
  call : Call
  outcome : Except Panic (Except DatabaseError call.Reply)
  before : Backend κ
  after : Backend κ

variable {κ : Type}

def visit (c : Connection κ) (b : Backend κ) (call : Call) : Visit κ :=
  let result := (Backend.handler c call).run.run b
  ⟨call, result.1, b, result.2⟩

/-- Calls one after the other, whatever each of them comes to. -/
def visits (c : Connection κ) : Backend κ → List Call → List (Visit κ)
  | _, [] => []
  | b, call :: calls => visit c b call :: visits c (visit c b call).after calls

/-- The backend that some visits leave. -/
def backendAfter : Backend κ → List (Visit κ) → Backend κ
  | b, [] => b
  | _, v :: vs => backendAfter v.after vs

def Visit.Panicked (v : Visit κ) : Prop := v.outcome = .error .panic

/-- The connection answers the call, and only a panic of it poisons the lock. -/
structure Served (c : Connection κ) (v : Visit κ) : Prop where
  answered : ∃ answer, (asked c v.call).run v.before.connection = (answer, v.after.connection) ∧
    v.outcome = worth v.call answer
  admitted : v.outcome ≠ .ok (.error .poisoned)
  poisons_iff : v.after.isPoisoned = true ↔ v.Panicked

/-- The call fails at the lock, whatever connection there is behind it. -/
structure Barred (v : Visit κ) : Prop where
  refused : v.outcome = .ok (.error .poisoned)
  unchanged : v.after = v.before
  unreached : ∀ c : Connection κ, visit c v.before v.call = v

section Calls

variable {c : Connection κ} {b : Backend κ} {call : Call}

lemma everyRow_ne_poisoned (answer : RawRows) : Backend.everyRow answer ≠ .error .poisoned := by
  obtain ⟨rows, _ | text⟩ := answer
  · intro h
    obtain ⟨_, _, _, -, -, -, he⟩ := mapM_rowOfRaw_eq_error.mp h
    cases he
  · nofun

lemma worth_ne_poisoned (answer : Answer (Handed call)) :
    worth call answer ≠ .ok (.error .poisoned) := by
  cases answer with
  | panic => nofun
  | error text => cases call <;> nofun
  | ok handed =>
    cases call with
    | execute | executeBatch => nofun
    | query => exact fun h => everyRow_ne_poisoned handed (Except.ok.inj h)
    | queryRow =>
      -- The errors of a first row are errors of all rows.
      exact fun h => everyRow_ne_poisoned handed (everyRow_of_firstRow_error (Except.ok.inj h))

lemma visit_of_poisoned (h : b.isPoisoned = true) :
    visit c b call = ⟨call, .ok (.error .poisoned), b, b⟩ := by
  unfold visit
  rw [handler_of_poisoned c call h]

lemma barred_of_poisoned (h : b.isPoisoned = true) : Barred (visit c b call) where
  refused := by rw [visit_of_poisoned h]
  unchanged := by rw [visit_of_poisoned h]
  unreached c' := by
    rw [visit_of_poisoned h]
    exact visit_of_poisoned h

lemma served_of_unpoisoned (h : b.isPoisoned = false) : Served c (visit c b call) := by
  have hvisit : visit c b call =
      let answer := (asked c call).run b.connection
      ⟨call, worth call answer.1, b, ⟨answer.2, isPanic answer.1⟩⟩ := by
    unfold visit
    rw [handler_of_unpoisoned c call h]
  rw [hvisit]
  exact ⟨⟨_, rfl, rfl⟩, worth_ne_poisoned _, worth_eq_panic.symm⟩

lemma isPoisoned_visit : (visit c b call).after.isPoisoned = true ↔
    b.isPoisoned = true ∨ (visit c b call).Panicked := by
  cases hb : b.isPoisoned with
  | true =>
    have hafter : (visit c b call).after = b := (barred_of_poisoned hb).unchanged
    rw [hafter, hb]
    simp
  | false => simpa using (served_of_unpoisoned hb).poisons_iff

end Calls

section Visits

variable (c : Connection κ) (b : Backend κ) (calls : List Call)

/-- Each visit finds the lock poisoned if it was at first or if an earlier visit has panicked. -/
lemma throughout_visits : Throughout (fun before v => v = visit c v.before v.call ∧
    (v.before.isPoisoned = true ↔ b.isPoisoned = true ∨ ∃ u ∈ before, u.Panicked))
      (visits c b calls) := by
  induction calls generalizing b with
  | nil => exact throughout_nil
  | cons call calls ih =>
    -- The other calls start at the backend that the first one leaves, poisoned by it or before it.
    refine throughout_cons.mpr ⟨⟨rfl, by simp [visit]⟩, ?_⟩
    refine (ih (visit c b call).after).imp fun before v ⟨hv, hpoisoned⟩ => ⟨hv, ?_⟩
    rw [hpoisoned, isPoisoned_visit, List.exists_mem_cons_iff, or_assoc]

lemma isPoisoned_backendAfter : (backendAfter b (visits c b calls)).isPoisoned = true ↔
    b.isPoisoned = true ∨ ∃ v ∈ visits c b calls, v.Panicked := by
  induction calls generalizing b with
  | nil => simp [visits, backendAfter]
  | cons call calls ih =>
    simp only [visits, backendAfter, ih, isPoisoned_visit, List.exists_mem_cons_iff, or_assoc]

end Visits

section Engine

variable (c : Connection κ) {b : Backend κ} {table : TableName} {fs : FileSystem} {dir : Path}

/-- Whatever begins with the creation of the table fails there behind a poisoned lock. -/
lemma run_ensure_of_poisoned {α : Type} (f : Unit → Engine α) (h : b.isPoisoned = true) :
    ((ExceptT.run (table.ensure >>= f)).run (Backend.handler c)).run.run b =
      (.ok (.error (.tableCreation table.text .poisoned)), b) := by
  have hcall : ExceptT.run (table.ensure >>= f) = .call (createCall table) fun
      | .ok u => ExceptT.run (f u)
      | .error e => .done (.error (.tableCreation table.text e)) := by
    refine congrArg (Program.call (createCall table)) (funext fun reply => ?_)
    cases reply <;> rfl
  rw [hcall, run_call, handler_of_poisoned c (createCall table) h]
  rfl

lemma run_of_poisoned {bound : Option UInt64} (h : b.isPoisoned = true)
    (hdir : dir.isEmpty = false) (hbound : bound ≠ some 0) :
    ((ExceptT.run (Engine.run table fs dir bound)).run (Backend.handler c)).run.run b =
      (.ok (.error (.tableCreation table.text .poisoned)), b) := by
  unfold Engine.run
  rw [if_neg (by simp [hdir])]
  simp only [if_neg hbound]
  exact run_ensure_of_poisoned c _ h

lemma list_of_poisoned (h : b.isPoisoned = true) (hdir : dir.isEmpty = false) :
    ((ExceptT.run (Engine.list table fs dir)).run (Backend.handler c)).run.run b =
      (.ok (.error (.tableCreation table.text .poisoned)), b) := by
  unfold Engine.list
  rw [if_neg (by simp [hdir])]
  exact run_ensure_of_poisoned c _ h

end Engine

/-- A panic poisons the lock for good, and nothing else does. Over any calls to a new backend, those
up to the first panic are answered by the connection, none of them with a poisoned lock, and all
later ones fail at the lock. A run or a report that starts behind a poisoned lock fails there too,
and the backend stays as it is. -/
theorem poisoned_by_panic_only (c : Connection κ) :
    (∀ s calls, Throughout (fun before v => ((∀ u ∈ before, ¬ u.Panicked) → Served c v) ∧
      ((∃ u ∈ before, u.Panicked) → Barred v)) (visits c ⟨s, false⟩ calls)) ∧
    (∀ s calls, (backendAfter ⟨s, false⟩ (visits c ⟨s, false⟩ calls)).isPoisoned = true ↔
      ∃ v ∈ visits c ⟨s, false⟩ calls, v.Panicked) ∧
    ∀ (b : Backend κ) (table : TableName) (fs : FileSystem) (dir : Path), b.isPoisoned = true →
      dir.isEmpty = false →
      (∀ bound, bound ≠ some 0 →
        ((ExceptT.run (Engine.run table fs dir bound)).run (Backend.handler c)).run.run b =
          (.ok (.error (.tableCreation table.text .poisoned)), b)) ∧
      ((ExceptT.run (Engine.list table fs dir)).run (Backend.handler c)).run.run b =
        (.ok (.error (.tableCreation table.text .poisoned)), b) := by
  refine ⟨fun s calls => ?_, fun s calls => ?_, fun b table fs dir hb hdir => ?_⟩
  · refine (throughout_visits c ⟨s, false⟩ calls).imp fun before v ⟨hv, hpoisoned⟩ => ?_
    constructor
    · intro hcalm
      have hbefore : v.before.isPoisoned = false := by
        rw [← Bool.not_eq_true, hpoisoned]
        simpa using hcalm
      rw [hv]
      exact served_of_unpoisoned hbefore
    · intro hpanicked
      rw [hv]
      exact barred_of_poisoned (hpoisoned.mpr (.inr hpanicked))
  · simpa using isPoisoned_backendAfter c ⟨s, false⟩ calls
  · exact ⟨fun bound hbound => run_of_poisoned c hb hdir hbound, list_of_poisoned c hb hdir⟩

/-- A reply, a refusal, a row that cannot be decoded, a panic, and a reply that nothing takes. -/
def panicScript : List ScriptedReply :=
  [.affected 7, .error "full", .rows ⟨[[.date32 1]], none⟩, .panic, .affected 1]

/-- The fourth of five calls panics, and the last reply of the script stays where it is. -/
theorem poisoned_by_panic_only_scripted : ∃ before last,
    visits LiveStore.connection.scripted ⟨(panicScript, ⟨{}, 0⟩), false⟩
      [.execute "A" [], .executeBatch "B", .query "C" [], .queryRow "D" [], .executeBatch "E"] =
        before ++ [last] ∧
      before.map (fun v => v.after.isPoisoned) = [false, false, false, true] ∧
      Barred last ∧ last.after.connection.1 = [.affected 1] := by
  let c := LiveStore.connection.scripted
  let b : Backend (List ScriptedReply × LiveStore) := ⟨(panicScript, ⟨{}, 0⟩), false⟩
  let before := visits c b [.execute "A" [], .executeBatch "B", .query "C" [], .queryRow "D" []]
  let last := visit c (backendAfter b before) (.executeBatch "E")
  have hmem : visit c ⟨(panicScript.drop 3, ⟨{}, 0⟩), false⟩ (.queryRow "D" []) ∈ before :=
    List.mem_of_getElem? (i := 3) rfl
  have hvisits := (poisoned_by_panic_only c).1 (panicScript, ⟨{}, 0⟩)
    [.execute "A" [], .executeBatch "B", .query "C" [], .queryRow "D" [], .executeBatch "E"]
  exact ⟨before, last, rfl, rfl, (hvisits before last [] rfl).2 ⟨_, hmem, rfl⟩, rfl⟩

end SqlMigrations.Proofs
