import SqlMigrations.Proofs.CallDiscipline

/-!
# Equations of runs

What a run comes to over a database, as equations along its parts. The loop of a run does the same
from every summary, so a loop over two lists of migrations is the loop over the one and then over
the other.
-/

namespace SqlMigrations.Proofs

variable {σ : Type}

section Laws

variable {α β γ : Type}

lemma bind_done (p : Program α) : p.bind .done = p := by
  induction p with
  | done value => rfl
  | call c next ih => simp only [Program.bind, ih]

lemma bind_assoc (p : Program α) (f : α → Program β) (g : β → Program γ) :
    (p.bind f).bind g = p.bind fun a => (f a).bind g := by
  induction p with
  | done value => rfl
  | call c next ih => simp only [Program.bind, ih]

instance : LawfulMonad Program :=
  LawfulMonad.mk' Program bind_done (fun _ _ => rfl) bind_assoc

end Laws

section Bind

variable {α β : Type} (db : Database σ)

lemma observe_bind (p : Program α) (f : α → Program β) (s : σ) :
    observe db (p.bind f) s =
      let o := observe db p s
      let rest := observe db (f o.value) o.state
      ⟨rest.value, o.log ++ rest.log, rest.state⟩ := by
  induction p generalizing s with
  | done value => rfl
  | call c next ih =>
    simp only [Program.bind, observe_call, ih, List.cons_append]

/-- Either the first part ends well and the second goes on, or the first part's error stands. -/
lemma observe_andThen (x : Engine α) (f : α → Engine β) (s : σ) :
    observe db (ExceptT.run (x >>= f)) s =
      let o := observe db (ExceptT.run x) s
      match o.value with
      | .ok a =>
        let rest := observe db (ExceptT.run (f a)) o.state
        ⟨rest.value, o.log ++ rest.log, rest.state⟩
      | .error e => ⟨.error e, o.log, o.state⟩ := by
  have hbind : ExceptT.run (x >>= f) = Program.bind (ExceptT.run x) fun
      | .ok a => ExceptT.run (f a)
      | .error e => .done (.error e) := by
    rw [ExceptT.run_bind]
    refine congrArg (Program.bind (ExceptT.run x)) (funext fun a => ?_)
    cases a <;> rfl
  rw [hbind, observe_bind]
  dsimp only
  cases (observe db (ExceptT.run x) s).value with
  | ok a => rfl
  | error e => simp

end Bind

lemma Ending.after_inj {ending ending' : Ending} {summary : RunSummary} {m : Migration}
    (h : ending.after summary m = ending'.after summary m) : ending = ending' := by
  cases ending <;> cases ending' <;> simp_all [Ending.after]

section Loop

variable (table : TableName) (db : Database σ) (fs : FileSystem) (dir : Path)

/-- The calls about a migration are the same for every summary. -/
lemma exists_ending (m : Migration) (s : σ) : ∃ (ending : Ending)
    (log : List (Exchange σ)) (t : σ), Block table fs dir m log ending ∧ Linked db s log t ∧
    ∀ summary, observe db (ExceptT.run (Engine.step table fs dir summary m)) s =
        ⟨ending.after summary m, log, t⟩ := by
  have huniform : ∃ (ending : Ending) (log : List (Exchange σ)) (t : σ), ∀ summary,
      observe db (ExceptT.run (Engine.step table fs dir summary m)) s =
        ⟨ending.after summary m, log, t⟩ := by
    unfold Engine.step
    simp only [observe_andThen]
    generalize observe db (ExceptT.run (table.isApplied m.filename)) s = checked
    cases checked.value with
    | error e => exact ⟨.failed e, checked.log, checked.state, fun _ => rfl⟩
    | ok isApplied =>
      cases isApplied with
      | true => exact ⟨.skipped, checked.log ++ [], checked.state, fun _ => rfl⟩
      | false =>
        simp only [Bool.false_eq_true, if_false, observe_andThen]
        generalize observe db (ExceptT.run (Engine.applyOne table fs dir m)) checked.state = applied
        cases applied.value with
        | error e =>
          exact ⟨.failed e, checked.log ++ applied.log, applied.state, fun _ => rfl⟩
        | ok u =>
          exact ⟨.applied, checked.log ++ (applied.log ++ []), applied.state, fun _ => rfl⟩
  obtain ⟨ending, log, t, hstep⟩ := huniform
  have hyields := observe_yields db (ExceptT.run (Engine.step table fs dir {} m)) s
  have hlinked := observe_linked db (ExceptT.run (Engine.step table fs dir {} m)) s
  rw [hstep] at hyields hlinked
  obtain ⟨ending', hblock, hafter⟩ := step_yields hyields
  rw [← Ending.after_inj hafter] at hblock
  exact ⟨ending, log, t, hblock, hlinked, hstep⟩

/-- The loop of a run from the empty summary. -/
def sweep (ms : List Migration) (s : σ) : Observation σ (Except EngineError RunSummary) :=
  observe db (ExceptT.run (ms.foldlM (Engine.step table fs dir) {})) s

end Loop

/-- A summary with what a loop from the empty one adds. -/
def plus (summary delta : RunSummary) : RunSummary :=
  ⟨summary.applied ++ delta.applied, summary.skipped + delta.skipped, summary.stoppedAt⟩

lemma plus_empty (summary : RunSummary) : plus summary {} = summary := by
  simp [plus]

lemma plus_plus (summary delta delta' : RunSummary) :
    plus summary (plus delta delta') = plus (plus summary delta) delta' := by
  simp [plus, Nat.add_assoc]

lemma Ending.after_eq_map (ending : Ending) (summary : RunSummary) (m : Migration) :
    ending.after summary m = (ending.after {} m).map (plus summary) := by
  cases ending <;> simp [Ending.after, plus, Except.map]

section Loop

variable {table : TableName} {db : Database σ} {fs : FileSystem} {dir : Path}

/-- The loop from a summary does what it does from the empty one, and adds to that summary. -/
theorem observe_loop (ms : List Migration) (summary : RunSummary) (s : σ) :
    observe db (ExceptT.run (ms.foldlM (Engine.step table fs dir) summary)) s =
      let o := sweep table db fs dir ms s
      ⟨o.value.map (plus summary), o.log, o.state⟩ := by
  induction ms generalizing summary s with
  | nil =>
    change (⟨.ok summary, [], s⟩ : Observation σ (Except EngineError RunSummary)) =
      ⟨.ok (plus summary {}), [], s⟩
    rw [plus_empty]
  | cons m ms ih =>
    obtain ⟨ending, log, t, -, -, hstep⟩ := exists_ending table db fs dir m s
    unfold sweep
    simp only [List.foldlM_cons, observe_andThen, hstep]
    rw [ending.after_eq_map summary m]
    cases ending.after {} m with
    | error e => rfl
    | ok delta =>
      simp only [Except.map, ih]
      cases (sweep table db fs dir ms t).value with
      | error e => rfl
      | ok delta' => simp only [plus_plus]

theorem sweep_append (ms ms' : List Migration) (s : σ) :
    sweep table db fs dir (ms ++ ms') s =
      let o := sweep table db fs dir ms s
      match o.value with
      | .ok delta =>
        let rest := sweep table db fs dir ms' o.state
        ⟨rest.value.map (plus delta), o.log ++ rest.log, rest.state⟩
      | .error e => ⟨.error e, o.log, o.state⟩ := by
  have hfirst : observe db (ExceptT.run (ms.foldlM (Engine.step table fs dir) {})) s =
      sweep table db fs dir ms s := rfl
  have hsplit : sweep table db fs dir (ms ++ ms') s = observe db (ExceptT.run
      (ms.foldlM (Engine.step table fs dir) {} >>= fun delta =>
        ms'.foldlM (Engine.step table fs dir) delta)) s := by
    unfold sweep
    rw [List.foldlM_append]
  rw [hsplit, observe_andThen, hfirst]
  simp only [observe_loop]
  cases (sweep table db fs dir ms s).value with
  | ok delta => rfl
  | error e => rfl

variable (table db fs dir) in
lemma sweep_blocks (ms : List Migration) (s : σ) :
    Blocks table fs dir {} ms (sweep table db fs dir ms s).log (sweep table db fs dir ms s).value :=
  foldlM_step_yields (observe_yields db _ s)

variable (table db fs dir) in
lemma sweep_linked (ms : List Migration) (s : σ) :
    Linked db s (sweep table db fs dir ms s).log (sweep table db fs dir ms s).state :=
  observe_linked db _ s

end Loop

section Run

variable {table : TableName} {db : Database σ} {fs : FileSystem} {dir : Path}
  {bound : Option UInt64} {ms : List Migration} {s u : σ}

/-- A run that gets past its checks creates the tracking table and goes through the migrations
within its bound. -/
lemma run_eq_call (hdisc : Migration.discover fs dir = .ok ms) (hbound : bound ≠ some 0)
    (hfound : BoundFound bound ms) : ExceptT.run (Engine.run table fs dir bound) =
      .call (createCall table) fun
        | .ok () => ExceptT.run ((ms.filter (Engine.isWithin bound)).foldlM
          (Engine.step table fs dir) { stoppedAt := bound })
        | .error e => .done (.error (.tableCreation table.text e)) := by
  have hdir : dir.isEmpty = false := isEmpty_of_discover hdisc
  have hcheck : Engine.checkBound bound ms = .ok () := checkBound_eq_ok.mpr hfound
  unfold Engine.run Engine.discover
  rw [if_neg (by simp [hdir]), hdisc, ← takeWhile_isWithin bound (discover_ascending hdisc)]
  simp only [if_neg hbound]
  refine congrArg (Program.call (createCall table)) (funext fun reply => ?_)
  cases reply with
  | error e => rfl
  | ok u =>
    change ExceptT.run ((liftM (Engine.checkBound bound ms) : Engine Unit) >>= fun _ =>
      (ms.takeWhile (Engine.isWithin bound)).foldlM (Engine.step table fs dir)
        { stoppedAt := bound }) = _
    rw [hcheck]
    rfl

lemma observe_run_of_created (hdisc : Migration.discover fs dir = .ok ms) (hbound : bound ≠ some 0)
    (hfound : BoundFound bound ms) (hcreate : (db (createCall table)).run s = (.ok (), u)) :
    observe db (ExceptT.run (Engine.run table fs dir bound)) s =
      let o := sweep table db fs dir (ms.filter (Engine.isWithin bound)) u
      ⟨o.value.map (plus { stoppedAt := bound }), ⟨createCall table, .ok (), s, u⟩ :: o.log,
        o.state⟩ := by
  rw [run_eq_call hdisc hbound hfound, observe_call, hcreate]
  simp only [observe_loop]

lemma observe_run_of_uncreated {e : DatabaseError} (hdisc : Migration.discover fs dir = .ok ms)
    (hbound : bound ≠ some 0) (hfound : BoundFound bound ms)
    (hcreate : (db (createCall table)).run s = (.error e, u)) :
    observe db (ExceptT.run (Engine.run table fs dir bound)) s =
      ⟨.error (.tableCreation table.text e), [⟨createCall table, .error e, s, u⟩], u⟩ := by
  rw [run_eq_call hdisc hbound hfound, observe_call, hcreate]
  rfl

/-- The creation of the table and then nothing but the error of a discovery. -/
def undiscovered {α : Type} (table : TableName) (e : DiscoveryError) :
    Program (Except EngineError α) :=
  .call (createCall table) fun
    | .ok () => .done (.error (.discovery e))
    | .error cause => .done (.error (.tableCreation table.text cause))

lemma run_eq_undiscovered {e : DiscoveryError} (hdir : dir.isEmpty = false)
    (hbound : bound ≠ some 0) (hdisc : Migration.discover fs dir = .error e) :
    ExceptT.run (Engine.run table fs dir bound) = undiscovered table e := by
  unfold Engine.run Engine.discover
  rw [if_neg (by simp [hdir]), hdisc]
  simp only [if_neg hbound]
  refine congrArg (Program.call (createCall table)) (funext fun reply => ?_)
  cases reply <;> rfl

lemma observe_run_of_undiscovered {e : DiscoveryError} (hdir : dir.isEmpty = false)
    (hbound : bound ≠ some 0) (hdisc : Migration.discover fs dir = .error e)
    (hcreate : (db (createCall table)).run s = (.ok (), u)) :
    observe db (ExceptT.run (Engine.run table fs dir bound)) s =
      ⟨.error (.discovery e), [⟨createCall table, .ok (), s, u⟩], u⟩ := by
  rw [run_eq_undiscovered hdir hbound hdisc, undiscovered, observe_call, hcreate]
  rfl

lemma observe_run_zero (hdir : dir.isEmpty = false) (s : σ) :
    observe db (ExceptT.run (Engine.run table fs dir (some 0))) s =
      ⟨.error (.invalidVersion 0), [], s⟩ := by
  unfold Engine.run
  rw [if_neg (by simp [hdir])]
  rfl

end Run

end SqlMigrations.Proofs
