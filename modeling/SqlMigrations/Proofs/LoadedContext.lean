import SqlMigrations.Cli.Execution
import SqlMigrations.Proofs.DiscoveryResult
import SqlMigrations.Proofs.ReportCalls
import SqlMigrations.Proofs.RunEquations

/-!
# Loaded contexts

What a command is given to work on. Every configuration that is loaded has passed its checks, from
whichever file it comes, and a checked configuration names a migrations directory and a tracking
table that the engine takes. A version on the command line is at least one. So a command that gets
as far as the engine asks it for nothing that it refuses at once.
-/

namespace SqlMigrations.Proofs

open Cli (Arguments CommandError Command Context loadConfig loadContext commandProgram)

variable {σ : Type}

/-- The errors about what the engine is asked for: an empty directory, the version zero, a table
whose name is no identifier. -/
def IsArgumentError : EngineError → Prop
  | .emptyPath | .discovery .emptyPath | .invalidVersion _ | .invalidTableName _ => True
  | _ => False

section Config

variable {c : Config} {disk : Disk} {path root : Path}

lemma validate_eq_ok : c.validate = .ok () ↔ c.migrationsDir.isEmpty = false ∧
    isPlainIdentifier c.trackingTable = true ∧ ∀ target ∈ c.targets, target.2.isEmpty = false := by
  unfold Config.validate
  by_cases hdir : c.migrationsDir.isEmpty = true
  · simp [hdir]
  by_cases htable : isPlainIdentifier c.trackingTable = true
  · rw [if_neg hdir, if_neg (by simp [htable])]
    cases hfind : c.targets.find? fun target => target.2.isEmpty with
    | none => simpa [hdir, htable] using List.find?_eq_none.mp hfind
    | some target =>
      have hempty : target.2.isEmpty = true := by simpa using List.find?_some hfind
      simp only [reduceCtorEq, false_iff]
      rintro ⟨-, -, htargets⟩
      rw [htargets target (List.mem_of_find?_eq_some hfind)] at hempty
      cases hempty
  · simp [hdir, htable]

lemma load_validates (h : Config.load disk path = .ok c) : c.validate = .ok () := by
  unfold Config.load at h
  by_cases hexists : disk.pathExists path = true
  case neg =>
    rw [if_pos (by simp [hexists])] at h
    cases h
  rw [if_neg (by simp [hexists])] at h
  obtain ⟨text, -, h⟩ := bind_eq_ok.mp h
  cases hparsed : Config.parseYaml? text with
  | none =>
    rw [hparsed] at h
    cases h
  | some parsed =>
    rw [hparsed] at h
    obtain ⟨u, hvalid, h⟩ := bind_eq_ok.mp h
    obtain rfl : parsed = c := Except.ok.inj h
    exact hvalid

lemma validate_default : ({} : Config).validate = .ok () := by decide +kernel

/-- A project directory without a configuration file has the default configuration. -/
lemma loadFromDir_validates (h : Config.loadFromDir disk root = .ok c) : c.validate = .ok () := by
  unfold Config.loadFromDir at h
  split at h
  · exact load_validates h
  · rw [← Except.ok.inj h]
    exact validate_default

lemma loadConfig_validates {given : Option String} (h : loadConfig disk root given = .ok c) :
    c.validate = .ok () := by
  cases given with
  | none => exact loadFromDir_validates (ok_eq_mapError.mp h.symm)
  | some path => exact load_validates (ok_eq_mapError.mp h.symm)

end Config

section Context

variable {disk : Disk} {words : List String} {env : Option String} {arguments : Arguments}
  {context : Context}

lemma isEmpty_join (base : Path) {sub : Path} (h : sub.isEmpty = false) :
    (base.join sub).isEmpty = false := by
  have hsub : sub.text ≠ "" := by simpa [Path.isEmpty] using h
  unfold Path.join
  split
  · exact h
  · split <;> simp [Path.isEmpty, hsub]

lemma loadContext_eq_ok {global : Cli.GlobalArgs} (h : loadContext disk global = .ok context) :
    loadConfig disk ⟨global.projectDir⟩ global.config = .ok context.config ∧
      Cli.resolveDatabase ⟨global.projectDir⟩ context.config global = .ok context.database ∧
      context.migrationsDir =
        (global.dir.map Path.mk).getD (context.config.migrationsDirIn ⟨global.projectDir⟩) := by
  unfold loadContext at h
  obtain ⟨config, hconfig, h⟩ := bind_eq_ok.mp h
  obtain ⟨database, hdatabase, h⟩ := bind_eq_ok.mp h
  obtain rfl := Except.ok.inj h
  have hresolved := ok_eq_mapError.mp hdatabase.symm
  cases global.dir <;> exact ⟨hconfig, hresolved, rfl⟩

lemma migrationsDir_nonempty {global : Cli.GlobalArgs} (hdir : global.dir ≠ some "")
    (h : loadContext disk global = .ok context) : context.migrationsDir.isEmpty = false := by
  obtain ⟨hconfig, -, hmigrations⟩ := loadContext_eq_ok h
  rw [hmigrations]
  cases hgiven : global.dir with
  | some dir =>
    rw [hgiven] at hdir
    simpa [Path.isEmpty] using hdir
  | none => exact isEmpty_join _ (validate_eq_ok.mp (loadConfig_validates hconfig)).1

lemma parse_trackingTable {c : Config} (h : c.validate = .ok ()) :
    ∃ table, TableName.parse c.trackingTable = .ok table ∧ table.text = c.trackingTable := by
  have hplain := (validate_eq_ok.mp h).2.1
  exact ⟨⟨c.trackingTable, hplain⟩, by simp [TableName.parse, TableName.ofText?, hplain], rfl⟩

lemma readVersion?_ne_zero {text : String} : Cli.readVersion? text ≠ some 0 := by
  unfold Cli.readVersion?
  dsimp only
  split
  · split <;> simp_all
  · simp

/-- A bound on the command line is at least one. -/
lemma bound_ne_zero {bound : Option UInt64} (hparse : Cli.parse words env = .ok arguments)
    (hrun : arguments.command = .run bound) : bound ≠ some 0 := by
  unfold Cli.parse at hparse
  obtain ⟨⟨before, next⟩, -, hparse⟩ := bind_eq_ok.mp hparse
  cases next with
  | none =>
    obtain ⟨before, -, hparse⟩ := bind_eq_ok.mp hparse
    exact absurd hparse throw_ne_ok
  | some command =>
    obtain ⟨after, -, hparse⟩ := bind_eq_ok.mp hparse
    obtain ⟨after, -, hparse⟩ := bind_eq_ok.mp hparse
    obtain ⟨before, -, hparse⟩ := bind_eq_ok.mp hparse
    obtain rfl := Except.ok.inj hparse
    obtain ⟨sub, rest⟩ := command
    cases sub with
    | run =>
      obtain rfl := Command.run.inj hrun
      intro hzero
      obtain ⟨text, -, htext⟩ := Option.bind_eq_some_iff.mp hzero
      exact readVersion?_ne_zero htext
    | status => cases hrun

end Context

section Engine

variable {table : TableName} {fs : FileSystem} {dir : Path} {bound : Option UInt64}
  {log : List (Exchange σ)} {e : EngineError}

lemma discover_ne_emptyPath (hdir : dir.isEmpty = false) :
    Migration.discover fs dir ≠ .error .emptyPath := by
  intro h
  cases hlist : fs.listDir dir with
  | error cause =>
    rw [discover_of_unlisted hdir hlist] at h
    cases h
  | ok entries =>
    rw [discover_of_listed hdir hlist] at h
    by_cases haccepted : ∀ name ∈ keptNames entries, Accepted name
    · rcases ofEntries_of_accepted haccepted with ⟨ms, hok⟩ | ⟨_, _, _, hdup, -⟩
      · rw [hok] at h
        cases h
      · rw [hdup] at h
        cases h
    · obtain ⟨cause, hrefused⟩ := ofEntries_of_not_accepted (by simpa using haccepted)
      rw [hrefused] at h
      cases h

lemma not_isArgumentError_discovery (hdir : dir.isEmpty = false) {cause : DiscoveryError}
    (h : Migration.discover fs dir = .error cause) : ¬ IsArgumentError (.discovery cause) := by
  cases cause with
  | emptyPath => exact absurd h (discover_ne_emptyPath hdir)
  | directoryRead | invalidFilename | duplicateVersion => exact id

lemma RunTrace.not_isArgumentError (h : RunTrace table fs dir bound log (.error e))
    (hdir : dir.isEmpty = false) (hbound : bound ≠ some 0) : ¬ IsArgumentError e := by
  generalize hr : Except.error e = r at h
  cases h with
  | emptyPath empty =>
    rw [empty] at hdir
    cases hdir
  | invalidVersion _ zero => exact absurd zero hbound
  | tableCreation | versionNotFound =>
    obtain rfl := Except.error.inj hr
    exact id
  | discovery _ _ undiscovered =>
    obtain rfl := Except.error.inj hr
    exact not_isArgumentError_discovery hdir undiscovered
  | blocks _ _ _ _ blocks =>
    obtain rfl := hr
    obtain ⟨_, m, _, _, log₂, _, -, -, -, hblock⟩ := blocks.split_error
    cases hblock <;> exact id

lemma ListTrace.not_isArgumentError (h : ListTrace table fs dir log (.error e))
    (hdir : dir.isEmpty = false) : ¬ IsArgumentError e := by
  cases h with
  | emptyPath empty =>
    rw [empty] at hdir
    cases hdir
  | tableCreation | query => exact id
  | discovery _ undiscovered => exact not_isArgumentError_discovery hdir undiscovered

end Engine

section Command

variable {disk : Disk} {words : List String} {env : Option String} {arguments : Arguments}
  {context : Context} {table : TableName} {db : Database σ} {fs : FileSystem} {s : σ}

/-- A result that is told to the reader keeps the engine's error at the root. -/
lemma told_error {α : Type} {p : Program (Except EngineError α)} {tell : α → String}
    {contexts : List String} {e : CommandError} {cause : EngineError}
    (h : (observe db (p.bind fun result => .done
      ((result.map tell).mapError fun e => (⟨contexts, .engine e⟩ : CommandError))) s).value =
        .error e) (hroot : e.root = .engine cause) : (observe db p s).value = .error cause := by
  rw [observe_bind] at h
  obtain ⟨cause', hcause, rfl⟩ := error_eq_mapError.mp h.symm
  rw [map_eq_error.mp hcause, Cli.RootError.engine.inj hroot]

/-- The engine's error at the root of a failed command is that of its run or report. -/
lemma commandProgram_error {command : Command} {e : CommandError} {cause : EngineError}
    (htable : TableName.parse context.config.trackingTable = .ok table)
    (h : (observe db (commandProgram fs context command) s).value = .error e)
    (hroot : e.root = .engine cause) :
    (∃ bound, command = .run bound ∧ (observe db
      (ExceptT.run (Engine.run table fs context.migrationsDir bound)) s).value = .error cause) ∨
    (observe db (ExceptT.run (Engine.list table fs context.migrationsDir)) s).value =
      .error cause := by
  unfold commandProgram at h
  rw [htable] at h
  cases command with
  | run bound => exact .inl ⟨bound, rfl, told_error h hroot⟩
  | status json => exact .inr (told_error h hroot)

/-- A command that has loaded its context asks the engine for nothing that it refuses at once,
whatever databases and files it meets. -/
theorem loaded_context_accepted (hparse : Cli.parse words env = .ok arguments)
    (hdir : arguments.global.dir ≠ some "")
    (hload : loadContext disk arguments.global = .ok context) :
    context.config.validate = .ok () ∧ context.migrationsDir.isEmpty = false ∧
    ∃ table, TableName.parse context.config.trackingTable = .ok table ∧
      table.text = context.config.trackingTable ∧
      ∀ (σ : Type) (db : Database σ) (fs : FileSystem) (s : σ),
        (∀ bound, arguments.command = .run bound → ∀ e, (observe db
          (ExceptT.run (Engine.run table fs context.migrationsDir bound)) s).value = .error e →
            ¬ IsArgumentError e) ∧
        (∀ e, (observe db
          (ExceptT.run (Engine.list table fs context.migrationsDir)) s).value = .error e →
            ¬ IsArgumentError e) ∧
        ∀ e cause, (observe db (commandProgram fs context arguments.command) s).value = .error e →
          e.root = .engine cause → ¬ IsArgumentError cause := by
  have hvalid := loadConfig_validates (loadContext_eq_ok hload).1
  have hnonempty := migrationsDir_nonempty hdir hload
  obtain ⟨table, htable, htext⟩ := parse_trackingTable hvalid
  refine ⟨hvalid, hnonempty, table, htable, htext, fun σ db fs s => ?_⟩
  have hrun : ∀ bound, arguments.command = .run bound → ∀ e, (observe db
      (ExceptT.run (Engine.run table fs context.migrationsDir bound)) s).value = .error e →
        ¬ IsArgumentError e := by
    intro bound hcommand e he
    have htrace := run_yields (observe_yields db
      (ExceptT.run (Engine.run table fs context.migrationsDir bound)) s)
    rw [he] at htrace
    exact htrace.not_isArgumentError hnonempty (bound_ne_zero hparse hcommand)
  have hlist : ∀ e, (observe db
      (ExceptT.run (Engine.list table fs context.migrationsDir)) s).value = .error e →
        ¬ IsArgumentError e := by
    intro e he
    have htrace := list_yields (observe_yields db
      (ExceptT.run (Engine.list table fs context.migrationsDir)) s)
    rw [he] at htrace
    exact htrace.not_isArgumentError hnonempty
  refine ⟨hrun, hlist, fun e cause he hroot => ?_⟩
  rcases commandProgram_error htable he hroot with ⟨bound, hcommand, hcause⟩ | hcause
  · exact hrun bound hcommand cause hcause
  · exact hlist cause hcause

end Command

/-- A tree whose working directory holds a configuration under the second of the two names. -/
def configuredDisk : Disk :=
  Disk.empty.put (Disk.empty.cwd ++ ["tidemark.yaml".toUTF8.data.toList])
    (.file "tracking_table: order\nmigrations_dir: ./db\n".toUTF8)

/-- The project directory is the empty text, and the tracking table has the name of a keyword. -/
theorem loaded_context_accepted_empty_root : ∃ arguments context,
    Cli.parse ["-p", "", "run", "--to-version", "+01"] none = .ok arguments ∧
      arguments.global.dir ≠ some "" ∧
      loadContext configuredDisk arguments.global = .ok context ∧
      context.config.validate = .ok () ∧ context.migrationsDir = ⟨"./db"⟩ ∧
      ∃ table, TableName.parse context.config.trackingTable = .ok table ∧ table.text = "order" := by
  have hparse : Cli.parse ["-p", "", "run", "--to-version", "+01"] none =
      .ok ⟨{ projectDir := "" }, .run (some 1)⟩ := by decide +kernel
  have hload : loadContext configuredDisk { projectDir := "" } =
      .ok ⟨{ migrationsDir := ⟨"./db"⟩, trackingTable := "order" }, ⟨":memory:"⟩, ⟨"./db"⟩⟩ :=
    eq_ok_of_toOption (by decide +kernel)
  obtain ⟨hvalid, -, table, htable, htext, -⟩ :=
    loaded_context_accepted hparse (by decide) hload
  exact ⟨_, _, hparse, by decide, hload, hvalid, rfl, table, htable, htext⟩

end SqlMigrations.Proofs
