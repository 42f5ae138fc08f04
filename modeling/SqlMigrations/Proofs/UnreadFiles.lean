import SqlMigrations.Engine.Status
import SqlMigrations.FileSystem.Overlay
import SqlMigrations.Proofs.DiscoveryResult
import SqlMigrations.Proofs.RunOutcome

/-!
# Files that are not read

A run reads a body only after the check of its file counts no row, and a report reads none. So both
do the same over two file systems that list the same kept names, in whatever order and among
whatever other entries, as long as the bodies that the run reads are the same.
-/

namespace SqlMigrations.Proofs

variable {σ : Type}

/-- The listings of a directory hold the same kept names, and each of these is accepted. -/
def ListedAlike (dir : Path) (fs fs' : FileSystem) : Prop :=
  ∃ entries entries', fs.listDir dir = .ok entries ∧ fs'.listDir dir = .ok entries' ∧
    (keptNames entries).Perm (keptNames entries') ∧ ∀ name ∈ keptNames entries, Accepted name

/-- The file name that an exchange checks and finds without a row. -/
def unappliedFile? (table : TableName) (e : Exchange σ) : Option String :=
  match e with
  | ⟨.queryRow sql [.text f], .ok reply, _, _⟩ =>
    if sql = Statement.check.text table ∧ (TableName.countsRow reply).toOption = some false then
      some f
    else none
  | _ => none

def unappliedFiles (table : TableName) (log : List (Exchange σ)) : List String :=
  log.filterMap (unappliedFile? table)

lemma unappliedFiles_append {table : TableName} {log log' : List (Exchange σ)} :
    unappliedFiles table (log ++ log') = unappliedFiles table log ++ unappliedFiles table log' :=
  List.filterMap_append

lemma ListedAlike.discover {dir : Path} {fs fs' : FileSystem} (h : ListedAlike dir fs fs') :
    Migration.discover fs' dir = Migration.discover fs dir := by
  obtain ⟨entries, entries', hlist, hlist', hperm, haccepted⟩ := h
  by_cases hdir : dir.isEmpty = true
  · unfold Migration.discover
    rw [if_pos hdir, if_pos hdir]
    rfl
  · rw [Bool.not_eq_true] at hdir
    rw [discover_of_listed hdir hlist, discover_of_listed hdir hlist']
    exact ofEntries_of_perm hperm haccepted

/-- The second program does what the first does from every state from which the files that the first
finds without a row are alike. -/
def Unaffected {α : Type} (table : TableName) (db : Database σ) (alike : String → Prop)
    (p p' : Engine α) : Prop :=
  ∀ s, (∀ f ∈ unappliedFiles table (observe db (ExceptT.run p) s).log, alike f) →
    observe db (ExceptT.run p') s = observe db (ExceptT.run p) s

section Unaffected

variable {α β : Type} {table : TableName} {db : Database σ} {alike : String → Prop}

lemma Unaffected.refl (p : Engine α) : Unaffected table db alike p p := by
  intro s _
  rfl

/-- The second part may use what the first part has found. -/
lemma Unaffected.andThen {x x' : Engine α} {next next' : α → Engine β}
    (hx : Unaffected table db alike x x')
    (hnext : ∀ a s, (observe db (ExceptT.run x) s).value = .ok a →
      (∀ f ∈ unappliedFiles table (observe db (ExceptT.run x) s).log, alike f) →
      Unaffected table db alike (next a) (next' a)) :
    Unaffected table db alike (x >>= next) (x' >>= next') := by
  intro s halike
  rw [observe_andThen] at halike
  rw [observe_andThen, observe_andThen]
  cases hvalue : (observe db (ExceptT.run x) s).value with
  | error e =>
    simp only [hvalue] at halike
    simp only [hx s halike, hvalue]
  | ok a =>
    simp only [hvalue, unappliedFiles_append, List.mem_append] at halike
    have hfirst : ∀ f ∈ unappliedFiles table (observe db (ExceptT.run x) s).log, alike f := by
      intro f hf
      exact halike f (.inl hf)
    have hrest := hnext a s hvalue hfirst (observe db (ExceptT.run x) s).state fun f hf =>
      halike f (.inr hf)
    simp only [hx s hfirst, hvalue, hrest]

end Unaffected

section Engine

variable {table : TableName} {db : Database σ} {alike : String → Prop} {fs fs' : FileSystem}
  {dir : Path} {bound : Option UInt64} {m : Migration} {ms : List Migration}

lemma mem_unappliedFiles {filename : String} {s : σ}
    (h : (observe db (ExceptT.run (table.isApplied filename)) s).value = .ok false) :
    filename ∈ unappliedFiles table
      (observe db (ExceptT.run (table.isApplied filename)) s).log := by
  obtain ⟨reply, before, after, hlog, hvalue⟩ := isApplied_yields (observe_yields db _ s)
  rw [hvalue] at h
  rw [hlog]
  cases reply with
  | error e => cases h
  | ok reply =>
    have hcount : TableName.countsRow reply = .ok false := ok_eq_mapError.mp h.symm
    simp [unappliedFiles, unappliedFile?, hcount, Except.toOption]

lemma applyOne_congr
    (hread : fs'.readBytes (dir.join ⟨m.filename⟩) = fs.readBytes (dir.join ⟨m.filename⟩)) :
    Engine.applyOne table fs' dir m = Engine.applyOne table fs dir m := by
  unfold Engine.applyOne FileSystem.readText
  rw [hread]

lemma Unaffected.step (summary : RunSummary) (hread : alike m.filename →
      fs'.readBytes (dir.join ⟨m.filename⟩) = fs.readBytes (dir.join ⟨m.filename⟩)) :
    Unaffected table db alike (Engine.step table fs dir summary m)
      (Engine.step table fs' dir summary m) := by
  unfold Engine.step
  apply Unaffected.andThen (.refl _)
  intro isApplied s hvalue halike
  cases isApplied with
  | true => exact .refl _
  | false =>
    have happly : Engine.applyOne table fs' dir m = Engine.applyOne table fs dir m :=
      applyOne_congr (hread (halike _ (mem_unappliedFiles hvalue)))
    rw [happly]
    exact .refl _

lemma Unaffected.loop (summary : RunSummary) (hread : ∀ m ∈ ms, alike m.filename →
      fs'.readBytes (dir.join ⟨m.filename⟩) = fs.readBytes (dir.join ⟨m.filename⟩)) :
    Unaffected table db alike (ms.foldlM (Engine.step table fs dir) summary)
      (ms.foldlM (Engine.step table fs' dir) summary) := by
  induction ms generalizing summary with
  | nil => exact .refl _
  | cons m ms ih =>
    rw [List.foldlM_cons, List.foldlM_cons]
    apply Unaffected.andThen (Unaffected.step summary (hread m List.mem_cons_self))
    intro summary' s _ _
    exact ih summary' fun m' hm' => hread m' (List.mem_cons_of_mem m hm')

lemma Unaffected.run (hlisted : ListedAlike dir fs fs')
    (hread : ∀ ms, Migration.discover fs dir = .ok ms → ∀ m ∈ ms, Engine.isWithin bound m = true →
      alike m.filename →
        fs'.readBytes (dir.join ⟨m.filename⟩) = fs.readBytes (dir.join ⟨m.filename⟩)) :
    Unaffected table db alike (Engine.run table fs dir bound) (Engine.run table fs' dir bound) := by
  unfold Engine.run Engine.discover
  rw [hlisted.discover]
  by_cases hdir : dir.isEmpty = true
  · rw [if_pos hdir, if_pos hdir]
    apply Unaffected.andThen (.refl _)
    intro u s hthrown _
    cases hthrown
  rw [if_neg hdir, if_neg hdir]
  by_cases hbound : bound = some 0
  · simp only [if_pos hbound]
    apply Unaffected.andThen (.refl _)
    intro u s hthrown _
    cases hthrown
  simp only [if_neg hbound]
  apply Unaffected.andThen (.refl _)
  intro u s _ _
  apply Unaffected.andThen (.refl _)
  intro ms s hdisc _
  apply Unaffected.andThen (.refl _)
  intro u s _ _
  have hms : Migration.discover fs dir = .ok ms := ok_eq_mapError.mp hdisc.symm
  apply Unaffected.loop
  intro m hm halike
  rw [takeWhile_isWithin bound (discover_ascending hms)] at hm
  obtain ⟨hmem, hwithin⟩ := List.mem_filter.mp hm
  exact hread ms hms m hmem hwithin halike

/-- What is applied already or out of range has no part in a run, nor has any other entry of the
directory, and no body has a part in a report. -/
theorem unread_files_irrelevant (hlisted : ListedAlike dir fs fs') :
    (∀ bound s,
      let o := observe db (ExceptT.run (Engine.run table fs dir bound)) s
      (∀ ms, Migration.discover fs dir = .ok ms → ∀ m ∈ ms, Engine.isWithin bound m = true →
        m.filename ∈ unappliedFiles table o.log →
          fs'.readBytes (dir.join ⟨m.filename⟩) = fs.readBytes (dir.join ⟨m.filename⟩)) →
      observe db (ExceptT.run (Engine.run table fs' dir bound)) s = o) ∧
    ∀ s, observe db (ExceptT.run (Engine.list table fs' dir)) s =
      observe db (ExceptT.run (Engine.list table fs dir)) s := by
  constructor
  · intro bound s o hread
    exact Unaffected.run hlisted hread s fun f hf => hf
  · intro s
    unfold Engine.list Engine.discover
    rw [hlisted.discover]

end Engine

/-- The three files among other entries, the second and the third of them no longer to be read. -/
def alteredFiles : FileSystem :=
  (((Overlay.setListing {} ⟨"m"⟩ (.ok [⟨"README.md", true⟩, ⟨"3_c.sql", true⟩, ⟨"2_b.sql", true⟩,
    ⟨"0_old.sql", false⟩, ⟨"1_a.sql", true⟩])).failRead ⟨"m/2_b.sql"⟩ .notFound).failRead
      ⟨"m/3_c.sql"⟩ .isADirectory).cover threeFiles.fileSystem

/-- The second file has its row and the third is above the bound. -/
theorem unread_files_irrelevant_late :
    ListedAlike ⟨"m"⟩ threeFiles.fileSystem alteredFiles ∧ (observe liveDatabase
      (ExceptT.run (Engine.run .default alteredFiles ⟨"m"⟩ (some 2))) lateStore).value =
        .ok ⟨["1_a.sql"], 1, some 2⟩ := by
  have hlisted : ListedAlike ⟨"m"⟩ threeFiles.fileSystem alteredFiles :=
    ⟨[⟨"1_a.sql", true⟩, ⟨"2_b.sql", true⟩, ⟨"3_c.sql", true⟩], _, by decide +kernel, rfl,
      by decide +kernel, by decide +kernel⟩
  have hunapplied : unappliedFiles .default (observe liveDatabase
      (ExceptT.run (Engine.run .default threeFiles.fileSystem ⟨"m"⟩ (some 2))) lateStore).log =
        ["1_a.sql"] := by
    rw [observe_run_of_created threeFiles_discover (by decide) (checkBound_eq_ok.mp rfl)
      live_create]
    decide +kernel
  have hsame := (unread_files_irrelevant hlisted).1 (some 2) lateStore (by
    intro ms _ m _ _ hm
    rw [hunapplied, List.mem_singleton] at hm
    rw [hm]
    decide +kernel)
  rw [hsame]
  exact ⟨hlisted, late_run_value⟩

end SqlMigrations.Proofs
