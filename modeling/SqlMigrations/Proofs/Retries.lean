import Mathlib.Tactic.FinCases
import SqlMigrations.Database.Recorder
import SqlMigrations.FileSystem.Overlay
import SqlMigrations.Proofs.AddedFiles

/-!
# Retries

Attempts at one directory with one bound, each of which may fail anywhere: in a call to the database,
in the listing or in a read. Every attempt adds a beginning of what was pending before it, so once an
attempt ends well, all attempts together have added what a single one would have.
-/

namespace SqlMigrations.Proofs

variable {σ τ : Type}

/-- What a file system answers about a directory agrees with another one; it may fail to answer. -/
structure AgreesOn (dir : Path) (fs fs' : FileSystem) : Prop where
  listing : ∀ entries, fs'.listDir dir = .ok entries →
    ∃ entries', fs.listDir dir = .ok entries' ∧ entries'.Perm entries
  reading : ∀ f bytes, fs'.readBytes (dir.join ⟨f⟩) = .ok bytes →
    fs.readBytes (dir.join ⟨f⟩) = .ok bytes

/-- A try at a run, with the database and the files as they behave meanwhile. -/
structure Attempt (σ : Type) where
  db : Database σ
  fs : FileSystem

def Attempt.perform (table : TableName) (dir : Path) (bound : Option UInt64) (a : Attempt σ)
    (s : σ) : Observation σ (Except EngineError RunSummary) :=
  observe a.db (ExceptT.run (Engine.run table a.fs dir bound)) s

/-- An attempt at the runs of a directory, over a database that tracks and keeps its rows when a call
fails. -/
structure Attempt.Faithful (table : TableName) (rows : σ → List StoredRow) (fs : FileSystem)
    (dir : Path) (a : Attempt σ) : Prop where
  agrees : AgreesOn dir fs a.fs
  tracks : Tracks table a.db rows (IsBody fs dir)
  keeps : FailedRecordsKeep table a.db rows

/-- Attempts one after the other. -/
def retries (table : TableName) (dir : Path) (bound : Option UInt64) :
    List (Attempt σ) → σ → List (Observation σ (Except EngineError RunSummary))
  | [], _ => []
  | a :: attempts, s =>
    a.perform table dir bound s ::
      retries table dir bound attempts (a.perform table dir bound s).state

def stateAfter {α : Type} : σ → List (Observation σ α) → σ
  | s, [] => s
  | _, o :: os => stateAfter o.state os

section Equations

variable {table : TableName} {dir : Path} {bound : Option UInt64} {a : Attempt σ}
  {attempts : List (Attempt σ)} {s : σ}

lemma retries_nil : retries table dir bound [] s = [] := rfl

lemma retries_cons : retries table dir bound (a :: attempts) s =
    a.perform table dir bound s ::
      retries table dir bound attempts (a.perform table dir bound s).state := rfl

lemma stateAfter_retries_cons : stateAfter s (retries table dir bound (a :: attempts) s) =
    stateAfter (a.perform table dir bound s).state
      (retries table dir bound attempts (a.perform table dir bound s).state) := rfl

end Equations

/-- The errors that another attempt at the same directory and bound may not meet. -/
def MayPass : EngineError → Prop
  | .tableCreation .. | .discovery _ | .check .. | .read .. | .execution .. | .record .. => True
  | _ => False

lemma pending_append_recorded {ms : List Migration} {recorded p q : List String}
    (hms : (ms.map fun m => m.filename).Nodup) (h : pending ms recorded = p ++ q) :
    pending ms (recorded ++ p) = q := by
  have hnodup : (p ++ q).Nodup := by
    rw [← h]
    exact hms.filter _
  have hpending : pending ms (recorded ++ p) = (pending ms recorded).filter fun f => f ∉ p := by
    unfold pending
    rw [List.filter_filter]
    refine List.filter_congr fun f _ => ?_
    simp [Bool.and_comm]
  have hp : p.filter (fun f => f ∉ p) = [] := by simp
  have hq : q.filter (fun f => f ∉ p) = q := by
    rw [List.filter_eq_self]
    intro f hf
    have hne := (List.nodup_append.mp hnodup).2.2
    simpa using fun hfp => hne f hfp f hf rfl
  rw [hpending, h, List.filter_append, hp, hq, List.nil_append]

section Agreement

variable {fs fs' : FileSystem} {dir : Path} {ms : List Migration} {text : String}

lemma AgreesOn.discover (h : AgreesOn dir fs fs') (hms : Migration.discover fs' dir = .ok ms) :
    Migration.discover fs dir = .ok ms :=
  discover_of_perm hms h.listing

lemma AgreesOn.isBody (h : AgreesOn dir fs fs') (htext : IsBody fs' dir text) :
    IsBody fs dir text := by
  obtain ⟨ms, hms, m, hm, hread⟩ := htext
  exact ⟨ms, h.discover hms, m, hm, h.reading _ _ hread⟩

end Agreement

section Attempt

variable {table : TableName} {rows : σ → List StoredRow} {fs : FileSystem} {dir : Path}
  {bound : Option UInt64} {ms : List Migration} {a : Attempt σ} {s : σ}

lemma Leaves.beginning {before after : List StoredRow} {log : List (Exchange σ)}
    {e : EngineError} (h : Leaves table fs dir bound before after log e)
    (hms : ∀ ms', Migration.discover fs dir = .ok ms' → ms' = ms) :
    ∃ p, names after = names before ++ p ∧
      p <+: pending (ms.filter (Engine.isWithin bound)) (names before) := by
  cases e with
  | emptyPath | invalidVersion | tableCreation | discovery | versionNotFound =>
    obtain ⟨-, rfl⟩ := h
    exact ⟨[], by simp, List.nil_prefix⟩
  | check | read | execution | record =>
    obtain ⟨ms', m, p, -, hstops⟩ := h
    obtain ⟨added, hadded, hnames⟩ := hstops.recorded
    obtain rfl := hms ms' hstops.discovered
    refine ⟨p, ?_, hstops.isPrefix⟩
    rw [hadded, names_append, hnames]
  | query | invalidTableName => exact h.elim

/-- A body that is executed and not recorded is that of a file without a row. -/
lemma RunTrace.unrecorded_pending {db : Database σ} {log : List (Exchange σ)} {t : σ} {f : String}
    {cause : DatabaseError} (hdb : Tracks table db rows (IsBody fs dir))
    (hfail : FailedRecordsKeep table db rows)
    (hms : ∀ ms', Migration.discover fs dir = .ok ms' → ms' = ms)
    (h : RunTrace table fs dir bound log (.error (.record f cause))) (hl : Linked db s log t) :
    f ∈ pending (ms.filter (Engine.isWithin bound)) (names (rows t)) := by
  cases h with
  | @blocks ms' _ _ _ _ _ _ discovered _ blocks =>
    obtain rfl := hms ms' discovered
    obtain ⟨-, -, hrest⟩ := hl
    obtain ⟨passed, m, rest, log₁, log₂, -, hsplit, rfl, -, hblock⟩ := blocks.split_error
    obtain ⟨u, -, hl₂⟩ := linked_append.mp hrest
    have hm : m ∈ ms'.filter (Engine.isWithin bound) :=
      hsplit ▸ List.mem_append_right _ List.mem_cons_self
    have hkept : rows t = rows u := hblock.rows_of_failed hdb hfail
      (fun text hread => ⟨ms', discovered, m, List.mem_of_mem_filter hm, hread⟩) hl₂
    cases hblock with
    | recordFailed uncounted _ =>
      obtain ⟨rfl, hcheck, -⟩ := hl₂
      rw [hkept, mem_pending]
      exact ⟨⟨m, hm, rfl⟩, hdb.notMem_of_countsNone hcheck uncounted⟩

/-- What an attempt does: it adds a beginning of what is pending, all of it if it ends well, and
executes one body for each file that it adds and one more if its last record fails. -/
structure Advance (table : TableName) (rows : σ → List StoredRow) (fs : FileSystem) (dir : Path)
    (due : List Migration) (s : σ) (o : Observation σ (Except EngineError RunSummary)) : Prop where
  added : names (rows o.state) = names (rows s) ++ addedFiles table o.log
  left : pending due (names (rows s)) =
    addedFiles table o.log ++ pending due (names (rows o.state))
  done : ∀ summary, o.value = .ok summary → pending due (names (rows o.state)) = []
  executed : executedFiles table o.log = addedFiles table o.log ++ (unrecorded? o.value).toList
  unrecorded : ∀ f, unrecorded? o.value = some f → f ∈ pending due (names (rows s))
  text : ∀ f text, (f, text) ∈ executions table o.log →
    fs.readBytes (dir.join ⟨f⟩) = .ok text.toUTF8

lemma Attempt.Faithful.advances (ha : a.Faithful table rows fs dir)
    (hms : Migration.discover fs dir = .ok ms) :
    Advance table rows fs dir (ms.filter (Engine.isWithin bound)) s
      (a.perform table dir bound s) := by
  set o := a.perform table dir bound s
  have hl : Linked a.db s o.log o.state := observe_linked a.db _ s
  have htrace : RunTrace table a.fs dir bound o.log o.value := run_yields (observe_yields a.db _ s)
  have hdb : Tracks table a.db rows (IsBody a.fs dir) :=
    ha.tracks.mono fun text htext => ha.agrees.isBody htext
  have hadded : names (rows o.state) = names (rows s) ++ addedFiles table o.log :=
    names_of_linked_appends hl fun x hx =>
      htrace.appends hdb ha.keeps (fun _ htext => htext) hx (linked_answer hl hx)
  have hsame : ∀ ms', Migration.discover a.fs dir = .ok ms' → ms' = ms := by
    intro ms' hms'
    have h := ha.agrees.discover hms'
    rw [hms] at h
    exact (Except.ok.inj h).symm
  have hprefix : ∃ q, pending (ms.filter (Engine.isWithin bound)) (names (rows s)) =
      addedFiles table o.log ++ q ∧ ∀ summary, o.value = .ok summary → q = [] := by
    cases hvalue : o.value with
    | error e =>
      rw [hvalue] at htrace
      obtain ⟨p, hp, q, hq⟩ := (htrace.error_effect hdb ha.keeps hl).beginning hsame
      rw [hadded, List.append_cancel_left_eq] at hp
      exact ⟨q, by rw [hp, hq], nofun⟩
    | ok summary =>
      rw [hvalue] at htrace
      obtain ⟨ms', rest, hms', -, -, -, added, hrows, hnames⟩ := htrace.ok_effect hdb hl
      obtain rfl := hsame ms' hms'
      rw [hrows, names_append, List.append_cancel_left_eq] at hadded
      exact ⟨[], by rw [← hadded, hnames, List.append_nil], fun _ _ => rfl⟩
  obtain ⟨q, hq, hdone⟩ := hprefix
  have hleft : pending (ms.filter (Engine.isWithin bound)) (names (rows o.state)) = q := by
    rw [hadded]
    exact pending_append_recorded (filter_filenames_nodup hms _) hq
  refine ⟨hadded, by rw [hleft, hq], fun summary hvalue => ?_, ?_, fun f hf => ?_,
    fun f text hp => ha.agrees.reading _ _ (htrace.executed_text hp)⟩
  · rw [hleft]
    exact hdone summary hvalue
  · obtain ⟨added, hrows, hexecuted⟩ := (htrace.adds hdb ha.keeps hl).rows
    rw [hrows, names_append, List.append_cancel_left_eq] at hadded
    rw [hexecuted, hadded]
  · obtain ⟨cause, hvalue⟩ := eq_record_of_unrecorded? hf
    rw [hvalue] at htrace
    rw [hq, ← hleft]
    exact List.mem_append_right _ (htrace.unrecorded_pending hdb ha.keeps hsame hl)

lemma exists_attempt_of_mem_retries {attempts : List (Attempt σ)}
    {o : Observation σ (Except EngineError RunSummary)}
    (ho : o ∈ retries table dir bound attempts s) :
    ∃ a ∈ attempts, ∃ t, o = a.perform table dir bound t := by
  induction attempts generalizing s with
  | nil => cases ho
  | cons a attempts ih =>
    rcases List.mem_cons.mp ho with rfl | ho
    · exact ⟨a, List.mem_cons_self, s, rfl⟩
    · obtain ⟨a', ha', t, rfl⟩ := ih ho
      exact ⟨a', List.mem_cons_of_mem a ha', t, rfl⟩

lemma RunTrace.discovered {log : List (Exchange σ)} {summary : RunSummary}
    (h : RunTrace table fs dir bound log (.ok summary)) :
    ∃ ms, Migration.discover fs dir = .ok ms := by
  cases h with
  | blocks _ _ discovered => exact ⟨_, discovered⟩

/-- Where one run ends well, none on the same migrations meets an error that stays. -/
lemma RunTrace.mayPass {fs' : FileSystem} {log : List (Exchange σ)} {log' : List (Exchange τ)}
    {summary : RunSummary} {e : EngineError}
    (hwell : RunTrace table fs' dir bound log' (.ok summary))
    (hfailed : RunTrace table fs dir bound log (.error e))
    (hsame : ∀ ms, Migration.discover fs dir = .ok ms → Migration.discover fs' dir = .ok ms) :
    MayPass e := by
  generalize hr : Except.error e = r at hfailed
  cases hwell with
  | blocks nonempty positive discovered found _ =>
    cases hfailed with
    | emptyPath empty =>
      rw [nonempty] at empty
      cases empty
    | invalidVersion _ zero => exact absurd zero positive
    | tableCreation | discovery =>
      obtain rfl := Except.error.inj hr
      trivial
    | versionNotFound _ _ discovered' bounded missing =>
      have hms := hsame _ discovered'
      rw [discovered] at hms
      obtain rfl := Except.ok.inj hms
      obtain ⟨m, hm, hversion⟩ := found _ bounded
      exact absurd hversion (missing m hm)
    | blocks _ _ _ _ blocks =>
      obtain rfl := hr
      obtain ⟨_, m, _, _, log, _, -, -, -, hblock⟩ := blocks.split_error
      cases hblock with
      | checkFailed | undecoded | unread | bodyFailed | recordFailed => trivial

/-- What attempts do together. -/
structure Advances (table : TableName) (rows : σ → List StoredRow) (fs : FileSystem) (dir : Path)
    (due : List Migration) (s t : σ)
    (os : List (Observation σ (Except EngineError RunSummary))) : Prop where
  each : Throughout (fun earlier o => names (rows o.state) =
    names (rows (stateAfter s earlier)) ++ addedFiles table o.log) os
  added : names (rows t) = names (rows s) ++ os.flatMap fun o => addedFiles table o.log
  left : pending due (names (rows s)) =
    (os.flatMap fun o => addedFiles table o.log) ++ pending due (names (rows t))
  executed : ∀ f, (os.flatMap fun o => executedFiles table o.log).count f =
    (os.flatMap fun o => addedFiles table o.log).count f +
      (os.filterMap fun o => unrecorded? o.value).count f
  unrecorded : ∀ f ∈ os.filterMap fun o => unrecorded? o.value, f ∈ pending due (names (rows s))
  text : ∀ o ∈ os, ∀ f text, (f, text) ∈ executions table o.log →
    fs.readBytes (dir.join ⟨f⟩) = .ok text.toUTF8

lemma unrecorded_cons {o : Observation σ (Except EngineError RunSummary)}
    {os : List (Observation σ (Except EngineError RunSummary))} :
    (o :: os).filterMap (fun o => unrecorded? o.value) =
      (unrecorded? o.value).toList ++ os.filterMap fun o => unrecorded? o.value := by
  cases ho : unrecorded? o.value <;> simp [ho]

lemma Advances.nil {due : List Migration} : Advances table rows fs dir due s s [] := by
  refine ⟨throughout_nil, ?_, ?_, ?_, ?_, ?_⟩ <;> simp

lemma Advance.cons {due : List Migration} {t : σ}
    {o : Observation σ (Except EngineError RunSummary)}
    {os : List (Observation σ (Except EngineError RunSummary))}
    (h : Advance table rows fs dir due s o) (hrest : Advances table rows fs dir due o.state t os) :
    Advances table rows fs dir due s t (o :: os) where
  each := throughout_cons.mpr ⟨h.added, hrest.each⟩
  added := by
    rw [hrest.added, h.added, List.flatMap_cons, List.append_assoc]
  left := by
    rw [h.left, hrest.left, List.flatMap_cons, List.append_assoc]
  executed f := by
    have htail := hrest.executed f
    rw [unrecorded_cons, List.flatMap_cons, List.flatMap_cons, h.executed]
    simp only [List.count_append]
    omega
  unrecorded f hf := by
    obtain ⟨o', ho', hfo'⟩ := List.mem_filterMap.mp hf
    rcases List.mem_cons.mp ho' with rfl | ho'
    · exact h.unrecorded f hfo'
    · rw [h.left]
      exact List.mem_append_right _ (hrest.unrecorded f (List.mem_filterMap.mpr ⟨o', ho', hfo'⟩))
  text o' ho' := by
    rcases List.mem_cons.mp ho' with rfl | ho'
    · exact h.text
    · exact hrest.text o' ho'

lemma Advance.names_of_ok {due : List Migration}
    {o : Observation σ (Except EngineError RunSummary)} {summary : RunSummary}
    (h : Advance table rows fs dir due s o) (hok : o.value = .ok summary) :
    names (rows o.state) = names (rows s) ++ pending due (names (rows s)) := by
  have hleft := h.left
  rw [h.done summary hok, List.append_nil] at hleft
  rw [h.added, hleft]

/-- Attempts advance together, whether they fail or not. -/
theorem Attempt.advances_all {attempts : List (Attempt σ)} {last : Attempt σ}
    (hms : Migration.discover fs dir = .ok ms)
    (h : ∀ a ∈ attempts ++ [last], a.Faithful table rows fs dir) :
    let earlier := retries table dir bound attempts s
    let final := last.perform table dir bound (stateAfter s earlier)
    Advances table rows fs dir (ms.filter (Engine.isWithin bound)) s final.state
      (earlier ++ [final]) := by
  induction attempts generalizing s with
  | nil =>
    have hlast : Advance table rows fs dir (ms.filter (Engine.isWithin bound)) s
        (last.perform table dir bound s) := (h last (List.mem_singleton_self last)).advances hms
    exact hlast.cons .nil
  | cons a attempts ih =>
    have ha : Advance table rows fs dir (ms.filter (Engine.isWithin bound)) s
        (a.perform table dir bound s) := (h a List.mem_cons_self).advances hms
    exact ha.cons (ih fun a' ha' => h a' (List.mem_cons_of_mem a ha'))

end Attempt

/-- A database whose calls fail that a rule covers. -/
def refusing (rule : FailureRule) (db : Database σ) : Database σ := fun c s =>
  if rule.covers c then (.error (Recorder.injected c), s) else (db c).run s

section Refusing

variable {table : TableName} {rows : σ → List StoredRow} {rule : FailureRule} {db : Database σ}
  {bodies : String → Prop}

lemma refusing_run (rule : FailureRule) (db : Database σ) (c : Call) (s : σ) :
    (refusing rule db c).run s = (db c).run s ∨
      (refusing rule db c).run s = (.error (Recorder.injected c), s) := by
  by_cases h : rule.covers c = true
  · exact .inr (if_pos h)
  · exact .inl (if_neg h)

lemma refusing_of_kind_ne {c : Call} (h : rule.kind ≠ c.kind) (s : σ) :
    (refusing rule db c).run s = (db c).run s := by
  have huncovered : rule.covers c = false := by simp [FailureRule.covers, h]
  exact if_neg (by simp [huncovered])

lemma rows_refusing {c : Call} {s : σ} (h : rows ((db c).run s).2 = rows s) :
    rows ((refusing rule db c).run s).2 = rows s := by
  rcases refusing_run rule db c s with hrun | hrun
  · rw [hrun, h]
  · rw [hrun]

lemma eq_of_refusing_ok {c : Call} {s t : σ} {reply : c.Reply}
    (h : (refusing rule db c).run s = (.ok reply, t)) : (db c).run s = (.ok reply, t) := by
  rcases refusing_run rule db c s with hrun | hrun
  · rw [← hrun, h]
  · rw [hrun] at h
    cases h

lemma Tracks.refusing (h : Tracks table db rows bodies) :
    Tracks table (refusing rule db) rows bodies where
  create_keeps s := rows_refusing (h.create_keeps s)
  body_keeps text s htext := rows_refusing (h.body_keeps text s htext)
  check_keeps f s := rows_refusing (h.check_keeps f s)
  check_counts f s t reply hcheck := h.check_counts f s t reply (eq_of_refusing_ok hcheck)
  record_appends f s t n hrecord := h.record_appends f s t n (eq_of_refusing_ok hrecord)

lemma FailedRecordsKeep.refusing (h : FailedRecordsKeep table db rows) :
    FailedRecordsKeep table (refusing rule db) rows := by
  intro f s t e hrecord
  rcases refusing_run rule db (recordCall table f) s with hrun | hrun
  · exact h f s t e (hrun ▸ hrecord)
  · rw [hrun] at hrecord
    rw [(Prod.mk.inj hrecord).2]

end Refusing

/-- An overlay that only makes listings and reads fail agrees with what is below it. -/
lemma agreesOn_cover {overlay : Overlay} {dir : Path} {fs : FileSystem}
    (h : ∀ answer ∈ overlay.listings, ∀ entries, answer.2 ≠ .ok entries) :
    AgreesOn dir fs (overlay.cover fs) where
  listing entries hentries := by
    unfold Overlay.cover Overlay.findFor? at hentries
    dsimp only at hentries
    cases hfind : overlay.listings.find? fun answer =>
        answer.1.components == dir.components with
    | none =>
      rw [hfind] at hentries
      exact ⟨entries, hentries, List.Perm.refl _⟩
    | some answer =>
      rw [hfind] at hentries
      exact absurd hentries (h answer (List.mem_of_find?_eq_some hfind) entries)
  reading f bytes hbytes := by
    unfold Overlay.cover at hbytes
    dsimp only at hbytes
    split at hbytes
    · cases hbytes
    · exact hbytes

/-- Attempts at one directory and bound, of which the last ends well, leave the same file names
recorded as a single run that ends well. What they add, one after the other, is what was pending, in
order; and the body of each such file is executed once and once more for every record of it that
fails. -/
theorem retries_converge {table : TableName} {rows : σ → List StoredRow} {fs : FileSystem}
    {dir : Path} {bound : Option UInt64} {attempts : List (Attempt σ)} {last : Attempt σ} {s : σ}
    {summary : RunSummary} (hfaithful : ∀ a ∈ attempts ++ [last], a.Faithful table rows fs dir)
    (hok : (last.perform table dir bound
      (stateAfter s (retries table dir bound attempts s))).value = .ok summary) :
    let earlier := retries table dir bound attempts s
    let final := last.perform table dir bound (stateAfter s earlier)
    let os := earlier ++ [final]
    ∃ ms, Migration.discover fs dir = .ok ms ∧
      let due := ms.filter (Engine.isWithin bound)
      let todo := pending due (names (rows s))
      due.Pairwise (fun a b => a.version < b.version) ∧ todo.Nodup ∧
      names (rows final.state) = names (rows s) ++ todo ∧
      (∀ (τ : Type) (single : Attempt τ) (rows' : τ → List StoredRow) (t : τ)
        (summary' : RunSummary), single.Faithful table rows' fs dir →
        names (rows' t) = names (rows s) →
        (single.perform table dir bound t).value = .ok summary' →
        names (rows' (single.perform table dir bound t).state) = names (rows final.state)) ∧
      Throughout (fun earlier o => names (rows o.state) =
        names (rows (stateAfter s earlier)) ++ addedFiles table o.log) os ∧
      (os.flatMap fun o => addedFiles table o.log) = todo ∧
      (∀ f ∈ todo, (os.flatMap fun o => executedFiles table o.log).count f =
        1 + (os.filterMap fun o => unrecorded? o.value).count f) ∧
      (∀ f ∈ os.flatMap fun o => executedFiles table o.log, f ∈ todo) ∧
      (∀ o ∈ os, ∀ f text, (f, text) ∈ executions table o.log →
        fs.readBytes (dir.join ⟨f⟩) = .ok text.toUTF8) ∧
      ∀ o ∈ earlier, ∀ e, o.value = .error e → MayPass e := by
  intro earlier final os
  have hlast : last.Faithful table rows fs dir :=
    hfaithful last (List.mem_append_right _ (List.mem_singleton_self last))
  have hwell : RunTrace table last.fs dir bound final.log (.ok summary) :=
    hok ▸ run_yields (observe_yields last.db _ _)
  obtain ⟨ms, hdiscovered, hms⟩ : ∃ ms, Migration.discover last.fs dir = .ok ms ∧
      Migration.discover fs dir = .ok ms := by
    obtain ⟨ms, hms⟩ := hwell.discovered
    exact ⟨ms, hms, hlast.agrees.discover hms⟩
  have hall : Advances table rows fs dir (ms.filter (Engine.isWithin bound)) s final.state os :=
    Attempt.advances_all hms hfaithful
  have hnone : pending (ms.filter (Engine.isWithin bound)) (names (rows final.state)) = [] :=
    (hlast.advances hms).done summary hok
  have hadded : (os.flatMap fun o => addedFiles table o.log) =
      pending (ms.filter (Engine.isWithin bound)) (names (rows s)) := by
    have hleft := hall.left
    rw [hnone, List.append_nil] at hleft
    exact hleft.symm
  have hnodup : (pending (ms.filter (Engine.isWithin bound)) (names (rows s))).Nodup :=
    (filter_filenames_nodup hms _).filter _
  have hnames : names (rows final.state) = names (rows s) ++
      pending (ms.filter (Engine.isWithin bound)) (names (rows s)) := by
    rw [hall.added, hadded]
  refine ⟨ms, hms, (discover_ascending hms).filter _, hnodup, hnames, ?_, hall.each, hadded,
    fun f hf => ?_, fun f hf => ?_, hall.text, ?_⟩
  · intro τ single rows' t summary' hsingle hstart hvalue
    have hrows := (hsingle.advances hms).names_of_ok hvalue
    rw [hrows, hnames, hstart]
  · have hexecuted := hall.executed f
    rw [hadded, List.count_eq_one_of_mem hnodup hf] at hexecuted
    exact hexecuted
  · have hexecuted := hall.executed f
    have hpos := List.count_pos_iff.mpr hf
    rw [hadded] at hexecuted
    by_cases hunrecorded : f ∈ os.filterMap fun o => unrecorded? o.value
    · exact hall.unrecorded f hunrecorded
    · rw [List.count_eq_zero.mpr hunrecorded] at hexecuted
      exact List.count_pos_iff.mp (by omega)
  · intro o ho e hvalue
    obtain ⟨a, ha, t, rfl⟩ := exists_attempt_of_mem_retries ho
    have hfailed : RunTrace table a.fs dir bound (a.perform table dir bound t).log (.error e) :=
      hvalue ▸ run_yields (observe_yields a.db _ t)
    refine hwell.mayPass hfailed fun ms' hms' => ?_
    have hsame := (hfaithful a (List.mem_append_left _ ha)).agrees.discover hms'
    rw [hms] at hsame
    rw [hdiscovered, Except.ok.inj hsame]

/-- An attempt at the three files that may not record. -/
def unrecordingAttempt : Attempt LiveStore :=
  ⟨refusing ⟨.execute, "INSERT"⟩ liveDatabase, threeFiles.fileSystem⟩

/-- An attempt at the three files that finds no directory. -/
def unlistedAttempt : Attempt LiveStore :=
  ⟨liveDatabase, (({} : Overlay).setListing ⟨"m"⟩ (.error .notFound)).cover threeFiles.fileSystem⟩

def wholeAttempt : Attempt LiveStore := ⟨liveDatabase, threeFiles.fileSystem⟩

lemma lateAttempts_faithful : ∀ a ∈ [unrecordingAttempt, unlistedAttempt] ++ [wholeAttempt],
    a.Faithful .default (trackedRows .default) threeFiles.fileSystem ⟨"m"⟩ := by
  have hself : AgreesOn ⟨"m"⟩ threeFiles.fileSystem threeFiles.fileSystem :=
    ⟨fun entries hentries => ⟨entries, hentries, List.Perm.refl _⟩, fun _ _ hbytes => hbytes⟩
  have hlisting : ∀ answer ∈ (({} : Overlay).setListing ⟨"m"⟩ (.error .notFound)).listings,
      ∀ entries, answer.2 ≠ .ok entries := by
    simp [Overlay.setListing]
  have htracks := threeFiles_tracks ⟨"m"⟩
  have hkeeps := live_failedRecordsKeep .default
  intro a ha
  fin_cases ha
  · exact ⟨hself, htracks.refusing, hkeeps.refusing⟩
  · exact ⟨agreesOn_cover hlisting, htracks, hkeeps⟩
  · exact ⟨hself, htracks, hkeeps⟩

/-- The body is executed in vain. -/
lemma unrecording_attempt :
    unrecorded? (unrecordingAttempt.perform .default ⟨"m"⟩ (some 2) lateStore).value =
        some "1_a.sql" ∧
      (unrecordingAttempt.perform .default ⟨"m"⟩ (some 2) lateStore).state = lateStore := by
  have huncovered : (FailureRule.mk .execute "INSERT").kind ≠ (createCall .default).kind := by
    decide
  have hcreate : (refusing ⟨.execute, "INSERT"⟩ liveDatabase (createCall .default)).run lateStore =
      (.ok (), { lateStore with store := lateStore.store.ensureTracking TableName.default.text }) :=
    (refusing_of_kind_ne huncovered lateStore).trans live_create
  unfold Attempt.perform unrecordingAttempt
  rw [observe_run_of_created threeFiles_discover (by decide) (checkBound_eq_ok.mp rfl) hcreate]
  exact ⟨by decide +kernel, by decide +kernel⟩

lemma unlisted_attempt :
    unrecorded? (unlistedAttempt.perform .default ⟨"m"⟩ (some 2) lateStore).value = none ∧
      (unlistedAttempt.perform .default ⟨"m"⟩ (some 2) lateStore).state = lateStore := by
  have hdir : (⟨"m"⟩ : Path).isEmpty = false := by decide
  have hdisc : Migration.discover ((({} : Overlay).setListing ⟨"m"⟩ (.error .notFound)).cover
      threeFiles.fileSystem) ⟨"m"⟩ = .error (.directoryRead ⟨"m"⟩ .notFound) := by
    unfold Migration.discover
    simp [hdir, Overlay.cover, Overlay.setListing, Overlay.findFor?, bind, Except.bind]
  unfold Attempt.perform unlistedAttempt
  rw [observe_run_of_undiscovered hdir (by decide) hdisc live_create]
  exact ⟨rfl, by decide +kernel⟩

lemma whole_attempt : (wholeAttempt.perform .default ⟨"m"⟩ (some 2) lateStore).value =
    .ok ⟨["1_a.sql"], 1, some 2⟩ :=
  late_run_value

lemma lateAttempts_state : stateAfter lateStore
    (retries .default ⟨"m"⟩ (some 2) [unrecordingAttempt, unlistedAttempt] lateStore) =
      lateStore := by
  rw [stateAfter_retries_cons, unrecording_attempt.2, stateAfter_retries_cons, unlisted_attempt.2]
  rfl

/-- The body of the file that was left is executed twice, for one row. -/
theorem retries_converge_late :
    let earlier := retries .default ⟨"m"⟩ (some 2) [unrecordingAttempt, unlistedAttempt] lateStore
    let final := wholeAttempt.perform .default ⟨"m"⟩ (some 2) (stateAfter lateStore earlier)
    names (trackedRows .default final.state) = ["2_b.sql", "1_a.sql"] ∧
      ((earlier ++ [final]).flatMap fun o => executedFiles .default o.log).count "1_a.sql" = 2 := by
  have hok : (wholeAttempt.perform .default ⟨"m"⟩ (some 2) (stateAfter lateStore
      (retries .default ⟨"m"⟩ (some 2) [unrecordingAttempt, unlistedAttempt] lateStore))).value =
        .ok ⟨["1_a.sql"], 1, some 2⟩ := by
    rw [lateAttempts_state]
    exact whole_attempt
  have hunrecorded : (retries .default ⟨"m"⟩ (some 2) [unrecordingAttempt, unlistedAttempt]
      lateStore ++ [wholeAttempt.perform .default ⟨"m"⟩ (some 2) lateStore]).filterMap
        (fun o => unrecorded? o.value) = ["1_a.sql"] := by
    rw [retries_cons, unrecording_attempt.2, retries_cons, retries_nil, List.cons_append,
      unrecorded_cons, unrecording_attempt.1, List.cons_append, unrecorded_cons, unlisted_attempt.1,
      List.nil_append, unrecorded_cons, whole_attempt]
    rfl
  have htodo : pending ([⟨1, "a", "1_a.sql"⟩, ⟨2, "b", "2_b.sql"⟩, ⟨3, "c", "3_c.sql"⟩].filter
      (Engine.isWithin (some 2))) (names (trackedRows .default lateStore)) = ["1_a.sql"] := by
    decide +kernel
  intro earlier final
  obtain ⟨ms, hms, -, -, hnames, -, -, -, hexecuted, -⟩ :=
    retries_converge lateAttempts_faithful hok
  rw [threeFiles_discover] at hms
  obtain rfl := Except.ok.inj hms
  refine ⟨?_, ?_⟩
  · rw [hnames, htodo]
    decide +kernel
  · rw [hexecuted "1_a.sql" (by rw [htodo]; exact List.mem_singleton_self _),
      lateAttempts_state, hunrecorded]
    rfl

end SqlMigrations.Proofs
