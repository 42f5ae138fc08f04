import SqlMigrations.Proofs.RunOutcome

/-!
# Bounded runs

A run up to one version and then one up to a later version do what a single run up to the later one
does. The second run creates the table again and checks every file again; what the first run has got
through is on record, so it is skipped, and the second run goes on where the first one has stopped.
-/

namespace SqlMigrations.Proofs

variable {σ : Type}

section Blocks

variable {table : TableName} {db : Database σ} {rows : σ → List StoredRow} {bodies : String → Prop}
  {present : σ → Prop} {fs : FileSystem} {dir : Path} {m : Migration} {ms : List Migration}
  {log : List (Exchange σ)} {ending : Ending} {summary : RunSummary} {s t : σ}

section Answers

variable (hsteady : Steady table db rows bodies present)
include hsteady

lemma Steady.eq_of_check {f : String} {reply : Except DatabaseError (Option Row)}
    (h : (db (checkCall table f)).run s = (reply, t)) : t = s := by
  rw [← hsteady.check_same f s, h]

lemma Steady.present_of_body {text : String} {reply : Except DatabaseError Unit}
    (htext : bodies text) (hs : present s)
    (h : (db (.executeBatch text)).run s = (reply, t)) : present t := by
  have ht := hsteady.body_leaves text s htext hs
  rw [h] at ht
  exact ht

lemma Steady.present_of_record {f : String} {reply : Except DatabaseError Nat} (hs : present s)
    (h : (db (recordCall table f)).run s = (reply, t)) : present t := by
  have ht := hsteady.record_leaves f s hs
  rw [h] at ht
  exact ht

end Answers

lemma Tracks.count_lt (hdb : Tracks table db rows bodies) {f : String} {reply : Option Row}
    (h : (db (checkCall table f)).run s = (.ok reply, t)) : (names (rows s)).count f < 2 ^ 63 := by
  obtain ⟨row, n, -, -, hcount⟩ := hdb.check_counts f s t reply h
  have hlt := Int64.toInt_lt n
  omega

/-- A migration whose calls end well is on record after them, and nothing else has changed. -/
lemma Block.leaves_counted (hdb : Tracks table db rows bodies)
    (hsteady : Steady table db rows bodies present)
    (hbodies : ∀ text, fs.readBytes (dir.join ⟨m.filename⟩) = .ok text.toUTF8 → bodies text)
    (h : Block table fs dir m log ending) (hended : ∀ e, ending ≠ .failed e)
    (hl : Linked db s log t) (hs : present s) :
    present t ∧ Counted (names (rows t)) m.filename ∧
      ∀ f, f ≠ m.filename → (names (rows t)).count f = (names (rows s)).count f := by
  cases ending with
  | skipped =>
    obtain ⟨hmem, hrows⟩ := h.rows_of_skipped hdb hl
    cases h with
    | skipped counted =>
      obtain ⟨rfl, hcheck, rfl⟩ := hl
      have hsame : t = _ := hsteady.eq_of_check hcheck
      rw [hrows]
      exact ⟨hsame ▸ hs, ⟨List.count_pos_iff.mpr hmem, hdb.count_lt hcheck⟩, fun f _ => rfl⟩
  | applied =>
    obtain ⟨hnot, micros, hrows⟩ := h.rows_of_applied hdb hbodies hl
    have hcount : ∀ f, (names (rows t)).count f = (names (rows s)).count f + [m.filename].count f := by
      intro f
      rw [hrows, names_append, List.count_append]
      rfl
    cases h with
    | applied uncounted read =>
      obtain ⟨rfl, hcheck, rfl, hbody, rfl, hrecord, rfl⟩ := hl
      rw [hsteady.eq_of_check hcheck] at hbody
      have hexecuted := hsteady.present_of_body (hbodies _ read) hs hbody
      refine ⟨hsteady.present_of_record hexecuted hrecord, ?_, fun f hf => ?_⟩
      · unfold Counted
        rw [hcount, List.count_eq_zero.mpr hnot, List.count_singleton_self]
        omega
      · have hother : [m.filename].count f = 0 := List.count_eq_zero.mpr (by simpa using hf)
        rw [hcount, hother, Nat.add_zero]
  | failed e => exact absurd rfl (hended e)

lemma Blocks.leave_counted (hdb : Tracks table db rows bodies)
    (hsteady : Steady table db rows bodies present)
    (hbodies : ∀ m ∈ ms, ∀ text, fs.readBytes (dir.join ⟨m.filename⟩) = .ok text.toUTF8 →
      bodies text)
    (hms : (ms.map fun m => m.filename).Nodup) {summary' : RunSummary}
    (h : Blocks table fs dir summary ms log (.ok summary')) (hl : Linked db s log t)
    (hs : present s) : present t ∧ (∀ m ∈ ms, Counted (names (rows t)) m.filename) ∧
      ∀ f ∉ ms.map fun m => m.filename, (names (rows t)).count f = (names (rows s)).count f := by
  generalize hr : Except.ok summary' = r at h
  induction h generalizing s with
  | done =>
    obtain rfl := hl
    exact ⟨hs, nofun, fun _ _ => rfl⟩
  | @next _ _ m ms log log' ending _ block after _ ih =>
    obtain ⟨u, hl₁, hl₂⟩ := linked_append.mp hl
    obtain ⟨hm, hms⟩ := List.nodup_cons.mp hms
    obtain ⟨hu, hcounted, hothers⟩ := block.leaves_counted hdb hsteady
      (hbodies m List.mem_cons_self) (Ending.not_failed_of_after after) hl₁ hs
    obtain ⟨ht, hrest, hkept⟩ :=
      ih (fun m' hm' => hbodies m' (List.mem_cons_of_mem m hm')) hms hl₂ hu hr
    refine ⟨ht, fun m' hm' => ?_, fun f hf => ?_⟩
    · rcases List.mem_cons.mp hm' with rfl | hm'
      · -- The files that come later are other ones, so they do not change its rows.
        unfold Counted
        rw [hkept _ hm]
        exact hcounted
      · exact hrest m' hm'
    · rw [List.map_cons, List.mem_cons, not_or] at hf
      rw [hkept f hf.2, hothers f hf.1]
  | cut => cases hr

/-- A migration on record is skipped, which changes nothing. -/
lemma Block.of_counted (hdb : Tracks table db rows bodies)
    (hsteady : Steady table db rows bodies present) (h : Block table fs dir m log ending)
    (hl : Linked db s log t) (hs : present s) (hm : Counted (names (rows s)) m.filename) :
    ending = .skipped ∧ t = s ∧ ∀ y ∈ log, y.call.kind = .queryRow := by
  obtain ⟨answer, hanswer⟩ := hsteady.check_answers m.filename s hs hm
  have hmem : m.filename ∈ names (rows s) := List.count_pos_iff.mp hm.1
  cases h with
  | skipped =>
    obtain ⟨rfl, hcheck, rfl⟩ := hl
    exact ⟨rfl, hsteady.eq_of_check hcheck, by simp [Call.kind]⟩
  | checkFailed =>
    obtain ⟨rfl, hcheck, -⟩ := hl
    rw [hcheck] at hanswer
    cases hanswer
  | undecoded undecoded =>
    obtain ⟨rfl, hcheck, -⟩ := hl
    obtain ⟨row, n, rfl, hn, -⟩ := hdb.check_counts _ _ _ _ hcheck
    simp [TableName.countsRow, hn, Except.map] at undecoded
  | applied uncounted | unread uncounted | bodyFailed uncounted | recordFailed uncounted =>
    obtain ⟨rfl, hcheck, -⟩ := hl
    exact absurd hmem (hdb.notMem_of_countsNone hcheck uncounted)

lemma Blocks.of_counted (hdb : Tracks table db rows bodies)
    (hsteady : Steady table db rows bodies present) {r : Except EngineError RunSummary}
    (h : Blocks table fs dir summary ms log r) (hl : Linked db s log t) (hs : present s)
    (hms : ∀ m ∈ ms, Counted (names (rows s)) m.filename) :
    r = .ok { summary with skipped := summary.skipped + ms.length } ∧ t = s ∧
      ∀ y ∈ log, y.call.kind = .queryRow := by
  induction h generalizing s with
  | done => exact ⟨rfl, hl, nofun⟩
  | @next _ _ m ms _ _ ending _ block after _ ih =>
    obtain ⟨u, hl₁, hl₂⟩ := linked_append.mp hl
    obtain ⟨rfl, rfl, hlog⟩ := block.of_counted hdb hsteady hl₁ hs (hms m List.mem_cons_self)
    obtain ⟨hr, ht, hlog'⟩ := ih hl₂ hs fun m' hm' => hms m' (List.mem_cons_of_mem m hm')
    refine ⟨?_, ht, fun y hy => ?_⟩
    · rw [hr, ← Except.ok.inj after, List.length_cons, Nat.add_assoc, Nat.add_comm 1]
    · rcases List.mem_append.mp hy with hy | hy
      · exact hlog y hy
      · exact hlog' y hy
  | @cut _ m _ _ _ block =>
    obtain ⟨hskipped, -⟩ := block.of_counted hdb hsteady hl hs (hms m List.mem_cons_self)
    cases hskipped

end Blocks

/-- The file that an error is about. -/
def failedFile? : EngineError → Option String
  | .check f _ | .read f _ | .execution f _ | .record f _ => some f
  | _ => none

/-- The exchanges of a run that execute a body or record a file: all but the checks and the creation
of the table, which comes first. -/
def effects (log : List (Exchange σ)) : List (Exchange σ) :=
  log.tail.filter fun y => y.call.kind ≠ .queryRow

lemma effects_append {log log' : List (Exchange σ)} (h : log ≠ []) :
    effects (log ++ log') = effects log ++ log'.filter fun y => y.call.kind ≠ .queryRow := by
  unfold effects
  rw [List.tail_append_of_ne_nil h, List.filter_append]

lemma effects_checks {y : Exchange σ} {checks : List (Exchange σ)}
    (h : ∀ y ∈ checks, y.call.kind = .queryRow) : effects (y :: checks) = [] := by
  refine List.filter_eq_nil_iff.mpr fun z hz => ?_
  simp [h z hz]

section Sweep

variable {table : TableName} {db : Database σ} {rows : σ → List StoredRow} {bodies : String → Prop}
  {present : σ → Prop} {fs : FileSystem} {dir : Path} {ms : List Migration} {s : σ}

lemma sweep_of_counted (hdb : Tracks table db rows bodies)
    (hsteady : Steady table db rows bodies present) (hs : present s)
    (hms : ∀ m ∈ ms, Counted (names (rows s)) m.filename) :
    ∃ checks, sweep table db fs dir ms s = ⟨.ok ⟨[], ms.length, none⟩, checks, s⟩ ∧
      ∀ y ∈ checks, y.call.kind = .queryRow := by
  have hblocks := sweep_blocks table db fs dir ms s
  have hlinked := sweep_linked table db fs dir ms s
  generalize sweep table db fs dir ms s = o at hblocks hlinked ⊢
  obtain ⟨value, checks, t⟩ := o
  obtain ⟨hvalue, hstate, hchecks⟩ := hblocks.of_counted hdb hsteady hlinked hs hms
  dsimp only at hvalue hstate hchecks
  rw [Nat.zero_add] at hvalue
  rw [hvalue, hstate]
  exact ⟨checks, rfl, hchecks⟩

lemma sweep_failed {e : EngineError} (h : (sweep table db fs dir ms s).value = .error e) :
    ∃ m ∈ ms, failedFile? e = some m.filename := by
  have hblocks := sweep_blocks table db fs dir ms s
  rw [h] at hblocks
  obtain ⟨passed, m, rest, _, _, _, rfl, -, -, hblock⟩ := hblocks.split_error
  refine ⟨m, List.mem_append_right _ List.mem_cons_self, ?_⟩
  cases hblock <;> rfl

/-- The migrations within a bound are those within a lower one, and then later ones. -/
lemma filter_isWithin_split {a b : UInt64} (hms : ms.Pairwise fun m m' => m.version < m'.version)
    (hab : a ≤ b) : ∃ later, ms.filter (Engine.isWithin (some b)) =
      ms.filter (Engine.isWithin (some a)) ++ later ∧ ∀ m ∈ later, a < m.version := by
  induction ms with
  | nil => exact ⟨[], rfl, nofun⟩
  | cons m ms ih =>
    obtain ⟨hm, hms⟩ := List.pairwise_cons.mp hms
    by_cases hma : m.version ≤ a
    · obtain ⟨later, hlater, hafter⟩ := ih hms
      have hmb : m.version ≤ b := UInt64.le_trans hma hab
      refine ⟨later, ?_, hafter⟩
      have hwithin : ∀ c, m.version ≤ c → Engine.isWithin (some c) m = true := fun c hc => by
        simpa [Engine.isWithin] using hc
      rw [List.filter_cons_of_pos (hwithin a hma), List.filter_cons_of_pos (hwithin b hmb), hlater,
        List.cons_append]
    · have hlt : a < m.version := UInt64.not_le.mp hma
      have hall : ∀ m' ∈ m :: ms, a < m'.version := by
        intro m' hm'
        rcases List.mem_cons.mp hm' with rfl | hm'
        · exact hlt
        · exact UInt64.lt_trans hlt (hm m' hm')
      have hnone : (m :: ms).filter (Engine.isWithin (some a)) = [] := by
        refine List.filter_eq_nil_iff.mpr fun m' hm' => ?_
        simpa [Engine.isWithin] using hall m' hm'
      refine ⟨(m :: ms).filter (Engine.isWithin (some b)), ?_, fun m' hm' => ?_⟩
      · rw [hnone, List.nil_append]
      · exact hall m' (List.mem_of_mem_filter hm')

end Sweep

section Run

variable {table : TableName} {db : Database σ} {rows : σ → List StoredRow} {present : σ → Prop}
  {fs : FileSystem} {dir : Path} {ms : List Migration} {a b c : UInt64} {bound : Option UInt64}
  {s : σ}

lemma boundFound_of_mem (hc : c ∈ ms.map fun m => m.version) : BoundFound (some c) ms := by
  intro target htarget
  obtain ⟨m, hm, hversion⟩ := List.mem_map.mp hc
  exact ⟨m, hm, hversion.trans (Option.some.inj htarget)⟩

lemma some_ne_zero (hc : c ≠ 0) : some c ≠ some 0 := fun h => hc (Option.some.inj h)

lemma version_of_failedFile? (hms : Migration.discover fs dir = .ok ms) {m m' : Migration}
    {e : EngineError} (hm : m ∈ ms) (hm' : m' ∈ ms) (h : failedFile? e = some m.filename)
    (h' : failedFile? e = some m'.filename) : m = m' := by
  rw [h] at h'
  exact eq_of_filename hms hm hm' (Option.some.inj h')

/-- After a run that ends well, what it has got through is on record. -/
lemma counted_after (hdb : Tracks table db rows (IsBody fs dir))
    (hsteady : Steady table db rows (IsBody fs dir) present)
    (hms : Migration.discover fs dir = .ok ms) (hpos : bound ≠ some 0) (hfound : BoundFound bound ms)
    {summary : RunSummary} :
    let o := observe db (ExceptT.run (Engine.run table fs dir bound)) s
    o.value = .ok summary → present o.state ∧
      ∀ m ∈ ms.filter (Engine.isWithin bound), Counted (names (rows o.state)) m.filename := by
  obtain ⟨⟨reply, u⟩, hcreate⟩ : ∃ answer, (db (createCall table)).run s = answer := ⟨_, rfl⟩
  cases reply with
  | error cause =>
    rw [observe_run_of_uncreated hms hpos hfound hcreate]
    exact nofun
  | ok created =>
    rw [observe_run_of_created hms hpos hfound hcreate]
    intro o hok
    obtain ⟨delta, hsweep, -⟩ := map_eq_ok.mp hok
    have hblocks := sweep_blocks table db fs dir (ms.filter (Engine.isWithin bound)) u
    rw [hsweep] at hblocks
    have hbodies : ∀ m ∈ ms.filter (Engine.isWithin bound), ∀ text,
        fs.readBytes (dir.join ⟨m.filename⟩) = .ok text.toUTF8 → IsBody fs dir text :=
      fun m hm text hread => ⟨ms, hms, m, List.mem_of_mem_filter hm, hread⟩
    obtain ⟨hpresent, hcounted, -⟩ := hblocks.leave_counted hdb hsteady hbodies
      (filter_filenames_nodup hms _) (sweep_linked table db fs dir _ u)
      (hsteady.create_makes s u hcreate)
    exact ⟨hpresent, hcounted⟩

/-- Without a bound a run does what it does up to the greatest version. -/
lemma run_unbounded (hms : Migration.discover fs dir = .ok ms)
    (hc : c ∈ ms.map fun m => m.version) (hpos : c ≠ 0) (hmax : ∀ m ∈ ms, m.version ≤ c) :
    let o := observe db (ExceptT.run (Engine.run table fs dir (some c))) s
    observe db (ExceptT.run (Engine.run table fs dir none)) s =
      ⟨o.value.map fun summary => { summary with stoppedAt := none }, o.log, o.state⟩ := by
  have hall : ms.filter (Engine.isWithin (some c)) = ms :=
    List.filter_eq_self.mpr fun m hm => decide_eq_true (hmax m hm)
  have hnone : (none : Option UInt64) ≠ some 0 := nofun
  have hfound : BoundFound none ms := nofun
  obtain ⟨⟨reply, u⟩, hcreate⟩ : ∃ answer, (db (createCall table)).run s = answer := ⟨_, rfl⟩
  cases reply with
  | error cause =>
    rw [observe_run_of_uncreated hms (some_ne_zero hpos) (boundFound_of_mem hc) hcreate,
      observe_run_of_uncreated hms hnone hfound hcreate]
    rfl
  | ok created =>
    rw [observe_run_of_created hms (some_ne_zero hpos) (boundFound_of_mem hc) hcreate,
      observe_run_of_created hms hnone hfound hcreate, hall, filter_isWithin_none]
    simp only [map_map]
    rfl

/-- A run up to a version that a run before it has got through does nothing. -/
lemma run_again (hdb : Tracks table db rows (IsBody fs dir))
    (hsteady : Steady table db rows (IsBody fs dir) present)
    (hms : Migration.discover fs dir = .ok ms) (ha : a ∈ ms.map fun m => m.version)
    (hc : c ∈ ms.map fun m => m.version) (hpos : c ≠ 0) (hca : c ≤ a) {summary : RunSummary} :
    let run := fun bound s => observe db (ExceptT.run (Engine.run table fs dir bound)) s
    let again := run (some c) (run (some a) s).state
    (run (some a) s).value = .ok summary → effects again.log = [] ∧
      again.state = (run (some a) s).state ∧
      again.value = .ok ⟨[], (ms.filter (Engine.isWithin (some c))).length, some c⟩ := by
  have hposa : a ≠ 0 := fun hzero => hpos (UInt64.le_zero_iff.mp (hzero ▸ hca))
  intro run again hok
  obtain ⟨hpresent, hcounted⟩ :=
    counted_after hdb hsteady hms (some_ne_zero hposa) (boundFound_of_mem ha) hok
  have hmem : ∀ m ∈ ms.filter (Engine.isWithin (some c)), m ∈ ms.filter (Engine.isWithin (some a)) := by
    intro m hm
    obtain ⟨hm, hwithin⟩ := List.mem_filter.mp hm
    simp only [Engine.isWithin, decide_eq_true_eq] at hwithin
    exact List.mem_filter.mpr ⟨hm, by simpa [Engine.isWithin] using UInt64.le_trans hwithin hca⟩
  obtain ⟨checks, hskip, hchecks⟩ :=
    sweep_of_counted hdb hsteady hpresent fun m hm => hcounted m (hmem m hm)
  have hagain : again = _ := observe_run_of_created hms (some_ne_zero hpos) (boundFound_of_mem hc)
    (hsteady.create_again _ hpresent)
  rw [hskip] at hagain
  rw [hagain]
  exact ⟨effects_checks hchecks, rfl, by simp [plus, Except.map]⟩

section Steps

variable (hpos : a ≠ 0) (hab : a ≤ b) (hms : Migration.discover fs dir = .ok ms)
  (ha : a ∈ ms.map fun m => m.version) (hb : b ∈ ms.map fun m => m.version)
include hpos hab hms ha hb

/-- A run up to a version fails as a run up to a later one does. -/
lemma run_fails {e : EngineError} (s : σ) :
    let run := fun bound => observe db (ExceptT.run (Engine.run table fs dir bound)) s
    (run (some a)).value = .error e → run (some b) = run (some a) ∧
      ∀ m ∈ ms, failedFile? e = some m.filename → m.version ≤ a := by
  have hposb : b ≠ 0 := fun hzero => hpos (UInt64.le_zero_iff.mp (hzero ▸ hab))
  obtain ⟨⟨reply, u⟩, hcreate⟩ : ∃ answer, (db (createCall table)).run s = answer := ⟨_, rfl⟩
  intro run herror
  cases reply with
  | error cause =>
    have hfirst : run (some a) = _ :=
      observe_run_of_uncreated hms (some_ne_zero hpos) (boundFound_of_mem ha) hcreate
    have hwhole : run (some b) = _ :=
      observe_run_of_uncreated hms (some_ne_zero hposb) (boundFound_of_mem hb) hcreate
    rw [hfirst] at herror
    obtain rfl := Except.error.inj herror
    exact ⟨hwhole.trans hfirst.symm, nofun⟩
  | ok created =>
    obtain ⟨later, hlater, -⟩ := filter_isWithin_split (discover_ascending hms) hab
    have hfirst : run (some a) = _ :=
      observe_run_of_created hms (some_ne_zero hpos) (boundFound_of_mem ha) hcreate
    have hwhole : run (some b) = _ :=
      observe_run_of_created hms (some_ne_zero hposb) (boundFound_of_mem hb) hcreate
    rw [hfirst] at herror
    have hsweep : (sweep table db fs dir (ms.filter (Engine.isWithin (some a))) u).value = .error e :=
      map_eq_error.mp herror
    rw [hlater, sweep_append] at hwhole
    simp only [hsweep] at hfirst hwhole
    refine ⟨hwhole.trans hfirst.symm, fun m hm hfile => ?_⟩
    obtain ⟨m', hm', hfile'⟩ := sweep_failed hsweep
    obtain ⟨hm', hwithin⟩ := List.mem_filter.mp hm'
    obtain rfl := version_of_failedFile? hms hm hm' hfile hfile'
    simpa [Engine.isWithin] using hwithin

/-- A run up to a later version goes on where a run that ends well has stopped, be it the same run or
a second one. -/
lemma run_goes_on (hdb : Tracks table db rows (IsBody fs dir))
    (hsteady : Steady table db rows (IsBody fs dir) present) {summary : RunSummary} (s : σ) :
    let run := fun bound s => observe db (ExceptT.run (Engine.run table fs dir bound)) s
    let first := run (some a) s
    first.value = .ok summary → first.log ≠ [] ∧
      ∃ later, (∀ m ∈ later, m ∈ ms ∧ a < m.version) ∧
        let o := sweep table db fs dir later first.state
        run (some b) s = ⟨o.value.map (plus { summary with stoppedAt := some b }),
          first.log ++ o.log, o.state⟩ ∧
        ∃ again skipped, again ≠ [] ∧ effects again = [] ∧ run (some b) first.state =
          ⟨o.value.map (plus ⟨[], skipped, some b⟩), again ++ o.log, o.state⟩ := by
  have hposb : b ≠ 0 := fun hzero => hpos (UInt64.le_zero_iff.mp (hzero ▸ hab))
  obtain ⟨⟨reply, u⟩, hcreate⟩ : ∃ answer, (db (createCall table)).run s = answer := ⟨_, rfl⟩
  intro run first hok
  cases reply with
  | error cause =>
    have hfirst : first = _ :=
      observe_run_of_uncreated hms (some_ne_zero hpos) (boundFound_of_mem ha) hcreate
    rw [hfirst] at hok
    cases hok
  | ok created =>
    obtain ⟨later, hlater, hafter⟩ := filter_isWithin_split (discover_ascending hms) hab
    have hfirst : first = _ :=
      observe_run_of_created hms (some_ne_zero hpos) (boundFound_of_mem ha) hcreate
    have hwhole : run (some b) s = _ :=
      observe_run_of_created hms (some_ne_zero hposb) (boundFound_of_mem hb) hcreate
    obtain ⟨hpresent, hcounted⟩ : present first.state ∧ ∀ m ∈ ms.filter (Engine.isWithin (some a)),
        Counted (names (rows first.state)) m.filename :=
      counted_after hdb hsteady hms (some_ne_zero hpos) (boundFound_of_mem ha) hok
    rw [hfirst] at hok hpresent hcounted
    obtain ⟨delta, hsweep, rfl⟩ := map_eq_ok.mp hok
    obtain ⟨checks, hskip, hchecks⟩ := sweep_of_counted hdb hsteady hpresent hcounted
    have hsecond : run (some b) _ = _ := observe_run_of_created hms (some_ne_zero hposb)
      (boundFound_of_mem hb) (hsteady.create_again _ hpresent)
    rw [hlater, sweep_append] at hwhole
    rw [hlater, sweep_append, hskip] at hsecond
    simp only [hsweep] at hfirst hwhole
    generalize sweep table db fs dir (ms.filter (Engine.isWithin (some a))) u = o at *
    rw [hfirst]
    refine ⟨List.cons_ne_nil _ _, later, fun m hm => ⟨?_, hafter m hm⟩, ?_, ?_⟩
    · exact List.mem_of_mem_filter (hlater ▸ List.mem_append_right _ hm)
    · rw [hwhole, map_map]
      simp only [plus_plus]
      rfl
    · have hskipped : plus { stoppedAt := some b }
          ⟨[], (ms.filter (Engine.isWithin (some a))).length, none⟩ =
            ⟨[], (ms.filter (Engine.isWithin (some a))).length, some b⟩ := by simp [plus]
      refine ⟨⟨createCall table, .ok (), o.state, o.state⟩ :: checks,
        (ms.filter (Engine.isWithin (some a))).length, List.cons_ne_nil _ _,
        effects_checks hchecks, ?_⟩
      dsimp only at hsecond ⊢
      rw [hsecond, map_map]
      simp only [plus_plus, hskipped]
      rfl

end Steps

/-- Bounded runs compose, over a database that answers by its state alone and keeps no time in it.
A run up to a version and a second one up to a later version do together what a single run up to the
later one does. A run without a bound does what one up to the greatest version does, but for the bound
in its summary. And to run again up to a version that is got through does nothing. -/
theorem bounded_runs_compose (hdb : Tracks table db rows (IsBody fs dir))
    (hsteady : Steady table db rows (IsBody fs dir) present)
    (hms : Migration.discover fs dir = .ok ms) (s : σ) :
    let run := fun bound s => observe db (ExceptT.run (Engine.run table fs dir bound)) s
    let versions := ms.map fun m => m.version
    (∀ a ∈ versions, ∀ b ∈ versions, a ≠ 0 → a ≤ b →
      let first := run (some a) s
      let second := run (some b) first.state
      let whole := run (some b) s
      (∀ e, first.value = .error e → whole = first) ∧
      (∀ summary, first.value = .ok summary → second.state = whole.state ∧
        effects whole.log = effects first.log ++ effects second.log) ∧
      (∀ total, whole.value = .ok total → ∃ summary rest, first.value = .ok summary ∧
        second.value = .ok rest ∧ total.applied = summary.applied ++ rest.applied) ∧
      ∀ e m, whole.value = .error e → m ∈ ms → failedFile? e = some m.filename →
        (m.version ≤ a → first.value = .error e ∧ first.state = whole.state) ∧
        (a < m.version → ∃ summary, first.value = .ok summary ∧ second.value = .error e)) ∧
    (∀ g ∈ versions, g ≠ 0 → (∀ v ∈ versions, v ≤ g) →
      run none s = ⟨(run (some g) s).value.map fun summary => { summary with stoppedAt := none },
        (run (some g) s).log, (run (some g) s).state⟩) ∧
    ∀ a ∈ versions, ∀ c ∈ versions, c ≠ 0 → c ≤ a → ∀ summary,
      (run (some a) s).value = .ok summary →
        let again := run (some c) (run (some a) s).state
        effects again.log = [] ∧ again.state = (run (some a) s).state ∧
          ∃ nothing, again.value = .ok nothing ∧ nothing.applied = [] := by
  intro run versions
  refine ⟨fun a ha b hb hpos hab => ?_, fun g hg hpos hmax => ?_, ?_⟩
  · intro first second whole
    cases hfirst : first.value with
    | error e =>
      obtain ⟨hsame, hversion⟩ := run_fails hpos hab hms ha hb s hfirst
      have hwhole : whole = first := hsame
      rw [hwhole, hfirst]
      refine ⟨fun _ _ => rfl, nofun, nofun, fun e' m herror hm hfile => ?_⟩
      obtain rfl := Except.error.inj herror
      exact ⟨fun _ => ⟨rfl, rfl⟩, fun hlt => absurd (hversion m hm hfile) (UInt64.not_le.mpr hlt)⟩
    | ok summary =>
      obtain ⟨hlog, later, hlater, hgoes, again, skipped, hagain, hnone, hagoes⟩ :=
        run_goes_on hpos hab hms ha hb hdb hsteady s hfirst
      have hwhole : whole = _ := hgoes
      have hsecond : second = _ := hagoes
      rw [hwhole, hsecond]
      refine ⟨nofun, fun _ _ => ⟨rfl, ?_⟩, fun total htotal => ?_, fun e m herror hm hfile => ?_⟩
      · rw [effects_append hlog, effects_append hagain, hnone]
        rfl
      · obtain ⟨delta, hdelta, rfl⟩ := map_eq_ok.mp htotal
        exact ⟨summary, _, rfl, map_eq_ok.mpr ⟨delta, hdelta, rfl⟩, rfl⟩
      · have hrest := map_eq_error.mp herror
        obtain ⟨m', hm', hfile'⟩ := sweep_failed hrest
        obtain ⟨hm', hlt⟩ := hlater m' hm'
        obtain rfl := version_of_failedFile? hms hm hm' hfile hfile'
        exact ⟨fun hle => absurd hle (UInt64.not_le.mpr hlt), fun _ =>
          ⟨summary, rfl, map_eq_error.mpr hrest⟩⟩
  · exact run_unbounded hms hg hpos fun m hm => hmax m.version (List.mem_map_of_mem hm)
  · intro a ha c hc hpos hca summary hok again
    obtain ⟨heffects, hstate, hvalue⟩ := run_again hdb hsteady hms ha hc hpos hca hok
    exact ⟨heffects, hstate, _, hvalue, rfl⟩

end Run

/-- Up to the first file, and then up to the second. -/
theorem bounded_runs_compose_late :
    let run := fun bound s => observe liveDatabase
      (ExceptT.run (Engine.run .default threeFiles.fileSystem ⟨"m"⟩ bound)) s
    let first := run (some 1) lateStore
    (run (some 2) first.state).state = (run (some 2) lateStore).state ∧
      ∃ summary rest, first.value = .ok summary ∧ (run (some 2) first.state).value = .ok rest ∧
        ["1_a.sql"] = summary.applied ++ rest.applied := by
  obtain ⟨hsteps, -⟩ := bounded_runs_compose (threeFiles_tracks ⟨"m"⟩)
    ((live_steady .default).mono fun _ => threeFiles_spare) threeFiles_discover lateStore
  obtain ⟨-, hgoes, hok, -⟩ := hsteps 1 (by simp) 2 (by simp) (by decide) (by decide)
  obtain ⟨summary, rest, hfirst, hsecond, happlied⟩ := hok _ late_run_value
  exact ⟨(hgoes summary hfirst).1, summary, rest, hfirst, hsecond, happlied⟩

end SqlMigrations.Proofs
