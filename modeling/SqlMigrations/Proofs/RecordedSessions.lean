import Mathlib.Data.List.DropRight
import SqlMigrations.Database.Recorder
import SqlMigrations.Proofs.Cuts
import SqlMigrations.Proofs.EngineUses
import SqlMigrations.Proofs.TrackingStatements

/-!
# Sessions over a recorded database

A session uses the engine over a recorded database and changes the recorder in between. What the
recorder holds is told by the session's events alone: the calls since the last reset and the rules
since they were last cleared. Each call is answered by one of these rules or by the database, so the
recorder adds nothing else, and the two counters find the bodies and the checks.
-/

namespace SqlMigrations.Proofs

variable {σ : Type}

/-- A recorded database, with the recorder in the state. -/
def recorded (db : Database σ) : Database (Recorder × σ) := fun c w =>
  let answer := ((Recorder.watch db c).run w.1).run w.2
  (answer.1.1, answer.1.2, answer.2)

/-- Programs do the same over a recorded database, wherever the recorder is kept. -/
theorem run_recorded {α : Type} (db : Database σ) (p : Program α) (w : Recorder × σ) :
    (p.run (recorded db)).run w =
      let answer := ((p.run (Recorder.watch db)).run w.1).run w.2
      (answer.1.1, answer.1.2, answer.2) := by
  induction p generalizing w with
  | done value => rfl
  | call c next ih => exact ih _ _

/-- A rule is for calls of this kind, and the text of the call holds its fragment. -/
def Matches (rule : FailureRule) (c : Call) : Prop :=
  rule.kind = c.kind ∧ rule.fragment.toList <:+: c.sql.toList

lemma fails_iff {r : Recorder} {c : Call} :
    r.fails c = true ↔ ∃ rule ∈ r.rules, Matches rule c := by
  simp [Recorder.fails, FailureRule.covers, Matches, contains_iff]

section Calls

variable (db : Database σ) {c : Call} {w : Recorder × σ}

lemma recorded_of_fails (h : w.1.fails c = true) :
    (recorded db c).run w = (.error (Recorder.injected c), w.1.note c, w.2) := by
  have hnote : (w.1.note c).fails c = true := h
  have hwatch : (Recorder.watch db c).run w.1 =
      pure (.error (Recorder.injected c), w.1.note c) := by
    simp [Recorder.watch, hnote]
  change (fun answer : _ × _ => (answer.1.1, answer.1.2, answer.2))
    (((Recorder.watch db c).run w.1).run w.2) = _
  rw [hwatch]
  rfl

lemma recorded_of_not_fails (h : w.1.fails c = false) :
    (recorded db c).run w = (((db c).run w.2).1, w.1.note c, ((db c).run w.2).2) := by
  have hnote : (w.1.note c).fails c = false := h
  have hwatch : (Recorder.watch db c).run w.1 =
      (fun reply => (reply, w.1.note c)) <$> db c := by
    simp [Recorder.watch, hnote]
  change (fun answer : _ × _ => (answer.1.1, answer.1.2, answer.2))
    (((Recorder.watch db c).run w.1).run w.2) = _
  rw [hwatch]
  rfl

end Calls

/-- A use of the engine on a tracking table, or a change to the recorder. -/
inductive Action where
  | engine (table : TableName) (u : Use)
  | failWhen (kind : CallKind) (fragment : String)
  | clearFailures
  | resetCalls

namespace Action

abbrev Result : Action → Type
  | engine _ u => Except EngineError u.Result
  | _ => Unit

def isReset : Action → Bool
  | resetCalls => true
  | _ => false

def isClear : Action → Bool
  | clearFailures => true
  | _ => false

def rule? : Action → Option FailureRule
  | failWhen kind fragment => some ⟨kind, fragment⟩
  | _ => none

end Action

/-- An action with what it comes to, its exchanges, and the recorder and the state around it. -/
structure Event (σ : Type) where
  action : Action
  value : action.Result
  log : List (Exchange (Recorder × σ))
  before : Recorder × σ
  after : Recorder × σ

def Action.perform (db : Database σ) (w : Recorder × σ) : Action → Event σ
  | engine table u =>
    let o := observe (recorded db) (ExceptT.run (u.engine table)) w
    ⟨engine table u, o.value, o.log, w, o.state⟩
  | failWhen kind fragment => ⟨failWhen kind fragment, (), [], w, w.1.failWhen kind fragment, w.2⟩
  | clearFailures => ⟨clearFailures, (), [], w, w.1.clearFailures, w.2⟩
  | resetCalls => ⟨resetCalls, (), [], w, w.1.resetCalls, w.2⟩

/-- Actions one after the other. -/
def session (db : Database σ) : List Action → Recorder × σ → List (Event σ)
  | [], _ => []
  | a :: actions, w => a.perform db w :: session db actions (a.perform db w).after

/-- The recorder and the state that a session leaves. -/
def worldAfter : Recorder × σ → List (Event σ) → Recorder × σ
  | w, [] => w
  | _, ev :: events => worldAfter ev.after events

section Readers

def sinceReset (events : List (Event σ)) : List (Event σ) :=
  events.rtakeWhile fun ev => !ev.action.isReset

/-- The calls since the last reset, whatever was answered. -/
def callsSinceReset (events : List (Event σ)) : List Call :=
  ((sinceReset events).flatMap Event.log).map Exchange.call

/-- The rules that were set since they were last cleared. -/
def rulesInForce (events : List (Event σ)) : List FailureRule :=
  (events.rtakeWhile fun ev => !ev.action.isClear).filterMap fun ev => ev.action.rule?

variable {events : List (Event σ)} {ev : Event σ}

lemma sinceReset_concat : sinceReset (events ++ [ev]) =
    if ev.action.isReset then [] else sinceReset events ++ [ev] := by
  unfold sinceReset
  rw [List.rtakeWhile_concat]
  cases ev.action.isReset <;> rfl

lemma callsSinceReset_concat : callsSinceReset (events ++ [ev]) =
    if ev.action.isReset then [] else callsSinceReset events ++ ev.log.map Exchange.call := by
  unfold callsSinceReset
  rw [sinceReset_concat]
  cases ev.action.isReset <;> simp

lemma rulesInForce_concat : rulesInForce (events ++ [ev]) =
    if ev.action.isClear then [] else rulesInForce events ++ ev.action.rule?.toList := by
  unfold rulesInForce
  rw [List.rtakeWhile_concat]
  cases ev.action.isClear <;> cases hrule : ev.action.rule? <;> simp [hrule]

end Readers

/-- A call that a rule matches fails without reaching the database, which answers any other one. -/
def Answered (db : Database σ) (rules : List FailureRule) (x : Exchange (Recorder × σ)) : Prop :=
  ((∃ rule ∈ rules, Matches rule x.call) →
      x.reply = .error (.execution ("injected failure: " ++ x.call.sql)) ∧
        x.after.2 = x.before.2) ∧
    ((∀ rule ∈ rules, ¬ Matches rule x.call) →
      (db x.call).run x.before.2 = (x.reply, x.after.2))

/-- The exchanges lead the database from a state to a state, with no change between them. -/
def Continues : σ → List (Exchange (Recorder × σ)) → σ → Prop
  | s, [], t => t = s
  | s, x :: log, t => x.before.2 = s ∧ Continues x.after.2 log t

lemma continues_append {s t u : σ} {log log' : List (Exchange (Recorder × σ))}
    (h : Continues s log t) (h' : Continues t log' u) : Continues s (log ++ log') u := by
  induction log generalizing s with
  | nil =>
    obtain rfl := h
    exact h'
  | cons x log ih => exact ⟨h.1, ih h.2⟩

section Exchanges

variable {db : Database σ} {w w' : Recorder × σ}

lemma recorded_answered {x : Exchange (Recorder × σ)}
    (h : (recorded db x.call).run x.before = (x.reply, x.after)) :
    x.after.1 = x.before.1.note x.call ∧ Answered db x.before.1.rules x := by
  by_cases hfails : x.before.1.fails x.call = true
  · have hrun := (recorded_of_fails db hfails).symm.trans h
    obtain ⟨hreply, hafter⟩ := Prod.mk.inj hrun
    have hmatch := fails_iff.mp hfails
    refine ⟨by rw [← hafter], fun _ => ⟨hreply.symm, by rw [← hafter]⟩, fun hnone => ?_⟩
    obtain ⟨rule, hrule, hmatches⟩ := hmatch
    exact absurd hmatches (hnone rule hrule)
  · rw [Bool.not_eq_true] at hfails
    have hrun := (recorded_of_not_fails db hfails).symm.trans h
    obtain ⟨hreply, hafter⟩ := Prod.mk.inj hrun
    refine ⟨by rw [← hafter], fun hmatch => ?_, fun _ => Prod.ext hreply (by rw [← hafter])⟩
    rw [fails_iff.mpr hmatch] at hfails
    cases hfails

/-- Exchanges grow the log by their calls and leave the rules alone. -/
lemma linked_recorded {log : List (Exchange (Recorder × σ))} (h : Linked (recorded db) w log w') :
    w'.1.calls = w.1.calls ++ log.map Exchange.call ∧ w'.1.rules = w.1.rules ∧
      (∀ x ∈ log, Answered db w.1.rules x) ∧ Continues w.2 log w'.2 := by
  induction log generalizing w with
  | nil =>
    obtain rfl := h
    simp [Continues]
  | cons x log ih =>
    obtain ⟨rfl, hanswer, hrest⟩ := h
    obtain ⟨hnote, hx⟩ := recorded_answered hanswer
    obtain ⟨hcalls, hrules, hlog, hcontinues⟩ := ih hrest
    have hkept : x.after.1.rules = x.before.1.rules := by rw [hnote]; rfl
    rw [hkept] at hrules hlog
    refine ⟨?_, hrules, List.forall_mem_cons.mpr ⟨hx, hlog⟩, rfl, hcontinues⟩
    rw [hcalls, hnote]
    simp [Recorder.note]

/-- Without a rule, a program does the same as without a recorder. -/
lemma observe_recorded {α : Type} (p : Program α) (h : w.1.rules = []) :
    (observe (recorded db) p w).value = (observe db p w.2).value ∧
      (observe (recorded db) p w).state.2 = (observe db p w.2).state ∧
      (observe (recorded db) p w).log.map Exchange.call =
        (observe db p w.2).log.map Exchange.call := by
  induction p generalizing w with
  | done value => exact ⟨rfl, rfl, rfl⟩
  | call c next ih =>
    have hfails : w.1.fails c = false := by simp [Recorder.fails, h]
    let w' : Recorder × σ := (w.1.note c, ((db c).run w.2).2)
    have hrest := ih ((db c).run w.2).1 (show w'.1.rules = [] from h)
    rw [observe_call, observe_call, recorded_of_not_fails db hfails]
    simpa using hrest

end Exchanges

/-- The text of a batch. -/
def batch? : Call → Option String
  | .executeBatch text => some text
  | _ => none

/-- The text that fails the counter of bodies. -/
def creationMark : String := "CREATE TABLE IF NOT EXISTS \"schema_migrations\""

/-- The text of a batch that is counted as a body. -/
def countedBody? (c : Call) : Option String :=
  (batch? c).filter fun text => !Text.contains creationMark.toList text.toList

/-- A call that is counted as a check. -/
def isCountedCheck (c : Call) : Bool :=
  c.kind == .queryRow &&
    "SELECT COUNT(*) FROM \"schema_migrations\"".toList.isPrefixOf c.sql.toList

lemma bodyExecutions_eq (r : Recorder) : r.bodyExecutions = r.calls.filterMap countedBody? := by
  have htexts : r.textsOf .executeBatch = r.calls.filterMap batch? := by
    unfold Recorder.textsOf
    induction r.calls with
    | nil => rfl
    | cons c calls ih =>
      cases c with
      | executeBatch text => exact congrArg (text :: ·) ih
      | execute | queryRow | query => exact ih
  unfold Recorder.bodyExecutions
  rw [htexts, List.filter_filterMap]
  rfl

lemma existenceChecks_eq (r : Recorder) : r.existenceChecks = r.calls.countP isCountedCheck := by
  unfold Recorder.existenceChecks Recorder.textsOf
  rw [List.filter_map, List.length_map, List.filter_filter, List.countP_eq_length_filter]
  refine congrArg List.length (List.filter_congr fun c _ => ?_)
  exact Bool.and_comm _ _

/-- The batches that an event hands over after its first call. -/
def Event.bodies (ev : Event σ) : List String := ev.log.tail.filterMap fun x => batch? x.call

/-- The filenames that an event checks in the default table. -/
def Event.checks (ev : Event σ) : List String := checkedFiles .default ev.log

/-- The engine was used on the default table, if at all, and no body holds the mark. -/
def Event.OnDefault (ev : Event σ) : Prop :=
  match ev.action with
  | .engine table _ =>
    table = .default ∧ ∀ text ∈ ev.bodies, ¬ creationMark.toList <:+: text.toList
  | _ => True

section Counters

variable {bodies : String → Prop} {log : List (Exchange σ)}

lemma countedBody?_create : countedBody? (createCall .default) = none := by
  obtain ⟨rest, hrest⟩ := create_toList .default
  have hmark : creationMark.toList <:+: (Statement.create.text .default).toList := by
    rw [hrest]
    exact ⟨"CREATE SEQUENCE IF NOT EXISTS \"schema_migrations_id_seq\";\n             ".toList,
      rest, by simp [creationMark, TableName.default]⟩
  have hcontains := contains_iff.mpr hmark
  simp [countedBody?, batch?, hcontains]

lemma isCountedCheck_check (filename : String) :
    isCountedCheck (checkCall .default filename) = true := by
  have hprefix : "SELECT COUNT(*) FROM \"schema_migrations\"".toList.isPrefixOf
      (Statement.check.text .default).toList = true := by
    rw [List.isPrefixOf_iff_prefix, check_toList]
    exact ⟨" WHERE filename = ?".toList, by simp [TableName.default]⟩
  rw [isCountedCheck, Bool.and_eq_true]
  exact ⟨rfl, hprefix⟩

lemma MayFollow.batch?_eq_none {c : Call} (h : MayFollow .default (fun _ => False) c) :
    batch? c = none := by
  cases h with
  | check | record | readAll => rfl
  | body h => exact h.elim

lemma countedBody?_eq {c : Call}
    (h : ∀ text, batch? c = some text → ¬ creationMark.toList <:+: text.toList) :
    countedBody? c = batch? c := by
  unfold countedBody?
  cases hbatch : batch? c with
  | none => rfl
  | some text =>
    have hunmarked : Text.contains creationMark.toList text.toList = false := by
      rw [← Bool.not_eq_true, contains_iff]
      exact h text hbatch
    simp [hunmarked]

lemma MayFollow.isCountedCheck_eq {x : Exchange σ} (h : MayFollow .default bodies x.call) :
    isCountedCheck x.call = (checkedFile? .default x).isSome := by
  obtain ⟨c, reply, before, after⟩ := x
  cases h with
  | check filename => rw [isCountedCheck_check]; simp [checkedFile?]
  | body | record | readAll => rfl

lemma WellOpened.filterMap_countedBody? (h : WellOpened .default bodies log)
    (hbodies : ∀ text ∈ log.tail.filterMap fun x => batch? x.call,
      ¬ creationMark.toList <:+: text.toList) :
    (log.map Exchange.call).filterMap countedBody? =
      log.tail.filterMap fun x => batch? x.call := by
  cases log with
  | nil => rfl
  | cons x log =>
    have hnone : countedBody? x.call = none := by
      rcases h.1 x rfl with hx | hx
      · rw [hx, countedBody?_create]
      · rw [countedBody?, hx.batch?_eq_none]
        rfl
    rw [List.map_cons, List.filterMap_cons_none hnone, List.filterMap_map]
    refine List.filterMap_congr fun y hy => countedBody?_eq fun text htext => ?_
    exact hbodies text (List.mem_filterMap.mpr ⟨y, hy, htext⟩)

lemma WellOpened.countP_isCountedCheck (h : WellOpened .default bodies log) :
    (log.map Exchange.call).countP isCountedCheck = (checkedFiles .default log).length := by
  unfold checkedFiles
  rw [List.countP_map, List.length_filterMap_eq_countP]
  refine List.countP_congr fun x hx => ?_
  have hx' : isCountedCheck x.call = (checkedFile? .default x).isSome := by
    cases log with
    | nil => cases hx
    | cons y log =>
      obtain ⟨hfirst, hrest⟩ := h
      rcases List.mem_cons.mp hx with rfl | hx
      · rcases hfirst x rfl with hcreate | hfollow
        · obtain ⟨c, reply, before, after⟩ := x
          obtain rfl := hcreate
          rfl
        · exact hfollow.isCountedCheck_eq
      · exact (hrest x hx).isCountedCheck_eq
  rw [Function.comp_apply, hx']

end Counters

/-- The recorder as a handler in front of the database brings about what the event shows. -/
def Event.IsWatched (db : Database σ) : Event σ → Prop
  | ⟨.engine table u, value, _, before, after⟩ =>
    (((ExceptT.run (u.engine table)).run (Recorder.watch db)).run before.1).run before.2 =
      ((value, after.1), after.2)
  | _ => True

/-- The engine does in an event what it does over the database alone. -/
def Event.IsBare (db : Database σ) : Event σ → Prop
  | ⟨.engine table u, value, log, before, after⟩ =>
    let bare := observe db (ExceptT.run (u.engine table)) before.2
    value = bare.value ∧ after.2 = bare.state ∧
      log.map Exchange.call = bare.log.map Exchange.call
  | _ => True

/-- The batches of an event are the creation of the table as its first call and then bodies. -/
def Event.IsOpened : Event σ → Prop
  | ⟨.engine table u, _, log, _, _⟩ => WellOpened table u.IsBody log
  | _ => True

section Perform

variable (db : Database σ) (w : Recorder × σ) (a : Action)

lemma perform_action : (a.perform db w).action = a := by
  cases a <;> rfl

lemma perform_calls : (a.perform db w).after.1.calls =
    if a.isReset then [] else w.1.calls ++ (a.perform db w).log.map Exchange.call := by
  cases a with
  | engine table u => exact (linked_recorded (observe_linked _ _ _)).1
  | failWhen kind fragment => exact (List.append_nil _).symm
  | clearFailures => exact (List.append_nil _).symm
  | resetCalls => rfl

lemma perform_rules : (a.perform db w).after.1.rules =
    if a.isClear then [] else w.1.rules ++ a.rule?.toList := by
  cases a with
  | engine table u =>
    have hlinked := observe_linked (recorded db) (ExceptT.run (u.engine table)) w
    exact (linked_recorded hlinked).2.1.trans (List.append_nil _).symm
  | failWhen kind fragment => rfl
  | clearFailures => rfl
  | resetCalls => exact (List.append_nil _).symm

lemma perform_answered : ∀ x ∈ (a.perform db w).log, Answered db w.1.rules x := by
  cases a with
  | engine table u => exact (linked_recorded (observe_linked _ _ _)).2.2.1
  | failWhen | clearFailures | resetCalls => exact fun x hx => nomatch hx

lemma perform_continues : Continues w.2 (a.perform db w).log (a.perform db w).after.2 := by
  cases a with
  | engine table u => exact (linked_recorded (observe_linked _ _ _)).2.2.2
  | failWhen | clearFailures | resetCalls => rfl

lemma perform_isWatched : (a.perform db w).IsWatched db := by
  cases a with
  | engine table u =>
    have hrun := (run_recorded db (ExceptT.run (u.engine table)) w).symm.trans
      (run_eq_observe (recorded db) (ExceptT.run (u.engine table)) w)
    have hvalue := congrArg Prod.fst hrun
    have hrecorder := congrArg (fun answer => answer.2.1) hrun
    have hstate := congrArg (fun answer => answer.2.2) hrun
    exact Prod.ext (Prod.ext hvalue hrecorder) hstate
  | failWhen | clearFailures | resetCalls => trivial

lemma perform_isBare (h : w.1.rules = []) : (a.perform db w).IsBare db := by
  cases a with
  | engine table u => exact observe_recorded _ h
  | failWhen | clearFailures | resetCalls => trivial

lemma perform_isOpened : (a.perform db w).IsOpened := by
  cases a with
  | engine table u => exact Use.wellOpened (observe_yields _ _ _)
  | failWhen | clearFailures | resetCalls => trivial

lemma perform_counted (h : (a.perform db w).OnDefault) :
    ((a.perform db w).log.map Exchange.call).filterMap countedBody? = (a.perform db w).bodies ∧
      ((a.perform db w).log.map Exchange.call).countP isCountedCheck =
        (a.perform db w).checks.length := by
  cases a with
  | engine table u =>
    obtain ⟨rfl, hbodies⟩ := h
    have hopened : WellOpened .default u.IsBody
        ((Action.engine .default u).perform db w).log := Use.wellOpened (observe_yields _ _ _)
    exact ⟨hopened.filterMap_countedBody? hbodies, hopened.countP_isCountedCheck⟩
  | failWhen | clearFailures | resetCalls => exact ⟨rfl, rfl⟩

end Perform

/-- What a session shows that has started from a new recorder. -/
structure Transparent (db : Database σ) (s : σ) (events : List (Event σ)) (w : Recorder × σ) :
    Prop where
  /-- The log holds the calls since the last reset, -/
  calls_eq : w.1.calls = callsSinceReset events
  /-- and the rules are those since they were last cleared. -/
  rules_eq : w.1.rules = rulesInForce events
  /-- The events are those of the recorder in front of the database. -/
  watched : ∀ ev ∈ events, ev.IsWatched db
  /-- Each call is answered by a rule then in force or else by the database, -/
  answered : Throughout (fun pre ev => ∀ x ∈ ev.log, Answered db (rulesInForce pre) x) events
  /-- which nothing but these calls changes. -/
  continues : Continues s (events.flatMap Event.log) w.2
  /-- Without a rule in force, the engine does what it does without a recorder. -/
  bare : Throughout (fun pre ev => rulesInForce pre = [] → ev.IsBare db) events
  opened : ∀ ev ∈ events, ev.IsOpened
  /-- On the default table and with bodies that do not hold the mark, the counters are exact. -/
  counted : (∀ ev ∈ sinceReset events, ev.OnDefault) →
    w.1.bodyExecutions = (sinceReset events).flatMap Event.bodies ∧
      w.1.existenceChecks = ((sinceReset events).flatMap Event.checks).length

section Session

variable {db : Database σ} {s : σ} {events : List (Event σ)} {w : Recorder × σ}

lemma throughout_concat {α : Type} {P : List α → α → Prop} {l : List α} {a : α} :
    Throughout P (l ++ [a]) ↔ Throughout P l ∧ P l a := by
  rw [throughout_append, throughout_cons, List.append_nil]
  exact ⟨fun h => ⟨h.1, h.2.1⟩, fun h => ⟨h.1, h.2, throughout_nil⟩⟩

lemma Transparent.nil : Transparent db s [] ({}, s) where
  calls_eq := rfl
  rules_eq := rfl
  watched := by simp
  answered := throughout_nil
  continues := rfl
  bare := throughout_nil
  opened := by simp
  counted _ := ⟨rfl, rfl⟩

lemma Transparent.concat (h : Transparent db s events w) (a : Action) :
    Transparent db s (events ++ [a.perform db w]) (a.perform db w).after where
  calls_eq := by
    rw [perform_calls, callsSinceReset_concat, perform_action, h.calls_eq]
  rules_eq := by
    rw [perform_rules, rulesInForce_concat, perform_action, h.rules_eq]
  watched := List.forall_mem_append.mpr
    ⟨h.watched, List.forall_mem_singleton.mpr (perform_isWatched db w a)⟩
  answered := by
    refine throughout_concat.mpr ⟨h.answered, ?_⟩
    rw [← h.rules_eq]
    exact perform_answered db w a
  continues := by
    rw [List.flatMap_append, List.flatMap_singleton]
    exact continues_append h.continues (perform_continues db w a)
  bare := by
    refine throughout_concat.mpr ⟨h.bare, fun hrules => ?_⟩
    exact perform_isBare db w a (h.rules_eq.trans hrules)
  opened := List.forall_mem_append.mpr
    ⟨h.opened, List.forall_mem_singleton.mpr (perform_isOpened db w a)⟩
  counted hdefault := by
    rw [bodyExecutions_eq, existenceChecks_eq, perform_calls]
    rw [sinceReset_concat, perform_action] at hdefault ⊢
    by_cases hreset : a.isReset = true
    · simp [hreset]
    · rw [if_neg hreset] at hdefault ⊢
      rw [if_neg hreset]
      obtain ⟨hbodies, hchecks⟩ := h.counted fun ev hev =>
        hdefault ev (List.mem_append_left _ hev)
      obtain ⟨hbodies', hchecks'⟩ := perform_counted db w a
        (hdefault _ (List.mem_append_right _ (List.mem_singleton_self _)))
      rw [bodyExecutions_eq] at hbodies
      rw [existenceChecks_eq] at hchecks
      rw [List.filterMap_append, List.countP_append, hbodies, hbodies', hchecks, hchecks']
      simp

lemma Transparent.session (h : Transparent db s events w) (actions : List Action) :
    Transparent db s (events ++ session db actions w) (worldAfter w (session db actions w)) := by
  induction actions generalizing events w with
  | nil =>
    rw [session, List.append_nil]
    exact h
  | cons a actions ih =>
    have hrest := ih (h.concat a)
    rw [List.append_assoc] at hrest
    exact hrest

end Session

/-- Over any database, a session shows no trace of the recorder but the failures of its rules. -/
theorem recorder_transparent (db : Database σ) (actions : List Action) (s : σ) :
    Transparent db s (session db actions ({}, s))
      (worldAfter ({}, s) (session db actions ({}, s))) :=
  Transparent.nil.session actions

end SqlMigrations.Proofs
