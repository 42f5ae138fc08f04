import SqlMigrations.Engine.Tracking
import SqlMigrations.Proofs.Results

/-!
# Observed programs

A program over a database, seen through a log of its exchanges. `Yields` keeps the database out: it
relates a program to every log that some replies lead to. What a database adds is that each exchange
starts in the state that the one before it left.
-/

namespace SqlMigrations.Proofs

/-- A call with its reply, and the states of the database around it. -/
structure Exchange (σ : Type) where
  call : Call
  reply : Except DatabaseError call.Reply
  before : σ
  after : σ

/-- Answers as a database does and logs the exchange. -/
def logged {σ : Type} (db : Database σ) : Database (List (Exchange σ) × σ) := fun c w =>
  let answer := (db c).run w.2
  (answer.1, w.1 ++ [⟨c, answer.1, w.2, answer.2⟩], answer.2)

/-- What a program comes to: its value, its exchanges, and the state that it leaves. -/
structure Observation (σ α : Type) where
  value : α
  log : List (Exchange σ)
  state : σ

/-- Runs a program from a state over a database with an empty log in front of it. -/
def observe {σ α : Type} (db : Database σ) (p : Program α) (s : σ) : Observation σ α :=
  let result := (p.run (logged db)).run ([], s)
  ⟨result.1, result.2.1, result.2.2⟩

section Equations

variable {σ α : Type} (db : Database σ)

/-- A log that is already there stays in front. -/
lemma run_logged (p : Program α) (log : List (Exchange σ)) (s : σ) :
    (p.run (logged db)).run (log, s) =
      ((observe db p s).value, log ++ (observe db p s).log, (observe db p s).state) := by
  induction p generalizing log s with
  | done value =>
    change (value, log, s) = (value, log ++ [], s)
    rw [List.append_nil]
  | call c next ih =>
    have hstep : ∀ l : List (Exchange σ), ((Program.call c next).run (logged db)).run (l, s) =
        ((next ((db c).run s).1).run (logged db)).run
          (l ++ [⟨c, ((db c).run s).1, s, ((db c).run s).2⟩], ((db c).run s).2) := fun _ => rfl
    simp only [observe]
    rw [hstep log, hstep [], ih, ih]
    simp [List.append_assoc]

@[simp]
lemma observe_done (value : α) (s : σ) : observe db (.done value) s = ⟨value, [], s⟩ := rfl

lemma observe_call (c : Call) (next : Except DatabaseError c.Reply → Program α) (s : σ) :
    observe db (.call c next) s =
      let answer := (db c).run s
      let rest := observe db (next answer.1) answer.2
      ⟨rest.value, ⟨c, answer.1, s, answer.2⟩ :: rest.log, rest.state⟩ := by
  have hstep : ((Program.call c next).run (logged db)).run ([], s) =
      ((next ((db c).run s).1).run (logged db)).run
        ([⟨c, ((db c).run s).1, s, ((db c).run s).2⟩], ((db c).run s).2) := rfl
  unfold observe
  rw [hstep, run_logged]
  rfl

/-- The log changes neither the value of a program nor the state that it leaves. -/
theorem run_eq_observe (p : Program α) (s : σ) :
    (p.run db).run s = ((observe db p s).value, (observe db p s).state) := by
  induction p generalizing s with
  | done value => rfl
  | call c next ih =>
    rw [observe_call]
    exact ih _ _

end Equations

/-- The exchanges lead from a state to a state, each answered by the database. -/
def Linked {σ : Type} (db : Database σ) : σ → List (Exchange σ) → σ → Prop
  | s, [], t => t = s
  | s, e :: log, t =>
      e.before = s ∧ (db e.call).run s = (e.reply, e.after) ∧ Linked db e.after log t

lemma linked_append {σ : Type} {db : Database σ} {s t : σ} {log₁ log₂ : List (Exchange σ)} :
    Linked db s (log₁ ++ log₂) t ↔ ∃ u, Linked db s log₁ u ∧ Linked db u log₂ t := by
  induction log₁ generalizing s with
  | nil => simp [Linked]
  | cons e log₁ ih =>
    simp only [List.cons_append, Linked, ih]
    constructor
    · rintro ⟨hb, hd, u, h₁, h₂⟩
      exact ⟨u, ⟨hb, hd, h₁⟩, h₂⟩
    · rintro ⟨u, ⟨hb, hd, h₁⟩, h₂⟩
      exact ⟨hb, hd, u, h₁, h₂⟩

/-- An exchange in a linked log is answered by the database. -/
lemma linked_answer {σ : Type} {db : Database σ} {s t : σ} {log : List (Exchange σ)}
    {x : Exchange σ} (hl : Linked db s log t) (hx : x ∈ log) :
    (db x.call).run x.before = (x.reply, x.after) := by
  induction log generalizing s with
  | nil => cases hx
  | cons y log ih =>
    obtain ⟨hbefore, hanswer, hrest⟩ := hl
    rcases List.mem_cons.mp hx with rfl | hx
    · rw [hbefore]
      exact hanswer
    · exact ih hrest hx

theorem observe_linked {σ α : Type} (db : Database σ) (p : Program α) (s : σ) :
    Linked db s (observe db p s).log (observe db p s).state := by
  induction p generalizing s with
  | done value => rfl
  | call c next ih =>
    rw [observe_call]
    exact ⟨rfl, rfl, ih _ _⟩

/-- Some replies lead a program through these exchanges to this value. -/
inductive Yields {σ α : Type} : Program α → List (Exchange σ) → α → Prop
  | done (value : α) : Yields (.done value) [] value
  | call {c : Call} {next : Except DatabaseError c.Reply → Program α} {log : List (Exchange σ)}
      {value : α} (reply : Except DatabaseError c.Reply) (before after : σ)
      (rest : Yields (next reply) log value) :
      Yields (.call c next) (⟨c, reply, before, after⟩ :: log) value

theorem observe_yields {σ α : Type} (db : Database σ) (p : Program α) (s : σ) :
    Yields p (observe db p s).log (observe db p s).value := by
  induction p generalizing s with
  | done value => exact .done value
  | call c next ih =>
    rw [observe_call]
    exact .call _ _ _ (ih _ _)

section Inversion

variable {σ α β : Type} {log : List (Exchange σ)}

lemma yields_done {a b : α} : Yields (.done a) log b ↔ log = [] ∧ b = a := by
  constructor
  · rintro ⟨⟩
    exact ⟨rfl, rfl⟩
  · rintro ⟨rfl, rfl⟩
    exact .done _

lemma yields_call {c : Call} {next : Except DatabaseError c.Reply → Program α} {a : α} :
    Yields (.call c next) log a ↔ ∃ reply before after rest,
      log = ⟨c, reply, before, after⟩ :: rest ∧ Yields (next reply) rest a := by
  constructor
  · rintro ⟨⟩
    exact ⟨_, _, _, _, rfl, by assumption⟩
  · rintro ⟨reply, before, after, rest, rfl, h⟩
    exact .call reply before after h

lemma yields_bind {p : Program α} {f : α → Program β} {b : β} :
    Yields (p.bind f) log b ↔
      ∃ log₁ a log₂, log = log₁ ++ log₂ ∧ Yields p log₁ a ∧ Yields (f a) log₂ b := by
  induction p generalizing log with
  | done value =>
    simp only [Program.bind, yields_done]
    constructor
    · intro h
      exact ⟨[], value, log, rfl, ⟨rfl, rfl⟩, h⟩
    · rintro ⟨_, _, _, rfl, ⟨rfl, rfl⟩, h⟩
      exact h
  | call c next ih =>
    simp only [Program.bind, yields_call, ih]
    constructor
    · rintro ⟨reply, before, after, _, rfl, log₁, a, log₂, rfl, h₁, h₂⟩
      exact ⟨_, a, log₂, rfl, ⟨reply, before, after, log₁, rfl, h₁⟩, h₂⟩
    · rintro ⟨_, a, log₂, rfl, ⟨reply, before, after, log₁, rfl, h₁⟩, h₂⟩
      exact ⟨reply, before, after, _, rfl, log₁, a, log₂, rfl, h₁, h₂⟩

end Inversion

/-! ### Programs that may end in an error of the engine -/

section Engine

variable {σ α β : Type} {log : List (Exchange σ)}

lemma yields_pure {a : α} {r : Except EngineError α} :
    Yields (ExceptT.run (pure a : Engine α)) log r ↔ log = [] ∧ r = .ok a :=
  yields_done

lemma yields_throw {e : EngineError} {r : Except EngineError α} :
    Yields (ExceptT.run (throw e : Engine α)) log r ↔ log = [] ∧ r = .error e :=
  yields_done

lemma yields_lift {x r : Except EngineError α} :
    Yields (ExceptT.run (liftM x : Engine α)) log r ↔ log = [] ∧ r = x :=
  yields_done

lemma yields_ask {c : Call} {wrap : DatabaseError → EngineError} {r : Except EngineError c.Reply} :
    Yields (ExceptT.run (Engine.ask c wrap)) log r ↔ ∃ reply before after,
      log = [⟨c, reply, before, after⟩] ∧ r = reply.mapError wrap := by
  have h : ExceptT.run (Engine.ask c wrap) = .call c fun reply => .done (reply.mapError wrap) := rfl
  rw [h, yields_call]
  constructor
  · rintro ⟨reply, before, after, rest, rfl, hr⟩
    obtain ⟨rfl, rfl⟩ := yields_done.mp hr
    exact ⟨reply, before, after, rfl, rfl⟩
  · rintro ⟨reply, before, after, rfl, rfl⟩
    exact ⟨reply, before, after, [], rfl, .done _⟩

/-- Either the first part ends well and the second goes on, or the first part's error stands. -/
lemma yields_andThen {x : Engine α} {f : α → Engine β} {r : Except EngineError β} :
    Yields (ExceptT.run (x >>= f)) log r ↔
      (∃ log₁ a log₂, log = log₁ ++ log₂ ∧ Yields (ExceptT.run x) log₁ (.ok a) ∧
          Yields (ExceptT.run (f a)) log₂ r) ∨
        ∃ e, Yields (ExceptT.run x) log (.error e) ∧ r = .error e := by
  have h : ExceptT.run (x >>= f) = Program.bind (ExceptT.run x) fun
      | .ok a => ExceptT.run (f a)
      | .error e => .done (.error e) := by
    rw [ExceptT.run_bind]
    refine congrArg (Program.bind (ExceptT.run x)) (funext fun a => ?_)
    cases a <;> rfl
  rw [h, yields_bind]
  constructor
  · rintro ⟨log₁, a | a, log₂, rfl, h₁, h₂⟩
    · obtain ⟨rfl, rfl⟩ := yields_done.mp h₂
      exact .inr ⟨a, by simpa using h₁, rfl⟩
    · exact .inl ⟨log₁, a, log₂, rfl, h₁, h₂⟩
  · rintro (⟨log₁, a, log₂, rfl, h₁, h₂⟩ | ⟨e, h₁, rfl⟩)
    · exact ⟨log₁, .ok a, log₂, rfl, h₁, h₂⟩
    · exact ⟨log, .error e, [], by simp, h₁, .done _⟩

end Engine

/-- Each element of a list stands in a relation to the elements before it. -/
def Throughout {α : Type} (P : List α → α → Prop) (l : List α) : Prop :=
  ∀ pre a post, l = pre ++ a :: post → P pre a

section Throughout

variable {α : Type} {P Q : List α → α → Prop}

lemma throughout_nil : Throughout P [] := by
  intro pre a post h
  simp at h

lemma throughout_cons {a : α} {l : List α} :
    Throughout P (a :: l) ↔ P [] a ∧ Throughout (fun pre => P (a :: pre)) l := by
  constructor
  · intro h
    refine ⟨h [] a l rfl, fun pre b post hl => ?_⟩
    exact h (a :: pre) b post (by rw [hl, List.cons_append])
  · rintro ⟨ha, hl⟩ pre b post h
    cases pre with
    | nil =>
      obtain ⟨rfl, -⟩ := List.cons.inj h
      exact ha
    | cons c pre =>
      obtain ⟨rfl, htail⟩ := List.cons.inj h
      exact hl pre b post htail

lemma throughout_append {l l' : List α} :
    Throughout P (l ++ l') ↔ Throughout P l ∧ Throughout (fun pre => P (l ++ pre)) l' := by
  induction l generalizing P with
  | nil =>
    exact ⟨fun h => ⟨throughout_nil, h⟩, fun h => h.2⟩
  | cons a l ih =>
    rw [List.cons_append, throughout_cons, throughout_cons, ih, and_assoc]
    rfl

lemma Throughout.imp {l : List α} (h : Throughout P l) (himp : ∀ pre a, P pre a → Q pre a) :
    Throughout Q l :=
  fun pre a post hl => himp pre a (h pre a post hl)

end Throughout

end SqlMigrations.Proofs
