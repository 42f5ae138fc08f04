import Mathlib.Logic.Function.Basic
import SqlMigrations.Proofs.Observation

/-!
# Interleaved programs

Programs that take turns on one database, one call at a time, as a schedule says. A call is answered
in the state that the call before it has left, whoever made that. So all exchanges together are
linked, and those of each program are what its own replies have led it through.
-/

namespace SqlMigrations.Proofs

variable {ι σ α : Type}

/-- Where programs that take turns have got to: what is left of each, every exchange so far with the
program that it belongs to, and the state of the database. -/
structure Interleaving (ι σ α : Type) where
  programs : ι → Program α
  trace : List (ι × Exchange σ)
  state : σ

/-- The exchanges of one program. -/
def Interleaving.logOf [DecidableEq ι] (x : Interleaving ι σ α) (i : ι) : List (Exchange σ) :=
  (x.trace.filter fun y => y.1 = i).map Prod.snd

/-- A program makes its next call; one that has ended passes. -/
def Interleaving.turn [DecidableEq ι] (db : Database σ) (x : Interleaving ι σ α) (i : ι) :
    Interleaving ι σ α :=
  match x.programs i with
  | .done _ => x
  | .call c next =>
    let answer := (db c).run x.state
    ⟨Function.update x.programs i (next answer.1),
      x.trace ++ [(i, ⟨c, answer.1, x.state, answer.2⟩)], answer.2⟩

/-- The programs take turns from a state on. -/
def interleave [DecidableEq ι] (db : Database σ) (programs : ι → Program α) (s : σ)
    (schedule : List ι) : Interleaving ι σ α :=
  schedule.foldl (Interleaving.turn db) ⟨programs, [], s⟩

/-- Some replies lead from a program through these exchanges to what is left of it. -/
inductive Reaches : Program α → List (Exchange σ) → Program α → Prop
  | refl (p : Program α) : Reaches p [] p
  | call {p : Program α} {log : List (Exchange σ)} {c : Call}
      {next : Except DatabaseError c.Reply → Program α} (h : Reaches p log (.call c next))
      (reply : Except DatabaseError c.Reply) (before after : σ) :
      Reaches p (log ++ [⟨c, reply, before, after⟩]) (next reply)

lemma Reaches.yields {p q : Program α} {log log' : List (Exchange σ)} {value : α}
    (h : Reaches p log q) (hrest : Yields q log' value) : Yields p (log ++ log') value := by
  induction h generalizing log' with
  | refl => exact hrest
  | call _ reply before after ih =>
    rw [List.append_assoc]
    exact ih (.call reply before after hrest)

/-- What is left of a program can be gone through in some way. -/
lemma Reaches.exists_yields {p q : Program α} {log : List (Exchange σ)} (h : Reaches p log q)
    (s : σ) : ∃ log' value, Yields p (log ++ log') value :=
  ⟨_, _, h.yields (observe_yields (fun _ t => (.error .poisoned, t)) q s)⟩

section Turn

variable [DecidableEq ι] {db : Database σ} {programs : ι → Program α} {s : σ}
  {x : Interleaving ι σ α} {i j : ι} {c : Call} {next : Except DatabaseError c.Reply → Program α}

lemma mem_logOf {e : Exchange σ} : e ∈ x.logOf i ↔ (i, e) ∈ x.trace := by
  simp [Interleaving.logOf]

lemma mem_trace_of_logOf {e : Exchange σ} (he : e ∈ x.logOf i) : e ∈ x.trace.map Prod.snd :=
  List.mem_map.mpr ⟨(i, e), mem_logOf.mp he, rfl⟩

lemma turn_of_done {value : α} (h : x.programs i = .done value) : x.turn db i = x := by
  simp only [Interleaving.turn, h]

lemma turn_of_call (h : x.programs i = .call c next) :
    x.turn db i = ⟨Function.update x.programs i (next ((db c).run x.state).1),
      x.trace ++ [(i, ⟨c, ((db c).run x.state).1, x.state, ((db c).run x.state).2⟩)],
      ((db c).run x.state).2⟩ := by
  simp only [Interleaving.turn, h]

lemma turn_of_answer {reply : Except DatabaseError c.Reply} {t : σ}
    (h : x.programs i = .call c next) (hanswer : (db c).run x.state = (reply, t)) :
    x.turn db i = ⟨Function.update x.programs i (next reply),
      x.trace ++ [(i, ⟨c, reply, x.state, t⟩)], t⟩ := by
  rw [turn_of_call h, hanswer]

lemma programs_turn_self (h : x.programs i = .call c next) :
    (x.turn db i).programs i = next ((db c).run x.state).1 := by
  simp [turn_of_call h]

lemma logOf_turn_self (h : x.programs i = .call c next) :
    (x.turn db i).logOf i =
      x.logOf i ++ [⟨c, ((db c).run x.state).1, x.state, ((db c).run x.state).2⟩] := by
  simp [turn_of_call h, Interleaving.logOf]

/-- A turn leaves the other programs alone. -/
lemma turn_of_ne (db : Database σ) (x : Interleaving ι σ α) (hne : j ≠ i) :
    (x.turn db i).programs j = x.programs j ∧ (x.turn db i).logOf j = x.logOf j := by
  cases h : x.programs i with
  | done value =>
    rw [turn_of_done h]
    exact ⟨rfl, rfl⟩
  | call c next => simp [turn_of_call h, Interleaving.logOf, hne, Ne.symm hne]

lemma interleave_cons {schedule : List ι} :
    interleave db programs s (i :: schedule) =
      schedule.foldl (Interleaving.turn db) ((⟨programs, [], s⟩ : Interleaving ι σ α).turn db i) :=
  rfl

/-- What holds after any number of turns. -/
structure Interleaved (db : Database σ) (programs : ι → Program α) (s : σ)
    (x : Interleaving ι σ α) : Prop where
  linked : Linked db s (x.trace.map Prod.snd) x.state
  reaches : ∀ i, Reaches (programs i) (x.logOf i) (x.programs i)

lemma Interleaved.answer (h : Interleaved db programs s x) {e : Exchange σ} (he : e ∈ x.logOf i) :
    (db e.call).run e.before = (e.reply, e.after) :=
  linked_answer h.linked (mem_trace_of_logOf he)

lemma Interleaved.turn (h : Interleaved db programs s x) (i : ι) :
    Interleaved db programs s (x.turn db i) := by
  cases hi : x.programs i with
  | done value =>
    rw [turn_of_done hi]
    exact h
  | call c next =>
    refine ⟨?_, fun j => ?_⟩
    · rw [turn_of_call hi, List.map_append]
      exact linked_append.mpr ⟨x.state, h.linked, rfl, rfl, rfl⟩
    · have hj := h.reaches j
      by_cases hne : j = i
      · subst hne
        rw [programs_turn_self hi, logOf_turn_self hi]
        rw [hi] at hj
        exact hj.call _ _ _
      · rw [(turn_of_ne db x hne).1, (turn_of_ne db x hne).2]
        exact hj

theorem interleaved_interleave (db : Database σ) (programs : ι → Program α) (s : σ)
    (schedule : List ι) : Interleaved db programs s (interleave db programs s schedule) := by
  have hturns : ∀ x : Interleaving ι σ α, Interleaved db programs s x →
      Interleaved db programs s (schedule.foldl (Interleaving.turn db) x) := by
    induction schedule with
    | nil => exact fun x hx => hx
    | cons i schedule ih => exact fun x hx => ih _ (hx.turn i)
  exact hturns _ ⟨rfl, fun i => .refl (programs i)⟩

/-- A program that keeps the turn until it ends comes to what it comes to alone. -/
theorem turns_of_one {n : ℕ} (hn : (observe db (x.programs i) x.state).log.length ≤ n) :
    let o := observe db (x.programs i) x.state
    let y := (List.replicate n i).foldl (Interleaving.turn db) x
    y.programs i = .done o.value ∧ y.logOf i = x.logOf i ++ o.log ∧ y.state = o.state ∧
      ∀ j, j ≠ i → y.programs j = x.programs j ∧ y.logOf j = x.logOf j := by
  dsimp only
  induction n generalizing x with
  | zero =>
    cases hi : x.programs i with
    | done value => simp [hi]
    | call c next => simp [hi, observe_call] at hn
  | succ n ih =>
    rw [List.replicate_succ, List.foldl_cons]
    cases hi : x.programs i with
    | done value =>
      rw [turn_of_done hi, ← hi]
      exact ih (by simp [hi])
    | call c next =>
      have hself : (x.turn db i).programs i = next ((db c).run x.state).1 := programs_turn_self hi
      have hstate : (x.turn db i).state = ((db c).run x.state).2 := by rw [turn_of_call hi]
      have hrest := ih (x := x.turn db i) (by
        rw [hself, hstate]
        simpa [hi, observe_call] using hn)
      rw [hself, hstate] at hrest
      obtain ⟨hdone, hlog, hend, hothers⟩ := hrest
      rw [observe_call]
      refine ⟨hdone, ?_, hend, fun j hj => ?_⟩
      · rw [hlog, logOf_turn_self hi, List.append_assoc]
        rfl
      · obtain ⟨hprogram, hlogj⟩ := hothers j hj
        obtain ⟨hprogram', hlogj'⟩ := turn_of_ne db x hj
        exact ⟨hprogram.trans hprogram', hlogj.trans hlogj'⟩

end Turn

end SqlMigrations.Proofs
