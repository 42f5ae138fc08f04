import Mathlib.Tactic.Lemma
import SqlMigrations.Database.Backend

/-!
# Calls to a backend

The four calls to a backend in one form. Each asks the connection for one thing under the lock and
comes to what the connection's answer is worth to it; the lock is poisoned afterwards if and only if
the connection has panicked, and a poisoned lock keeps every call from the connection.
-/

namespace SqlMigrations.Proofs

variable {κ α : Type}

/-- What a connection hands out for a call. -/
abbrev Handed : Call → Type
  | .execute .. => Nat
  | .executeBatch _ => Unit
  | .queryRow .. | .query .. => RawRows

/-- What a call asks a connection for. -/
def asked (c : Connection κ) : (call : Call) → StateM κ (Answer (Handed call))
  | .execute sql params => c.execute sql (params.map SqlValue.toRaw)
  | .executeBatch sql => c.executeBatch sql
  | .queryRow sql params | .query sql params => c.query sql (params.map SqlValue.toRaw)

/-- The error of a call that the connection refuses with a text. -/
def refusal : Call → String → DatabaseError
  | .execute sql _ => fun text => .execution (Backend.about sql text)
  | .executeBatch _ => .execution
  | .queryRow sql _ | .query sql _ => fun text => .query (Backend.about sql text)

/-- What a call makes of what it is handed. -/
def made : (call : Call) → Handed call → Except DatabaseError call.Reply
  | .execute .. => .ok
  | .executeBatch _ => .ok
  | .queryRow .. => Backend.firstRow
  | .query .. => Backend.everyRow

/-- What an answer of the connection is worth to a call. -/
def worth (call : Call) : Answer (Handed call) → Except Panic (Except DatabaseError call.Reply)
  | .ok value => .ok (made call value)
  | .error text => .ok (.error (refusal call text))
  | .panic => .error .panic

/-- Whether a connection has panicked. -/
def isPanic : Answer α → Bool
  | .panic => true
  | _ => false

section Calls

variable (c : Connection κ) (call : Call) {b : Backend κ}

lemma handler_eq_locked : Backend.handler c call =
    Backend.locked (asked c call) (refusal call) (made call) := by
  cases call <;> rfl

/-- A call behind a poisoned lock fails and leaves everything as it is. -/
lemma handler_of_poisoned (h : b.isPoisoned = true) :
    (Backend.handler c call).run.run b = (.ok (.error .poisoned), b) := by
  rw [handler_eq_locked]
  change (if b.isPoisoned = true then _ else _) = _
  rw [if_pos h]

lemma handler_of_unpoisoned (h : b.isPoisoned = false) :
    (Backend.handler c call).run.run b =
      let answer := (asked c call).run b.connection
      (worth call answer.1, ⟨answer.2, isPanic answer.1⟩) := by
  obtain ⟨connection, isPoisoned⟩ := b
  obtain rfl : isPoisoned = false := h
  rw [handler_eq_locked]
  simp only [Backend.locked, ExceptT.run, ExceptT.mk, StateT.run]
  rcases asked c call connection with ⟨_ | _ | _, next⟩ <;> rfl

lemma run_call {β : Type} (next : Except DatabaseError call.Reply → Program β) (b : Backend κ) :
    ((Program.call call next).run (Backend.handler c)).run.run b =
      match (Backend.handler c call).run.run b with
      | (.ok reply, b') => ((next reply).run (Backend.handler c)).run.run b'
      | (.error mark, b') => (.error mark, b') := by
  simp only [Program.run, ExceptT.run_bind, StateT.run_bind]
  rcases (Backend.handler c call).run.run b with ⟨_ | _, b'⟩ <;> rfl

variable {call}

lemma worth_eq_panic {answer : Answer (Handed call)} :
    worth call answer = .error .panic ↔ isPanic answer = true := by
  cases answer <;> simp [worth, isPanic]

end Calls

end SqlMigrations.Proofs
