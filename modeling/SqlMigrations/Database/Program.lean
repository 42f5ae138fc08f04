import SqlMigrations.Database.Value

/-!
# Programs over a database

A program is either finished or makes one call and goes on with the reply, whatever it is. How the
calls are answered is left to a handler: a state machine, a log in front of one, or a fixed list of
replies.
-/

namespace SqlMigrations

inductive Call where
  | execute (sql : String) (params : List SqlValue)
  | executeBatch (sql : String)
  | queryRow (sql : String) (params : List SqlValue)
  | query (sql : String) (params : List SqlValue)
  deriving DecidableEq

inductive CallKind where
  | execute
  | executeBatch
  | queryRow
  | query
  deriving DecidableEq, Repr

namespace Call

def kind : Call → CallKind
  | .execute .. => .execute
  | .executeBatch _ => .executeBatch
  | .queryRow .. => .queryRow
  | .query .. => .query

def sql : Call → String
  | .execute sql _ | .executeBatch sql | .queryRow sql _ | .query sql _ => sql

/-- What a call answers when it succeeds: the number of rows changed, nothing, the first row if
there is one, or every row. -/
abbrev Reply : Call → Type
  | .execute .. => Nat
  | .executeBatch _ => Unit
  | .queryRow .. => Option Row
  | .query .. => List Row

end Call

/-- An answer to each call. -/
abbrev Handler (m : Type → Type) := (c : Call) → m (Except DatabaseError c.Reply)

/-- A handler that answers from a state and changes it. -/
abbrev Database (σ : Type) := Handler (StateM σ)

inductive Program (α : Type) where
  | done (value : α)
  | call (c : Call) (next : Except DatabaseError c.Reply → Program α)

namespace Program

variable {α β : Type}

def bind : Program α → (α → Program β) → Program β
  | .done value, f => f value
  | .call c next, f => .call c fun reply => bind (next reply) f

instance : Monad Program where
  pure := .done
  bind := bind

/-- A single call and its reply. -/
def ask (c : Call) : Program (Except DatabaseError c.Reply) := .call c .done

/-- The effect of a program whose calls a handler answers. -/
def run {m : Type → Type} [Monad m] (handler : Handler m) : Program α → m α
  | .done value => pure value
  | .call c next => do run handler (next (← handler c))

end Program
end SqlMigrations
