import SqlMigrations.Database.Program
import SqlMigrations.Text.Pieces

/-!
# Recorded databases

A log in front of a database. Every call is logged, those that match a failure rule then fail, and
the others reach the database.
-/

namespace SqlMigrations

/-- A rule that fails the calls of a kind whose text holds a fragment. -/
structure FailureRule where
  kind : CallKind
  fragment : String
  deriving DecidableEq, Repr

namespace FailureRule

def covers (rule : FailureRule) (c : Call) : Bool :=
  rule.kind == c.kind && Text.contains rule.fragment.toList c.sql.toList

end FailureRule

/-- The calls so far, the latest last, and the rules in force. -/
structure Recorder where
  calls : List Call := []
  rules : List FailureRule := []

namespace Recorder

def failWhen (r : Recorder) (kind : CallKind) (fragment : String) : Recorder :=
  { r with rules := r.rules ++ [⟨kind, fragment⟩] }

def clearFailures (r : Recorder) : Recorder := { r with rules := [] }

def resetCalls (r : Recorder) : Recorder := { r with calls := [] }

def note (r : Recorder) (c : Call) : Recorder := { r with calls := r.calls ++ [c] }

def fails (r : Recorder) (c : Call) : Bool := r.rules.any fun rule => rule.covers c

def injected (c : Call) : DatabaseError := .execution ("injected failure: " ++ c.sql)

/-- Logs a call and either fails it or hands it on. -/
def watch {m : Type → Type} [Monad m] (db : Handler m) : Handler (StateT Recorder m) := fun c => do
  modify fun r => r.note c
  if (← get).fails c then return .error (injected c)
  else liftM (db c)

/-- The texts of the calls of one kind. -/
def textsOf (r : Recorder) (kind : CallKind) : List String :=
  (r.calls.filter fun c => c.kind == kind).map Call.sql

/-- The batches that are not the creation of the default tracking table. -/
def bodyExecutions (r : Recorder) : List String :=
  (r.textsOf .executeBatch).filter fun sql =>
    !Text.contains "CREATE TABLE IF NOT EXISTS \"schema_migrations\"".toList sql.toList

/-- The number of checks against the default tracking table. -/
def existenceChecks (r : Recorder) : Nat :=
  ((r.textsOf .queryRow).filter fun sql =>
    "SELECT COUNT(*) FROM \"schema_migrations\"".toList.isPrefixOf sql.toList).length

/-- The number of calls that write a row. -/
def writes (r : Recorder) : Nat := (r.textsOf .execute).length

end Recorder
end SqlMigrations
