import SqlMigrations.Database.Program

/-!
# Backends

A backend answers calls through a connection that speaks in raw values and plain texts. It holds a
lock during each call. A call that panics leaves the lock poisoned, and every later call fails
without reaching the connection.
-/

namespace SqlMigrations

/-- How a connection ends a call. -/
inductive Answer (α : Type) where
  | ok (value : α)
  | error (text : String)
  | panic

/-- The rows of a query, and the error met while stepping to the next one. -/
structure RawRows where
  rows : List (List RawValue)
  stepError : Option String := none

structure Connection (κ : Type) where
  execute : String → List RawValue → StateM κ (Answer Nat)
  executeBatch : String → StateM κ (Answer Unit)
  query : String → List RawValue → StateM κ (Answer RawRows)

/-- A connection behind its lock. -/
structure Backend (κ : Type) where
  connection : κ
  isPoisoned : Bool := false

/-- The mark of a call that did not return. -/
inductive Panic where
  | panic
  deriving DecidableEq, Repr

/-- Effects on a backend, which may panic. -/
abbrev BackendM (κ : Type) := ExceptT Panic (StateM (Backend κ))

namespace Backend

variable {κ α β : Type}

/-- A call to the connection under the lock, and what its answer comes to. -/
def locked (call : StateM κ (Answer α)) (wrap : String → DatabaseError)
    (decode : α → Except DatabaseError β) : BackendM κ (Except DatabaseError β) :=
  ExceptT.mk fun b =>
    if b.isPoisoned then (.ok (.error .poisoned), b)
    else
      let (answer, connection) := call.run b.connection
      match answer with
      | .ok value => (.ok (decode value), { b with connection })
      | .error text => (.ok (.error (wrap text)), { b with connection })
      | .panic => (.error .panic, { connection, isPoisoned := true })

/-- All rows of a query, unless stepping through them failed. -/
def allRows (answer : RawRows) : Except DatabaseError (List (List RawValue)) :=
  match answer.stepError with
  | some text => .error (.query ("row error: " ++ text))
  | none => .ok answer.rows

/-- The first row of a query; the others are not decoded. -/
def firstRow (answer : RawRows) : Except DatabaseError (Option Row) := do
  match (← allRows answer).head? with
  | some values => (Row.ofRaw values).map some
  | none => return none

def everyRow (answer : RawRows) : Except DatabaseError (List Row) := do
  (← allRows answer).mapM Row.ofRaw

/-- A text of the connection with the statement that it is about. -/
def about (sql text : String) : String := text ++ ": " ++ sql

/-- Answers calls through a connection. -/
def handler (c : Connection κ) : Handler (BackendM κ)
  | .execute sql params =>
    locked (c.execute sql (params.map SqlValue.toRaw)) (fun e => .execution (about sql e)) .ok
  | .executeBatch sql => locked (c.executeBatch sql) .execution .ok
  | .queryRow sql params =>
    locked (c.query sql (params.map SqlValue.toRaw)) (fun e => .query (about sql e)) firstRow
  | .query sql params =>
    locked (c.query sql (params.map SqlValue.toRaw)) (fun e => .query (about sql e)) everyRow

end Backend

/-- A fixed answer to a call. -/
inductive ScriptedReply where
  | error (text : String)
  | queryError (text : String)
  | rows (rows : RawRows)
  | affected (count : Nat)
  | panic
  | nothing

namespace Connection

variable {κ α : Type}

/-- Takes the answer to a call from a queue, if it has one, instead of from the connection. -/
def fromScript (reading : ScriptedReply → Answer α) (call : StateM κ (Answer α)) :
    StateM (List ScriptedReply × κ) (Answer α) := fun (script, state) =>
  match script with
  | reply :: rest => (reading reply, (rest, state))
  | [] =>
    let (answer, state) := call.run state
    (answer, ([], state))

/-- A connection with a queue of fixed answers in front of it. -/
def scripted (c : Connection κ) : Connection (List ScriptedReply × κ) where
  execute sql params := fromScript (fun
    | .error text => .error text
    | .panic => .panic
    | .affected count => .ok count
    | _ => .ok 0) (c.execute sql params)
  executeBatch sql := fromScript (fun
    | .error text => .error text
    | .panic => .panic
    | _ => .ok ()) (c.executeBatch sql)
  query sql params := fromScript (fun
    | .error text | .queryError text => .error text
    | .panic => .panic
    | .rows rows => .ok rows
    | _ => .ok ⟨[], none⟩) (c.query sql params)

end Connection
end SqlMigrations
