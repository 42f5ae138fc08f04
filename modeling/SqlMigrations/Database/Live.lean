import SqlMigrations.Database.Backend
import SqlMigrations.Database.Sql
import SqlMigrations.Database.Store

/-!
# Live stores

A store with a clock, as a connection. The clock gives each inserted row its time and goes on by a
second; an insertion that fails leaves it alone.
-/

namespace SqlMigrations

structure LiveStore where
  store : Store := {}
  clock : Int64
  deriving DecidableEq

namespace LiveStore

/-- The start of 2024 in microseconds. -/
def firstClock : Int64 := 1704067200000000

/-- Ends a call with the texts of a store's errors. -/
def answer {α : Type} : Except StoreError α → Answer α
  | .ok value => .ok value
  | .error e => .error e.message

def insert (s : LiveStore) (table filename : String) : Except StoreError LiveStore := do
  let store ← s.store.insert table filename s.clock
  return ⟨store, s.clock + 1000000⟩

/-- Runs one command of a batch. -/
def perform (s : LiveStore) : Sql.Command → Except StoreError LiveStore
  | .select => .ok s
  | .createTable name => (s.store.createPlain name).map fun store => { s with store }
  | .dropTable name => (s.store.drop name).map fun store => { s with store }
  | .deleteFrom name => (s.store.clear name).map fun store => { s with store }
  | .insert table filename => s.insert table filename

/-- Runs statements until the first error; those before it keep their effect. -/
def performAll (s : LiveStore) : List (List Char) → Answer Unit × LiveStore
  | [] => (.ok (), s)
  | text :: rest =>
    match (Sql.command? text).elim (.error .syntaxError) s.perform with
    | .ok next => performAll next rest
    | .error e => (.error e.message, s)

def runBatch (sql : String) (s : LiveStore) : Answer Unit × LiveStore :=
  match Sql.createdTracking? sql with
  | some (some name) => (.ok (), { s with store := s.store.ensureTracking name })
  | some none => (.error StoreError.syntaxError.message, s)
  | none => s.performAll (Sql.statements sql.toList)

def answerExecute (sql : String) (params : List RawValue) (s : LiveStore) :
    Answer Nat × LiveStore :=
  match Sql.insertion? sql, params with
  | some table, [.text filename] =>
    match s.insert table filename with
    | .ok next => (.ok 1, next)
    | .error e => (.error e.message, s)
  | _, _ => (.error StoreError.syntaxError.message, s)

/-- The row that a query shows for a stored one. -/
def shown (row : StoredRow) : List RawValue :=
  [.text row.filename, .timestamp .microsecond row.micros]

def answerQuery (sql : String) (params : List RawValue) (s : LiveStore) : Answer RawRows :=
  match Sql.query? sql, params with
  | some (.parameters count), params =>
    if count = params.length then .ok ⟨[params], none⟩
    else .error StoreError.syntaxError.message
  | some (.countOf table), [.text filename] =>
    answer ((s.store.rows table).map fun rows =>
      ⟨[[.integer .bigInt (rows.filter fun row => row.filename == filename).length]], none⟩)
  | some (.recordsOf table), [] =>
    answer ((s.store.rows table).map fun rows => ⟨rows.map shown, none⟩)
  | _, _ => .error StoreError.syntaxError.message

def connection : Connection LiveStore where
  execute sql params := fun s => s.answerExecute sql params
  executeBatch sql := fun s => s.runBatch sql
  query sql params := fun s => (s.answerQuery sql params, s)

end LiveStore
end SqlMigrations
