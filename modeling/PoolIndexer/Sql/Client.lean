import PoolIndexer.Exchange
import PoolIndexer.Sql.Statement
import PoolIndexer.Store.Memory

/-!
# Sql.Client — the store on a database server

The server is any function that answers statements and changes a state of its own.  A transaction
that does not come to its commit, or whose commit fails, is rolled back.  In a session every group
of rows stands under a savepoint, so that a refused row costs its group and nothing else.
-/

namespace PoolIndexer

namespace Sql

open Exchange (fail)

/-- Rows with named and typed columns. -/
structure Reply where
  columns : List (String × ColumnType)
  rows : List (List Value)

/-- Answers a statement with rows, or refuses it with a text. -/
abbrev Server (σ : Type) := Statement → σ → Except String Reply × σ

/-- Something done with a server, which may end in an error. -/
abbrev Talk (σ α : Type) := Exchange StoreError σ α

/-- A reply that does not have the form it should have, or no connection at all. -/
def unreadable : StoreError := .database ""

def refusalText (text : String) : String := "error returned from database: " ++ text

section

variable {σ : Type} (server : Server σ)

def send (stmt : Statement) : Talk σ Reply := fun s =>
  match server stmt s with
  | (.ok r, s) => (.ok r, s)
  | (.error text, s) => (.error (.database (refusalText text)), s)

/-- Sends a statement whose reply does not matter. -/
def execute (stmt : Statement) : Talk σ Unit := do
  let _ ← send server stmt
  pure ()

def executeAll : List Statement → Talk σ Unit
  | [] => pure ()
  | stmt :: rest => do
    execute server stmt
    executeAll rest

/-! ### Reading replies -/

/-- The value of a column that has to be there. -/
def Reply.value? (r : Reply) (t : ColumnType) (index : Nat) (row : List Value) : Option Value :=
  match r.columns[index]?, row[index]? with
  | some (_, type), some v => if type = t && v.fits t false then some v else none
  | _, _ => none

/-- The place of the last column of that name. -/
def Reply.index? (r : Reply) (name : String) : Option Nat :=
  (r.columns.zipIdx.reverse.find? fun c => c.1.1 = name).map (·.2)

/-- The first value of the first row; nothing without a row. -/
def first? (stmt : Statement) (t : ColumnType) : Talk σ (Option Value) := do
  let r ← send server stmt
  match r.rows with
  | [] => pure none
  | row :: _ =>
    match r.value? t 0 row with
    | some v => pure (some v)
    | none => fail unreadable

def Reply.named? (r : Reply) (row : List Value) (t : ColumnType) (name : String) : Option Value :=
  (r.index? name).bind fun i => r.value? t i row

def Reply.checkpoint? (r : Reply) (row : List Value) : Option Checkpoint := do
  let height ← (← r.named? row .bigint "height").int64?
  let timestamp ← (← r.named? row .bigint "timestamp").int64?
  let hash ← (← r.named? row .bytea "hash").bytes?
  let state ← (← r.named? row .bytea "agg_state").bytes?
  pure ⟨height, timestamp, hash, state⟩

/-! ### Transactions -/

def rollBack : Talk σ Unit := fun s => (.ok (), (server rollback s).2)

def undo (t : Talk σ α) : Talk σ α := t.orElse fun e => do
  rollBack server
  fail e

def inTransaction (body : Talk σ Unit) : Talk σ Unit := undo server do
  execute server begin
  body
  execute server commit

def beginSession : Talk σ Unit := undo server (execute server begin)

/-- Gives up a session; nothing is sent if none is open. -/
def dropSession (isOpen : Bool) : Talk σ Unit := if isOpen then rollBack server else pure ()

def commitSession : Talk σ Unit := undo server (execute server commit)

/-- Inserts one row of a group; a refused row undoes the group. -/
def insertInGroup (row : Row) : Talk σ Unit :=
  (execute server (insert row [])).orElse fun e => do
    execute server rollbackTo
    fail (match e with
      | .database text => .rowRejected row.table text
      | e => e)

def insertGroup : List Row → Talk σ Unit
  | [] => pure ()
  | row :: rest => do
    insertInGroup server row
    insertGroup rest

/-- Writes a group of rows under a savepoint. -/
def writeGroup (rows : List Row) : Talk σ Unit := do
  execute server savepoint
  insertGroup server rows
  execute server release

/-- Writes rows in one transaction. -/
def writeRows (rows : List Row) : Talk σ Unit :=
  inTransaction server (executeAll server (inserts (byTable rows)))

/-! ### The schema -/

def constant? (key : String) : Talk σ (Option String) := do
  let v ← first? server (getConstant key) .text
  pure (v.bind Value.text?)

def storedHash? : Talk σ (Option String) := do
  let v ← first? server schemaExists .boolean
  match v with
  | none => fail unreadable
  | some (.bool true) => constant? server Schema.hashKey
  | some _ => pure none

def dropSchema : Talk σ Unit :=
  inTransaction server do
    executeAll server (Schema.allTableNames.map dropTable)
    execute server clearConstants

def migrate : Talk σ Unit :=
  (execute server createSchema).orElse fun e =>
    fail (match e with
      | .database text => .migrationFailed text
      | e => e)

def buildSchema : Talk σ Unit :=
  inTransaction server do
    migrate server
    execute server (setConstant Schema.hashKey Schema.hash)

/-- Creates the schema if there is none.  A schema with another hash is refused, or dropped and
created anew if `rebuild` is set. -/
def ensureSchema (rebuild : Bool) : Talk σ Unit := do
  match ← storedHash? server with
  | none => buildSchema server
  | some stored =>
    if stored = Schema.hash then pure ()
    else if !rebuild then fail (.schemaMismatch stored Schema.hash)
    else
      dropSchema server
      buildSchema server

/-! ### Checkpoints and views -/

def latest? : Talk σ (Option Checkpoint) := do
  let r ← send server latestCheckpoint
  match r.rows with
  | [] => pure none
  | row :: _ =>
    match r.checkpoint? row with
    | some c => pure (some c)
    | none => fail (.database "unreadable block_log row")

def watermark? (view : String) : Talk σ (Option Int64) := do
  let v ← first? server (getWatermark view) .bigint
  pure (v.bind Value.int64?)

/-- The time of the first block; the server answers null if there is none. -/
def earliest? : Talk σ (Option Int64) := do
  let r ← send server earliestBlock
  match r.columns, r.rows with
  | _ :: _, (.null :: _) :: _ => pure none
  | _, row :: _ =>
    match r.value? .bigint 0 row with
    | some v => pure v.int64?
    | none => fail unreadable
  | _, [] => fail unreadable

def refreshView (c : RefreshCall) : Talk σ Unit :=
  inTransaction server do
    execute server (refresh c.view c.start c.stop)
    execute server (setWatermark c.view c.watermark)

end

end Sql

end PoolIndexer
