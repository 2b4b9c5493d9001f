import PoolIndexer.Proofs.Exchange
import PoolIndexer.Proofs.Sql.Insertion
import PoolIndexer.Sql.Client

/-!
# Proofs.Sql.Database — transactions and savepoints

A database that carries out statements by the rules of SQL.  It keeps the insertions of committed
transactions, and of the open transaction what has been inserted so far and the savepoints with what had been
inserted when they were set.  It may refuse any insertion.  A transaction with a refused statement is aborted:
nothing but a rollback is carried out in it.

* `Statement.command?`: what the text of a statement asks for.
* `Database.server`: the database as a server that notes down every statement.
* `execute_insertion`, `execute_savepoint`, …: what becomes of the statements of a session.
* `Database.SameRows`: a database and a store in memory with the same rows of every table, in the same order.
-/

namespace PoolIndexer

namespace Sql

/-! ### Commands -/

/-- What a statement asks for, if it has to do with transactions or insertions. -/
inductive Command where
  | begin
  | commit
  | rollback
  | savepoint (name : List Char)
  | release (name : List Char)
  | rollbackTo (name : List Char)
  | insert

def Statement.command? (stmt : Statement) : Option Command :=
  let text := stmt.text.toList
  if text = "BEGIN".toList then some .begin
  else if text = "COMMIT".toList then some .commit
  else if text = "ROLLBACK".toList then some .rollback
  else
    match text.dropPrefix? "SAVEPOINT ".toList, text.dropPrefix? "RELEASE SAVEPOINT ".toList,
      text.dropPrefix? "ROLLBACK TO SAVEPOINT ".toList, text.dropPrefix? "INSERT INTO ".toList with
    | some name, _, _, _ => some (.savepoint name)
    | _, some name, _, _ => some (.release name)
    | _, _, some name, _ => some (.rollbackTo name)
    | _, _, _, some _ => some .insert
    | none, none, none, none => none

theorem command?_insert (first : Row) (more : List Row) : (insert first more).command? = some .insert := by
  have htext : ∃ rest, (insert first more).text.toList = "INSERT INTO ".toList ++ rest := by
    rw [text_insert, Insertion.render_eq]
    simp only [String.toList_append, List.append_assoc]
    exact ⟨_, rfl⟩
  obtain ⟨rest, hrest⟩ := htext
  have hword : ("INSERT INTO ".toList ++ rest).dropPrefix? "INSERT INTO ".toList = some rest := by
    simp [List.dropPrefix?]
  rw [Statement.command?, hrest]
  simp only [hword]
  rfl

/-! ### Transactions -/

structure Savepoint where
  name : List Char
  /-- What had been inserted when it was set. -/
  insertions : List Statement

structure Transaction where
  insertions : List Statement
  /-- The innermost first. -/
  savepoints : List Savepoint
  /-- Whether a statement was refused; then nothing but a rollback is carried out. -/
  isAborted : Bool

namespace Transaction

def empty : Transaction := ⟨[], [], false⟩

def abortedText : String := "current transaction is aborted, commands ignored until end of transaction block"

def noSavepointText : String := "savepoint does not exist"

/-- The innermost savepoint of that name and those around it. -/
def outward (t : Transaction) (name : List Char) : List Savepoint := t.savepoints.dropWhile fun s => s.name ≠ name

def perform (t : Transaction) (stmt : Statement) (refusal? : Option String) : Command → Except String Transaction
  | .rollbackTo name =>
    match t.outward name with
    | [] => .error noSavepointText
    | s :: outer => .ok ⟨s.insertions, s :: outer, false⟩
  | .savepoint name =>
    if t.isAborted then .error abortedText
    else .ok { t with savepoints := ⟨name, t.insertions⟩ :: t.savepoints }
  | .release name =>
    if t.isAborted then .error abortedText
    else
      match t.outward name with
      | [] => .error noSavepointText
      | _ :: outer => .ok { t with savepoints := outer }
  | .insert =>
    if t.isAborted then .error abortedText
    else
      match refusal? with
      | some text => .error text
      | none => .ok { t with insertions := t.insertions ++ [stmt] }
  | .begin | .commit | .rollback => .ok t

end Transaction

/-! ### The database -/

structure Database where
  /-- The insertions of all committed transactions. -/
  stored : List Statement
  transaction : Option Transaction
  /-- Every statement that was sent, with the reason if it was refused. -/
  log : List (Statement × Option String)

namespace Database

def empty : Database := ⟨[], none, []⟩

/-- The commit of an aborted transaction rolls it back.  Outside of a transaction an insertion is committed at
once. -/
def perform (db : Database) (stmt : Statement) (refusal? : Option String) : Except String Database :=
  match stmt.command?, db.transaction with
  | some .begin, none => .ok { db with transaction := some .empty }
  | some .commit, some t =>
    .ok { db with stored := if t.isAborted then db.stored else db.stored ++ t.insertions, transaction := none }
  | some .rollback, some _ => .ok { db with transaction := none }
  | some c, some t => (t.perform stmt refusal? c).map fun t => { db with transaction := some t }
  | some .insert, none =>
    match refusal? with
    | some text => .error text
    | none => .ok { db with stored := db.stored ++ [stmt] }
  | _, _ => .ok db

def abort (db : Database) : Database :=
  { db with transaction := db.transaction.map fun t => { t with isAborted := true } }

/-- The database as a server; which insertions it refuses may depend on all that has been sent. -/
def server (refuses : Database → Statement → Option String) : Server Database := fun stmt db =>
  match db.perform stmt (refuses db stmt) with
  | .ok db => (.ok ⟨[], []⟩, { db with log := db.log ++ [(stmt, none)] })
  | .error text => (.error text, { db.abort with log := db.log ++ [(stmt, some text)] })

/-- The database and a store in memory hold the same rows of every table, in the same order. -/
def SameRows (db : Database) (s : Store) : Prop :=
  ∃ rows, AddsInRow db.stored rows ∧ ∀ table, rows.filter (·.table = table) = s.rowsOf table

/-- They still do after either has taken rows that are the same for every table. -/
theorem SameRows.append {db db' : Database} {s s' : Store} {stmts : List Statement} {rows rows' : List Row}
    (h : db.SameRows s) (hdb : db'.stored = db.stored ++ stmts) (hs : s'.rows = s.rows ++ rows')
    (hstmts : AddsInRow stmts rows)
    (hrows : ∀ table, rows.filter (·.table = table) = rows'.filter (·.table = table)) : db'.SameRows s' := by
  obtain ⟨held, hheld, htables⟩ := h
  refine ⟨held ++ rows, hdb ▸ hheld.append hstmts, fun table => ?_⟩
  rw [List.filter_append, htables, hrows, Store.rowsOf, Store.rowsOf, hs, List.filter_append]

end Database

/-! ### Statements -/

theorem undo_of_ok {σ α : Type} {server : Server σ} {t : Talk σ α} {s s' : σ} {a : α} (h : t s = (.ok a, s')) :
    undo server t s = (.ok a, s') := by
  rw [undo, Exchange.orElse, h]

theorem undo_of_error {σ α : Type} {server : Server σ} {t : Talk σ α} {s s' : σ} {e : StoreError}
    (h : t s = (.error e, s')) : undo server t s = (.error e, (server rollback s').2) := by
  rw [undo, Exchange.orElse, h]
  rfl

section

variable (refuses : Database → Statement → Option String) (stored insertions : List Statement)
  (savepoints : List Savepoint) (log : List (Statement × Option String))

open Database Exchange

theorem execute_begin : execute (server refuses) begin ⟨stored, none, log⟩ =
    (.ok (), ⟨stored, some .empty, log ++ [(begin, none)]⟩) := rfl

theorem execute_commit : execute (server refuses) commit ⟨stored, some ⟨insertions, savepoints, false⟩, log⟩ =
    (.ok (), ⟨stored ++ insertions, none, log ++ [(commit, none)]⟩) := rfl

/-- The name of the savepoints that a session sets. -/
def eventRows : List Char := "event_rows".toList

theorem execute_savepoint : execute (server refuses) savepoint ⟨stored, some ⟨insertions, savepoints, false⟩, log⟩ =
    (.ok (), ⟨stored, some ⟨insertions, ⟨eventRows, insertions⟩ :: savepoints, false⟩, log ++ [(savepoint, none)]⟩) :=
  rfl

theorem execute_release (before : List Statement) : execute (server refuses) release
      ⟨stored, some ⟨insertions, ⟨eventRows, before⟩ :: savepoints, false⟩, log⟩ =
    (.ok (), ⟨stored, some ⟨insertions, savepoints, false⟩, log ++ [(release, none)]⟩) := rfl

theorem execute_rollbackTo (before : List Statement) (isAborted : Bool) : execute (server refuses) rollbackTo
      ⟨stored, some ⟨insertions, ⟨eventRows, before⟩ :: savepoints, isAborted⟩, log⟩ =
    (.ok (), ⟨stored, some ⟨before, ⟨eventRows, before⟩ :: savepoints, false⟩, log ++ [(rollbackTo, none)]⟩) := rfl

/-- An insertion is taken, or it is refused and the transaction is aborted. -/
theorem execute_insertion {stmt : Statement} (hstmt : stmt.command? = some .insert) :
    execute (server refuses) stmt ⟨stored, some ⟨insertions, savepoints, false⟩, log⟩ =
      match refuses ⟨stored, some ⟨insertions, savepoints, false⟩, log⟩ stmt with
      | none => (.ok (), ⟨stored, some ⟨insertions ++ [stmt], savepoints, false⟩, log ++ [(stmt, none)]⟩)
      | some text => (.error (.database (refusalText text)),
          ⟨stored, some ⟨insertions, savepoints, true⟩, log ++ [(stmt, some text)]⟩) := by
  show Exchange.andThen (send (server refuses) stmt) (fun _ => pure ()) _ = _
  unfold Exchange.andThen send server Database.perform
  rw [hstmt]
  dsimp only [Transaction.perform]
  cases refuses ⟨stored, some ⟨insertions, savepoints, false⟩, log⟩ stmt with
  | none => rfl
  | some text => rfl

end

end Sql

end PoolIndexer
