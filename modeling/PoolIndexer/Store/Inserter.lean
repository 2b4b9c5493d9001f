import PoolIndexer.Store.Memory

/-!
# Store.Inserter — rows on their way into the store, block by block

Rows come in groups between the start and the end of a block; a group is taken or refused as a
whole.  The batch strategy keeps rows in a buffer and writes those of ended blocks on a flush.  The
tolerant strategy stages rows in a session at once, so that a rejection shows before the event has
any effect, and publishes the session on a flush.
-/

namespace PoolIndexer

inductive Strategy where
  | batch
  | tolerant
  deriving DecidableEq

def Strategy.name : Strategy → String
  | .batch => "batch"
  | .tolerant => "tolerant"

structure FlushStats where
  blocks : Nat
  rowsWritten : Nat
  rowsSkipped : Nat
  deriving DecidableEq

/-! ### The order of calls -/

/-- Whether a block is open, and how many have ended since the last flush. -/
structure BlockState where
  isOpen : Bool
  ended : Nat
  deriving DecidableEq

namespace BlockState

def zero : BlockState := ⟨false, 0⟩

def start (b : BlockState) : Except InsertError BlockState :=
  if b.isOpen then .error (.protocol "start_block while a block is open")
  else .ok { b with isOpen := true }

def requireOpen (b : BlockState) : Except InsertError Unit :=
  if b.isOpen then .ok () else .error (.protocol "insert outside of a block")

def finish (b : BlockState) : Except InsertError BlockState :=
  if b.isOpen then .ok ⟨false, b.ended + 1⟩
  else .error (.protocol "end_block without start_block")

end BlockState

/-! ### The buffer of the batch strategy -/

structure RowBuffer where
  rows : List Row
  /-- How many of the rows belong to ended blocks; they come first. -/
  completed : Nat
  block : BlockState
  deriving DecidableEq

namespace RowBuffer

def empty : RowBuffer := ⟨[], 0, .zero⟩

/-- Rows of ended blocks. -/
def complete (b : RowBuffer) : List Row := b.rows.take b.completed

def startBlock (b : RowBuffer) : Except InsertError RowBuffer :=
  b.block.start.map fun block => { b with block }

def push (b : RowBuffer) (group : List Row) : Except InsertError RowBuffer :=
  b.block.requireOpen.map fun _ => { b with rows := b.rows ++ group }

def endBlock (b : RowBuffer) : Except InsertError RowBuffer :=
  b.block.finish.map fun block => ⟨b.rows, b.rows.length, block⟩

/-- Forgets the rows of ended blocks. -/
def drain (b : RowBuffer) : RowBuffer := ⟨b.rows.drop b.completed, 0, { b.block with ended := 0 }⟩

/-- Writes the rows of ended blocks; a store that refuses them leaves all as it was. -/
def flush (b : RowBuffer) (s : Store) : Except IndexerError (FlushStats × RowBuffer × Store) :=
  if b.block.ended = 0 then .ok (⟨0, b.complete.length, 0⟩, b, s)
  else
    match s.write b.complete with
    | .error e => .error (.store e)
    | .ok s => .ok (⟨b.block.ended, b.complete.length, 0⟩, b.drain, s)

end RowBuffer

/-! ### The session of the tolerant strategy -/

structure StagedRows where
  /-- What the open session holds. -/
  session : Option (List Row)
  block : BlockState
  /-- Rows of the groups that the store rejected since the last flush. -/
  skipped : Nat
  deriving DecidableEq

namespace StagedRows

def empty : StagedRows := ⟨none, .zero, 0⟩

def written (w : StagedRows) : Nat := (w.session.getD []).length

/-- Gives the session up, but not the open block. -/
def reset (w : StagedRows) : StagedRows := ⟨none, { w.block with ended := 0 }, 0⟩

/-- The open session, or a new one. -/
def sessionOn (w : StagedRows) (s : Store) : Except StoreError (List Row) :=
  match w.session with
  | some staged => .ok staged
  | none => s.openSession

/-- Stages a group.  A rejected group is skipped; any other failure loses the session. -/
def push (w : StagedRows) (s : Store) (group : List Row) : Except IndexerError Unit × StagedRows :=
  match w.block.requireOpen with
  | .error e => (.error (.insert e), w)
  | .ok _ =>
    if group.isEmpty then (.ok (), w)
    else
      match w.sessionOn s with
      | .error e => (.error (.store e), w)
      | .ok staged =>
        match s.stage staged group with
        | .ok staged => (.ok (), { w with session := some staged })
        | .error (.rowRejected table reason) =>
          (.error (.store (.rowRejected table reason)),
            { w with session := some staged, skipped := w.skipped + group.length })
        | .error e => (.error (.store e), w.reset)

/-- Publishes the session.  The session is gone afterwards, also if the store fails. -/
def flush (w : StagedRows) (s : Store) : Except IndexerError (FlushStats × Store) × StagedRows :=
  if w.block.isOpen then (.error (.insert (.protocol "flush while a block is open")), w)
  else
    let stats : FlushStats := ⟨w.block.ended, w.written, w.skipped⟩
    match w.session with
    | none => (.ok (stats, s), w.reset)
    | some staged =>
      match s.publish staged with
      | .ok s => (.ok (stats, s), w.reset)
      | .error e => (.error (.store e), w.reset)

end StagedRows

/-! ### Either strategy -/

inductive Inserter where
  | batch (buffer : RowBuffer)
  | tolerant (staged : StagedRows)
  deriving DecidableEq

namespace Inserter

def ofStrategy : Strategy → Inserter
  | .batch => .batch .empty
  | .tolerant => .tolerant .empty

def strategy : Inserter → Strategy
  | .batch _ => .batch
  | .tolerant _ => .tolerant

def startBlock : Inserter → Except InsertError Inserter
  | .batch b => b.startBlock.map .batch
  | .tolerant w => w.block.start.map fun block => .tolerant { w with block }

def endBlock : Inserter → Except InsertError Inserter
  | .batch b => b.endBlock.map .batch
  | .tolerant w => w.block.finish.map fun block => .tolerant { w with block }

/-- Takes every row of one event, or none of them. -/
def insertRows (i : Inserter) (s : Store) (group : List Row) : Except IndexerError Unit × Inserter :=
  match i with
  | .batch b =>
    match b.push group with
    | .ok b => (.ok (), .batch b)
    | .error e => (.error (.insert e), .batch b)
  | .tolerant w =>
    let (result, w) := w.push s group
    (result, .tolerant w)

/-- Takes a group of one row after checking it. -/
def insert (i : Inserter) (s : Store) (table : String) (columns : List String)
    (values : List Value) : Except IndexerError Unit × Inserter :=
  match Row.check table columns values with
  | .error e => (.error (.insert e), i)
  | .ok row => i.insertRows s [row]

/-- Makes the rows of every ended block durable. -/
def flush (i : Inserter) (s : Store) : Except IndexerError FlushStats × Inserter × Store :=
  match i with
  | .batch b =>
    match b.flush s with
    | .ok (stats, b, s) => (.ok stats, .batch b, s)
    | .error e => (.error e, .batch b, s)
  | .tolerant w =>
    match w.flush s with
    | (.ok (stats, s), w) => (.ok stats, .tolerant w, s)
    | (.error e, w) => (.error e, .tolerant w, s)

/-- Rows that are not durable yet, those of the open block among them. -/
def pendingRows : Inserter → Nat
  | .batch b => b.rows.length
  | .tolerant w => w.written

/-- Drops all that is not durable. -/
def discard (i : Inserter) : Inserter := ofStrategy i.strategy

end Inserter

/-! ### The choice of the strategy

A failure that is written down makes every later start tolerant until it is cleared. -/

namespace Store

def failureKey : String := "last_insert_failed"

def strategy (s : Store) : Strategy :=
  if (s.constant? failureKey).isSome then .tolerant else .batch

def markFailure (s : Store) (reason : String) : Store := s.setConstant failureKey reason

def clearFailure (s : Store) : Store := s.dropConstant failureKey

end Store

end PoolIndexer
