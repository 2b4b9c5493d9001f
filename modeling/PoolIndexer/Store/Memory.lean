import PoolIndexer.Fault
import PoolIndexer.View.Basic

/-!
# Store.Memory — rows, constants and watermarks in memory

A store takes a list of rows as a whole or not at all.  During an outage it takes nothing; a table
that rejects writes refuses every list that has a row of it.  Constants are always writable.
-/

namespace PoolIndexer

/-- One refresh of a view as the store saw it. -/
structure RefreshCall where
  view : View
  start : Int64
  stop : Int64
  watermark : Int64
  deriving DecidableEq

/-- A block of the ledger together with the totals after it, as octets. -/
structure Checkpoint where
  height : Int64
  timestamp : Int64
  hash : List UInt8
  state : List UInt8
  deriving DecidableEq

structure Store where
  rows : List Row
  constants : List (String × String)
  watermarks : List (View × Int64)
  refreshes : List RefreshCall
  rejectedTables : List String
  /-- Whether every write fails. -/
  outage : Bool

namespace Store

def empty : Store := ⟨[], [], [], [], [], false⟩

def writeFailure : StoreError := .database "write failure"

/-! ### Rows -/

/-- Why these rows are not taken. -/
def refusal? (s : Store) (rows : List Row) : Option StoreError :=
  if s.outage then some writeFailure
  else
    (rows.find? fun r => s.rejectedTables.contains r.table).map fun r =>
      .rowRejected r.table "table rejects writes"

def write (s : Store) (rows : List Row) : Except StoreError Store :=
  match s.refusal? rows with
  | some e => .error e
  | none => .ok { s with rows := s.rows ++ rows }

def rowsOf (s : Store) (table : String) : List Row := s.rows.filter fun r => r.table = table

/-- The heights of the block ledger in the order of writing. -/
def heights (s : Store) : List Int64 :=
  (s.rowsOf "block_log").filterMap fun r => (r.get? "height").bind Value.int64?

/-! ### Sessions

A session stages rows and publishes them all at its end. -/

def openSession (s : Store) : Except StoreError (List Row) :=
  if s.outage then .error writeFailure else .ok []

/-- Adds a group to what a session has staged. -/
def stage (s : Store) (staged group : List Row) : Except StoreError (List Row) :=
  match s.refusal? group with
  | some e => .error e
  | none => .ok (staged ++ group)

def publish (s : Store) (staged : List Row) : Except StoreError Store :=
  if s.outage then .error writeFailure else .ok { s with rows := s.rows ++ staged }

/-! ### Constants -/

def constant? (s : Store) (key : String) : Option String := s.constants.lookup key

def setConstant (s : Store) (key value : String) : Store :=
  { s with constants := (key, value) :: s.constants.filter fun p => p.1 ≠ key }

def dropConstant (s : Store) (key : String) : Store :=
  { s with constants := s.constants.filter fun p => p.1 ≠ key }

/-! ### Checkpoints -/

def checkpointOf? (r : Row) : Option Checkpoint := do
  let height ← (← r.get? "height").int64?
  let timestamp ← (← r.get? "timestamp").int64?
  let hash ← (← r.get? "hash").bytes?
  let state ← (← r.get? "agg_state").bytes?
  pure ⟨height, timestamp, hash, state⟩

def checkpoints (s : Store) : List Checkpoint := (s.rowsOf "block_log").filterMap checkpointOf?

/-- The later of two checkpoints; of equal heights the second. -/
def laterOf (best : Option Checkpoint) (c : Checkpoint) : Option Checkpoint :=
  match best with
  | some b => if c.height.toInt < b.height.toInt then some b else some c
  | none => some c

/-- The checkpoint of the greatest height; of equal heights the last one written. -/
def latestCheckpoint (s : Store) : Option Checkpoint := s.checkpoints.foldl laterOf none

/-! ### Views -/

def watermark? (s : Store) (v : View) : Option Int64 := s.watermarks.lookup v

def setWatermark (s : Store) (v : View) (t : Int64) : Store :=
  { s with watermarks := (v, t) :: s.watermarks.filter fun p => p.1 ≠ v }

/-- The time of the first block of the ledger. -/
def earliestBlock? (s : Store) : Option Int64 :=
  match (s.rowsOf "block_log").filterMap fun r => (r.get? "timestamp").bind Value.int64? with
  | [] => none
  | t :: ts => some (ts.foldl Checked.smaller t)

/-- Notes a refresh and moves the watermark of the view, never backwards. -/
def refreshView (s : Store) (c : RefreshCall) : Except StoreError Store :=
  if s.outage then .error writeFailure
  else
    let mark := match s.watermark? c.view with
      | some w => Checked.larger w c.watermark
      | none => c.watermark
    .ok ({ s with refreshes := s.refreshes ++ [c] }.setWatermark c.view mark)

end Store

end PoolIndexer
