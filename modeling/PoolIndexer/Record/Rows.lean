import PoolIndexer.Event.Direction
import PoolIndexer.Event.Id
import PoolIndexer.Fault
import PoolIndexer.Record.Cells
import PoolIndexer.Table.Row

/-!
# Record.Rows — the rows that an event leaves in the store

Most kinds leave one row in the table of their name.  Rewards leave a row and one entry for each
pool; a slash leaves one row for each amount.  Every row ends with the id and the time of its event.
-/

namespace PoolIndexer

/-- The cells of one row and the table they go to. -/
structure Entry where
  table : String
  cells : List Cell
  deriving DecidableEq

namespace Event

/-- The table that holds the events of this kind. -/
def table (e : Event) : String := e.kind ++ "_events"

/-- The cells of a swap, settled against its pool and marked with its direction. -/
def swapCells (natives : NativeNames) (direction : SwapDirection) (e : Swap) : List Cell :=
  (Event.swap { e with pool := e.settlementPool natives }).cells ++
    [("_direction", .bigint direction.code)]

/-- What an event leaves, in order; a swap needs a direction. -/
def rowEntries (natives : NativeNames) (e : Event) : Except InsertError (List Entry) :=
  match e with
  | .swap s =>
    match SwapDirection.of? natives s with
    | some direction => .ok [⟨e.table, swapCells natives direction s⟩]
    | none => .error (.protocol "swap without exactly one native side")
  | .rewards r =>
    .ok (⟨e.table, e.cells⟩ ::
      r.perPool.map fun entry => ⟨"rewards_event_entries", Rewards.entryCells entry⟩)
  | .slash s => .ok (s.amounts.map fun amount => ⟨e.table, Slash.entryCells s.pool amount⟩)
  | .depthOverride _ => .ok [⟨e.table, e.cells ++ [("_synthetic", .bool true)]⟩]
  | _ => .ok [⟨e.table, e.cells⟩]

end Event

/-- The checked row of an entry of the event at `m`. -/
def Entry.row (m : Metadata) (entry : Entry) : Except (Stop InsertError) Row :=
  match m.id.encode with
  | .error o => .error (.overflow o)
  | .ok id =>
    let cells := entry.cells ++
      [("event_id", Value.bigint id), ("block_timestamp", Value.bigint m.timestamp)]
    match Row.check entry.table (cells.map (·.1)) (cells.map (·.2)) with
    | .error e => .error (.error e)
    | .ok row => .ok row

def Event.rows (natives : NativeNames) (m : Metadata) (e : Event) : Except (Stop InsertError) (List Row) :=
  match e.rowEntries natives with
  | .error e => .error (.error e)
  | .ok entries => entries.mapM (Entry.row m)

end PoolIndexer
