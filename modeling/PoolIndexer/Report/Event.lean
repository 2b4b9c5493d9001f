import PoolIndexer.Correction.Table
import PoolIndexer.Demux
import PoolIndexer.Record.Cells
import PoolIndexer.Report.Fault
import PoolIndexer.Text.Hex

/-!
# Report.Event — events as JSON, their fields under the names of the columns
-/

namespace PoolIndexer

instance : ToJson Coin :=
  ⟨fun c => .record [("asset", toJson c.asset), ("e8", toJson c.e8)]⟩

instance : ToJson EventId :=
  ⟨fun id => .record [("height", toJson id.height), ("phase", toJson id.phase.name),
    ("index", toJson id.index.toNat)]⟩

/-- Octets are written in hexadecimal. -/
instance : ToJson Value where
  toJson
    | .bigint n => toJson n
    | .text s => toJson s
    | .bool b => toJson b
    | .bytes b => .record [("hex", .text (Text.Hex.lower b))]
    | .null => .null

namespace Event

/-- What the cells of an event leave out. -/
def moreFields : Event → List (String × Json)
  | .pool e => [("suspended", toJson e.isSuspended)]
  | .rewards e => [("per_pool", toJson e.perPool)]
  | .slash e => [("amounts", toJson (e.amounts.map fun c => (c.asset, c.e8)))]
  | _ => []

def reportFields (e : Event) : List (String × Json) :=
  [("kind", toJson e.kind), ("pool", toJson e.pool?),
    ("fields", .record ((e.cells.map fun (k, v) => (k, toJson v)) ++ e.moreFields))]

end Event

instance : ToJson Event := ⟨fun e => .record e.reportFields⟩

instance : ToJson Verdict where
  toJson
    | .keep => .text "keep"
    | .discard reason => .record [("discard", .text reason)]

instance : ToJson DemuxStats :=
  ⟨fun s => .record [("delivered", toJson s.delivered), ("ignored", toJson s.ignored),
    ("unknown", toJson s.unknown), ("parse_failed", toJson s.parseFailed),
    ("discarded", toJson s.discarded), ("injected", toJson s.injected),
    ("failed_txs", toJson s.failedTxs), ("skipped", toJson s.skipped)]⟩

/-- An event that was handed on, with its place. -/
def Metadata.report (e : Event) (m : Metadata) : Json :=
  .record [("id", toJson m.id), ("height", toJson m.height), ("timestamp", toJson m.timestamp),
    ("event", toJson e)]

end PoolIndexer
