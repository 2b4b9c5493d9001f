import PoolIndexer.Ingest.Ingestor
import PoolIndexer.Refresh.Loop
import PoolIndexer.Report.Fault
import PoolIndexer.Report.Table

/-!
# Report.Stage — the state and the outcomes of the stages as JSON
-/

namespace PoolIndexer

instance : ToJson Depths := ⟨fun d => .array [toJson d.assetE8, toJson d.runeE8, toJson d.synthE8]⟩

/-- One line for each pool. -/
instance : ToJson Totals :=
  ⟨fun t => .list (fun pool =>
    let d := t.get pool
    .array [toJson pool, toJson d.assetE8, toJson d.runeE8, toJson d.synthE8]) t.pools⟩

/-- The totals and how many deltas they refused. -/
def Totals.reportFields (t : Totals) : List (String × Json) :=
  [("totals", toJson t), ("overflows", toJson t.overflows)]

instance : ToJson RecordStats :=
  ⟨fun r => .record [("recorded", toJson r.recorded), ("rejected", toJson r.rejected)]⟩

instance : ToJson FlushStats :=
  ⟨fun f => .record [("blocks", toJson f.blocks), ("rows_written", toJson f.rowsWritten),
    ("rows_skipped", toJson f.rowsSkipped)]⟩

instance : ToJson Checkpoint :=
  ⟨fun c => .record [("height", toJson c.height), ("timestamp", toJson c.timestamp),
    ("hash", toJson (Text.Hex.lower c.hash)), ("agg_state", toJson (Text.Hex.lower c.state))]⟩

instance : ToJson RefreshCall :=
  ⟨fun c => .array [toJson c.view.name, toJson c.start, toJson c.stop, toJson c.watermark]⟩

/-- Every stored row, table by table. -/
def Store.dump (s : Store) : Json :=
  .array (Schema.tables.flatMap fun t =>
    (s.rowsOf t.name).map fun r => .array [toJson t.name, toJson r.values])

instance : ToJson Track :=
  ⟨fun t => .record [("height", toJson t.height), ("timestamp", toJson t.timestamp),
    ("hash", toJson (Text.Hex.lower t.hash)), ("totals", toJson t.totals)]⟩

instance : ToJson BlockOutcome :=
  ⟨fun o => .record [("committed", toJson o.committed), ("demux", toJson o.demux),
    ("record", toJson o.record), ("depth_rows", toJson o.depthRows), ("flush", toJson o.flush)]⟩

instance : ToJson RefreshOutcome :=
  ⟨fun o => .record [("mode", toJson o.mode.name), ("views_refreshed", toJson o.viewsRefreshed),
    ("last_aggregated", toJson o.lastAggregated), ("caught_up", toJson o.caughtUp)]⟩

end PoolIndexer
