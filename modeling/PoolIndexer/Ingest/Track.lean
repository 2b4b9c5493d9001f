import PoolIndexer.Block.Basic
import PoolIndexer.Record.Recorder
import PoolIndexer.Record.Snapshot

/-!
# Ingest.Track — a committed block and the totals after it

A track is stored with its block and read back on the next start, which goes on at the height above.
-/

namespace PoolIndexer

structure Track where
  height : Int64
  timestamp : Int64
  hash : List UInt8
  totals : Totals
  deriving DecidableEq

namespace Track

def ofBlock (b : Block) (totals : Totals) : Track := ⟨b.height, b.nanos, b.hash, totals⟩

/-- The totals as they are stored. -/
def state (t : Track) : Except Overflow (List UInt8) := Snapshot.write t.totals

def ofCheckpoint (c : Checkpoint) : Except SnapshotError Track :=
  (Snapshot.decode c.state c.height).map fun totals => ⟨c.height, c.timestamp, c.hash, totals⟩

end Track

/-- What a new start goes on from. -/
structure Recovered where
  totals : Totals
  nextHeight : Int64
  track : Option Track

namespace Recovered

def fresh (startHeight : Int64) : Recovered := ⟨.empty, startHeight, none⟩

def afterTrack (t : Track) : Except Overflow Recovered :=
  (Checked.add t.height 1).map fun next => ⟨t.totals, next, some t⟩

/-- Goes on from the latest checkpoint of the store, or begins at `startHeight`. -/
def ofStore (s : Store) (startHeight : Int64) : Except (Stop IndexerError) Recovered :=
  match s.latestCheckpoint with
  | none => .ok (fresh startHeight)
  | some c =>
    match Track.ofCheckpoint c with
    | .error e => .error (.error (.snapshot e))
    | .ok t => (afterTrack t).mapError .overflow

/-- The report of a new start; nothing if the checkpoint cannot be read. -/
def report (s : Store) (startHeight : Int64) : Log :=
  match s.latestCheckpoint with
  | none => [⟨.info, "No checkpoint, starting fresh", [("start_height", .int startHeight)]⟩]
  | some c =>
    match Track.ofCheckpoint c with
    | .error _ => []
    | .ok t => [⟨.info, "Resuming from checkpoint", [("height", .int t.height)]⟩]

end Recovered

end PoolIndexer
