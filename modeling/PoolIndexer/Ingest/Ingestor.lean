import PoolIndexer.Ingest.Track
import PoolIndexer.Metrics
import PoolIndexer.Record.DepthHistory
import PoolIndexer.Refresh.Signal

/-!
# Ingest.Ingestor — blocks in, rows and checkpoints out

A block must have the next height.  Its events are recorded, then the depths that have changed, then
the block itself.  A block commits at the end of a batch, if nothing has been committed yet, and at
the genesis height: it is stored with the totals, all rows are flushed, and the track is published.
A failure to store a block is written down, so that the next start is tolerant.
-/

namespace PoolIndexer

/-- A block on its way; the last one of a batch commits. -/
structure BlockMessage where
  block : Block
  batchEnd : Bool

structure BlockOutcome where
  committed : Bool
  demux : DemuxStats
  record : RecordStats
  depthRows : Nat
  flush : Option FlushStats
  deriving DecidableEq

structure Ingestor where
  demux : Demux
  recorder : Recorder
  books : Books
  depths : DepthHistory
  store : Store
  /-- The track that readers see. -/
  published : Option Track
  refresh : Signal
  metrics : Metrics
  genesisHeight : Option Int64
  nextHeight : Int64
  committedOnce : Bool

namespace Ingestor

/-- A new ingestor over a store, with an inserter of the given strategy. -/
def start (demux : Demux) (recorder : Recorder) (genesisHeight : Option Int64)
    (strategy : Strategy) (store : Store) (metrics : Metrics) (r : Recovered) : Ingestor where
  demux := demux
  recorder := recorder
  books := ⟨.zero, r.totals, .ofStrategy strategy, []⟩
  depths := .ofStored r.totals
  store := store
  published := r.track
  refresh := .fresh
  metrics := metrics
  genesisHeight := genesisHeight
  nextHeight := r.nextHeight
  committedOnce := r.track.isSome

/-! ### Parts of the state -/

def withInserter (g : Ingestor) (i : Inserter) : Ingestor :=
  { g with books := { g.books with inserter := i } }

def report (g : Ingestor) (log : Log) : Ingestor :=
  { g with books := { g.books with log := g.books.log ++ log } }

/-! ### One block -/

/-- Writes a failure to store down and reports it. -/
def insertFailed (g : Ingestor) (height : Int64) (e : IndexerError) : Ingestor :=
  { g with
    metrics := { g.metrics with flushFailures := Labelled.bump g.metrics.flushFailures 1 }
    store := g.store.markFailure e.message }.report
    [⟨.error, "Insert failed, recording failure flag",
      [("height", .int height), ("error", .text e.message)]⟩]

/-- Whether a block commits. -/
def commits (g : Ingestor) (b : Block) (batchEnd : Bool) : Bool :=
  batchEnd || !g.committedOnce || g.genesisHeight = some b.height

/-- Records events and takes the counts of the recorder. -/
def recordEvents (g : Ingestor) (events : List (Event × Metadata)) :
    Except (Stop IndexerError) RecordStats × Ingestor :=
  match g.recorder.recordAll g.store g.books events with
  | (.ok _, books) => (.ok books.stats, { g with books := { books with stats := .zero } })
  | (.error stop, books) => (.error stop, { g with books })

/-- Writes the depths that have changed. -/
def recordDepths (g : Ingestor) (timestamp : Int64) : Except (Stop IndexerError) Nat × Ingestor :=
  let (result, p) := g.depths.record g.books.totals timestamp g.store g.books.inserter
  let g := { g.withInserter p.inserter with depths := p.history }
  match result with
  | .ok _ => (.ok p.written, g)
  | .error e => (.error (.error e), g)

def ledgerColumns : List String := ["height", "timestamp", "hash", "agg_state"]

def ledgerValues (b : Block) (state : Option (List UInt8)) : List Value :=
  [.bigint b.height, .bigint b.nanos, .bytes b.hash,
    match state with
    | some bytes => .bytes bytes
    | none => .null]

/-- Writes the ledger row of the block, with the totals if they are given, and ends the block; a
refused row is a failure. -/
def recordBlock (g : Ingestor) (b : Block) (state : Option (List UInt8)) :
    Except (Stop IndexerError) Unit × Ingestor :=
  match g.books.inserter.insert g.store "block_log" ledgerColumns (ledgerValues b state) with
  | (.error e, i) => (.error (.error e), (g.withInserter i).insertFailed b.height e)
  | (.ok _, i) =>
    match i.endBlock with
    | .error e => (.error (.error (.insert e)), g.withInserter i)
    | .ok i => (.ok (), g.withInserter i)

/-- Publishes a track whose rows are durable. -/
def publish (g : Ingestor) (t : Track) (stats : FlushStats) : Ingestor :=
  { g with
    published := some t
    committedOnce := true
    refresh := g.refresh.fire.2
    metrics := { g.metrics with
      flushes := Labelled.bump g.metrics.flushes 1
      committedHeight := t.height
      rowsSkipped := Labelled.bump g.metrics.rowsSkipped stats.rowsSkipped } }

def commit (g : Ingestor) (t : Track) : Except (Stop IndexerError) FlushStats × Ingestor :=
  match g.books.inserter.flush g.store with
  | (.error e, i, s) =>
    (.error (.error e), { g.withInserter i with store := s }.insertFailed t.height e)
  | (.ok stats, i, s) =>
    let g := ({ g.withInserter i with store := s }.report
      [⟨.debug, "Committed", [("height", .int t.height), ("blocks", .count stats.blocks),
        ("rows", .count stats.rowsWritten)]⟩])
    (.ok stats, g.publish t stats)

/-- Commits if there is a track. -/
def commitTrack (g : Ingestor) : Option Track → Except (Stop IndexerError) (Option FlushStats) × Ingestor
  | none => (.ok none, g)
  | some t =>
    let (result, g) := g.commit t
    (result.map some, g)

/-- Counts a block that went through. -/
def observe (g : Ingestor) (height : Int64) (o : BlockOutcome) : Ingestor :=
  let m := { g.metrics with
    blocksIngested := Labelled.bump g.metrics.blocksIngested 1
    ingestedHeight := height
    eventsRecorded := Labelled.bump g.metrics.eventsRecorded o.record.recorded
    rowsRefused := Labelled.bump g.metrics.rowsRefused o.record.rejected }
  { g with metrics := m.observeDemux o.demux }

/-- Goes on to the next height. -/
def advance (g : Ingestor) (height : Int64) (o : BlockOutcome) :
    Except (Stop IndexerError) BlockOutcome × Ingestor :=
  match Checked.add g.nextHeight 1 with
  | .error f => (.error (.overflow f), g)
  | .ok next => (.ok o, { g with nextHeight := next }.observe height o)

/-- The track of a block that commits, and its totals as octets. -/
structure Stamp where
  track : Track
  state : List UInt8

/-- The stamp of a block whose events are recorded; nothing if it does not commit. -/
def stamp? (g : Ingestor) (b : Block) (batchEnd : Bool) : Except Overflow (Option Stamp) :=
  if g.commits b batchEnd then
    let track := Track.ofBlock b g.books.totals
    track.state.map fun state => some ⟨track, state⟩
  else .ok none

/-- Stores a block whose events and depths are recorded, and commits if it has a stamp. -/
def close (g : Ingestor) (b : Block) (stamp : Option Stamp) (demux : DemuxStats)
    (record : RecordStats) (depthRows : Nat) : Except (Stop IndexerError) BlockOutcome × Ingestor :=
  match g.recordBlock b (stamp.map Stamp.state) with
  | (.error stop, g) => (.error stop, g)
  | (.ok _, g) =>
    match g.commitTrack (stamp.map Stamp.track) with
    | (.error stop, g) => (.error stop, g)
    | (.ok flush, g) => g.advance b.height ⟨stamp.isSome, demux, record, depthRows, flush⟩

/-- Writes the depths of a block whose events are recorded, and stores the block. -/
def finish (g : Ingestor) (b : Block) (batchEnd : Bool) (demux : DemuxStats) (record : RecordStats) :
    Except (Stop IndexerError) BlockOutcome × Ingestor :=
  match g.recordDepths b.nanos with
  | (.error stop, g) => (.error stop, g)
  | (.ok depthRows, g) =>
    match g.stamp? b batchEnd with
    | .error o => (.error (.overflow o), g)
    | .ok stamp => g.close b stamp demux record depthRows

/-- Records the events of a block that has been started, and all that follows from them. -/
def fill (g : Ingestor) (b : Block) (batchEnd : Bool) (run : DemuxRun) :
    Except (Stop IndexerError) BlockOutcome × Ingestor :=
  match g.recordEvents run.delivered with
  | (.error stop, g) => (.error stop, g)
  | (.ok record, g) => g.finish b batchEnd run.stats record

/-- Processes one block. -/
def process (g : Ingestor) (b : Block) (batchEnd : Bool) :
    Except (Stop IndexerError) BlockOutcome × Ingestor :=
  if b.height ≠ g.nextHeight then (.error (.error (.heightOutOfOrder g.nextHeight b.height)), g)
  else
    let run := g.demux.run b
    let g := g.report run.log
    match run.fault with
    | some o => (.error (.overflow o), g)
    | none =>
      match g.books.inserter.startBlock with
      | .error e => (.error (.error (.insert e)), g)
      | .ok i => (g.withInserter i).fill b batchEnd run

/-! ### A run over a queue -/

def reportStart (g : Ingestor) : Ingestor :=
  g.report [⟨.info, "Ingestion started", [("next_height", .int g.nextHeight),
    ("strategy", .text g.books.inserter.strategy.name)]⟩]

/-- Drops all that is not durable. -/
def stop (g : Ingestor) : Ingestor :=
  (g.withInserter g.books.inserter.discard).report
    [⟨.info, "Ingestion stopped", [("next_height", .int g.nextHeight),
      ("dropped_rows", .count g.books.inserter.pendingRows)]⟩]

/-- Processes messages in order up to the first failure. -/
def consume (g : Ingestor) : List BlockMessage → Except (Stop IndexerError) Unit × Ingestor
  | [] => (.ok (), g)
  | m :: rest =>
    match g.process m.block m.batchEnd with
    | (.error stop, g) => (.error stop, g)
    | (.ok _, g) => g.consume rest

/-- Works through a queue that has been closed. -/
def run (g : Ingestor) (queue : List BlockMessage) : Except (Stop IndexerError) Unit × Ingestor :=
  match g.reportStart.consume queue with
  | (.error stop, g) => (.error stop, g)
  | (.ok _, g) => (.ok (), g.stop)

end Ingestor

end PoolIndexer
