import PoolIndexer.Record.Changes
import PoolIndexer.Record.Rows
import PoolIndexer.Store.Inserter

/-!
# Record.Recorder — rows first, then the depths

The rows of an event are checked and handed over as one group; only when they are taken do the
depths change.  An event whose rows are refused is counted and leaves nothing behind.  Any other
failure stops the recording.
-/

namespace PoolIndexer

structure RecordStats where
  recorded : Nat
  rejected : Nat
  deriving DecidableEq

def RecordStats.zero : RecordStats := ⟨0, 0⟩

structure Recorder where
  natives : NativeNames
  /-- Below this height the coin sent to ask for a withdrawal stays in the pool. -/
  coinKeptBelow : Option Int64

/-- What recording changes. -/
structure Books where
  stats : RecordStats
  totals : Totals
  inserter : Inserter
  log : Log

namespace Recorder

/-- Hands the rows of an event to the inserter. -/
def insert (r : Recorder) (store : Store) (e : Event) (m : Metadata) (inserter : Inserter) :
    Except (Stop IndexerError) Unit × Inserter :=
  match e.rows r.natives m with
  | .error (.overflow o) => (.error (.overflow o), inserter)
  | .error (.error fault) => (.error (.error (.insert fault)), inserter)
  | .ok rows =>
    match inserter.insertRows store rows with
    | (.ok _, inserter) => (.ok (), inserter)
    | (.error fault, inserter) => (.error (.error fault), inserter)

def refusalEntry (e : Event) (m : Metadata) (fault : IndexerError) : LogEntry :=
  ⟨.warn, "Row refused, depth change abandoned",
    [("height", .int m.height), ("event_id", .eventId m.id), ("kind", .text e.kind),
      ("error", .text fault.message)]⟩

/-- Records one event. -/
def record (r : Recorder) (store : Store) (b : Books) (e : Event) (m : Metadata) :
    Except (Stop IndexerError) Unit × Books :=
  match r.insert store e m b.inserter with
  | (.ok _, inserter) =>
    let changed := b.totals.applyAll (e.changes r.natives r.coinKeptBelow m.height)
    let b := { b with totals := changed.totals, inserter, log := b.log ++ changed.log }
    match changed.fault with
    | some o => (.error (.overflow o), b)
    | none => (.ok (), { b with stats := { b.stats with recorded := b.stats.recorded + 1 } })
  | (.error (.error fault), inserter) =>
    let b := { b with inserter }
    if fault.isRowRefusal then
      (.ok (), { b with
        stats := { b.stats with rejected := b.stats.rejected + 1 }
        log := b.log ++ [refusalEntry e m fault] })
    else (.error (.error fault), b)
  | (.error (.overflow o), inserter) => (.error (.overflow o), { b with inserter })

/-- Records events in order up to the first failure. -/
def recordAll (r : Recorder) (store : Store) :
    Books → List (Event × Metadata) → Except (Stop IndexerError) Unit × Books
  | b, [] => (.ok (), b)
  | b, (e, m) :: rest =>
    match r.record store b e m with
    | (.ok _, b) => r.recordAll store b rest
    | (.error stop, b) => (.error stop, b)

end Recorder

end PoolIndexer
