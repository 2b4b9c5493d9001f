import PoolIndexer.Demux
import PoolIndexer.Text.Rounded

/-!
# Metrics — counters and gauges, and their text form

Families are written in the order of their names.  A family with a label shows one line per label
value that has been seen, in the order of the values.
-/

namespace PoolIndexer

/-- A count per value of a label. -/
structure Labelled where
  counts : List (String × Nat)
  deriving DecidableEq

namespace Labelled

/-- Counters are 64-bit words. -/
def bump (count amount : Nat) : Nat := (count + amount) % UInt64.size

def addTo (label : String) (amount : Nat) : List (String × Nat) → List (String × Nat)
  | [] => [(label, bump 0 amount)]
  | (l, n) :: rest =>
    if label < l then (label, bump 0 amount) :: (l, n) :: rest
    else if label = l then (l, bump n amount) :: rest
    else (l, n) :: addTo label amount rest

def add (c : Labelled) (label : String) (amount : Nat) : Labelled := ⟨addTo label amount c.counts⟩

def get (c : Labelled) (label : String) : Nat := (c.counts.lookup label).getD 0

end Labelled

structure Metrics where
  blocksIngested : Nat
  eventsRecorded : Nat
  eventsSkipped : Labelled
  rowsRefused : Nat
  rowsSkipped : Nat
  flushes : Nat
  flushFailures : Nat
  fetchErrors : Nat
  refreshCycles : Labelled
  triggersDropped : Nat
  notificationsDropped : Nat
  chainHeight : Int64
  ingestedHeight : Int64
  committedHeight : Int64
  deriving DecidableEq

namespace Metrics

def zero : Metrics := ⟨0, 0, ⟨[]⟩, 0, 0, 0, 0, 0, ⟨[]⟩, 0, 0, 0, 0, 0⟩

/-- Counts one reason for skipped events, if there were any. -/
def skip (m : Metrics) (reason : String) (count : Nat) : Metrics :=
  if count = 0 then m else { m with eventsSkipped := m.eventsSkipped.add reason count }

def observeDemux (m : Metrics) (s : DemuxStats) : Metrics :=
  ((m.skip "unknown" s.unknown).skip "parse_failed" s.parseFailed).skip "discarded" s.discarded

/-! ### Text form -/

inductive Samples where
  | counter (n : Nat)
  | gauge (n : Int64)
  | labelled (label : String) (counts : List (String × Nat))

structure Family where
  name : String
  help : String
  samples : Samples

/-- All families in the order of their names. -/
def families (m : Metrics) : List Family :=
  [⟨"blocks_ingested_total", "Blocks fully processed", .counter m.blocksIngested⟩,
    ⟨"chain_height", "Latest height reported by the node", .gauge m.chainHeight⟩,
    ⟨"committed_height", "Last block durably committed", .gauge m.committedHeight⟩,
    ⟨"events_recorded_total", "Events written and applied", .counter m.eventsRecorded⟩,
    ⟨"events_skipped_total", "Events skipped before recording",
      .labelled "reason" m.eventsSkipped.counts⟩,
    ⟨"fetch_errors_total", "Block acquisition errors", .counter m.fetchErrors⟩,
    ⟨"flush_failures_total", "Unrecoverable flush failures", .counter m.flushFailures⟩,
    ⟨"flushes_total", "Successful flushes", .counter m.flushes⟩,
    ⟨"ingested_height", "Last block processed", .gauge m.ingestedHeight⟩,
    ⟨"notifications_dropped_total", "Caught-up notifications coalesced into a pending one",
      .counter m.notificationsDropped⟩,
    ⟨"refresh_cycles_total", "Aggregate refresh cycles",
      .labelled "mode" m.refreshCycles.counts⟩,
    ⟨"refresh_triggers_dropped_total", "Refresh triggers coalesced into a pending one",
      .counter m.triggersDropped⟩,
    ⟨"rows_refused_total", "Rows refused by schema validation", .counter m.rowsRefused⟩,
    ⟨"rows_skipped_total", "Rows rejected by the database in tolerant mode",
      .counter m.rowsSkipped⟩]

def escapeLabel (s : String) : String :=
  String.ofList (s.toList.flatMap fun c =>
    if c = '\\' then ['\\', '\\']
    else if c = '\n' then ['\\', 'n']
    else if c = '"' then ['\\', '"']
    else [c])

namespace Samples

def typeName : Samples → String
  | .gauge _ => "gauge"
  | _ => "counter"

/-- The label part and the value of each line. -/
def lines : Samples → List (String × Int)
  | .counter n => [("", n)]
  | .gauge n => [("", n.toInt)]
  | .labelled label counts =>
    counts.map fun (v, n) => ("\x7b" ++ label ++ "=\"" ++ escapeLabel v ++ "\"\x7d", (n : Int))

end Samples

/-- The lines of a family; none if it has nothing to show. -/
def Family.render (f : Family) : String :=
  let name := "thor_indexer_" ++ f.name
  match f.samples.lines with
  | [] => ""
  | lines =>
    "# HELP " ++ name ++ " " ++ f.help ++ "\n# TYPE " ++ name ++ " " ++ f.samples.typeName ++
      "\n" ++ "".intercalate (lines.map fun (label, n) =>
        name ++ label ++ " " ++ String.ofList (Text.Rounded.ofInt n) ++ "\n")

def render (m : Metrics) : String := "".intercalate (m.families.map Family.render)

end Metrics

end PoolIndexer
