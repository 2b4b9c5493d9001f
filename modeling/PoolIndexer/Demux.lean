import PoolIndexer.Block.Basic
import PoolIndexer.Correction.Table
import PoolIndexer.Event.Id
import PoolIndexer.Event.Load
import PoolIndexer.Log

/-!
# Demux — the typed events of one block, in order

A block has three phases.  The events of a phase are numbered from zero; in the middle phase the
numbers run on over all transactions that succeeded.  What becomes of an event depends on nothing
but the event and its place.  Injected events follow those of the last phase.
-/

namespace PoolIndexer

structure DemuxStats where
  delivered : Nat
  ignored : Nat
  unknown : Nat
  parseFailed : Nat
  discarded : Nat
  injected : Nat
  failedTxs : Nat
  deriving DecidableEq

namespace DemuxStats

def zero : DemuxStats := ⟨0, 0, 0, 0, 0, 0, 0⟩

/-- The events that were lost although nobody asked for it. -/
def skipped (s : DemuxStats) : Nat := s.unknown + s.parseFailed + s.discarded

end DemuxStats

/-! ### The events of a block -/

/-- An event and its place in the block. -/
structure PlacedEvent where
  phase : Phase
  index : Nat
  raw : RawEvent
  deriving DecidableEq

def placed (phase : Phase) (events : List RawEvent) : List PlacedEvent :=
  events.zipIdx.map fun (e, i) => ⟨phase, i, e⟩

def Block.txEvents (b : Block) : List RawEvent :=
  (b.txs.filter TxResult.succeeded).flatMap TxResult.events

/-- The ordinary events of a block in the order of their ids. -/
def Block.placedEvents (b : Block) : List PlacedEvent :=
  placed .begin b.beginEvents ++ placed .tx b.txEvents ++ placed .end b.endEvents

def Block.failedTxs (b : Block) : Nat := (b.txs.filter fun t => !t.succeeded).length

/-! ### The fate of one event -/

inductive Fate where
  | indexTooLarge
  | ignored
  | unknown
  | malformed (e : AttributeError)
  | discarded (kind reason : String)
  | delivered (e : Event)

structure Demux where
  natives : NativeNames
  corrections : CorrectionTable
  base64 : Bool
  ignoredKinds : List String

namespace Demux

/-- What becomes of an event at its place. -/
def fate (d : Demux) (m : Metadata) (raw : RawEvent) : Except Overflow Fate :=
  if EventId.maxIndex < m.id.index.toNat then .ok .indexTooLarge
  else if d.ignoredKinds.contains raw.kind then .ok .ignored
  else
    match Attributes.ofRaw raw d.base64 with
    | .error e => .ok (.malformed e)
    | .ok as =>
      match Event.load d.natives as with
      | .error (.attribute e) => .ok (.malformed e)
      | .error (.overflow o) => .error o
      | .ok none => .ok .unknown
      | .ok (some e) =>
        match d.corrections.apply m.height e with
        | .error o => .error o
        | .ok (e, .keep) => .ok (.delivered e)
        | .ok (e, .discard reason) => .ok (.discarded e.kind reason)

end Demux

/-! ### A run over a block -/

/-- What has been handed on and counted so far; `fault` ends the run. -/
structure DemuxRun where
  stats : DemuxStats
  delivered : List (Event × Metadata)
  log : Log
  fault : Option Overflow

namespace DemuxRun

def start (b : Block) : DemuxRun := ⟨{ DemuxStats.zero with failedTxs := b.failedTxs }, [], [], none⟩

def report (r : DemuxRun) (message : String) (fields : List (String × LogValue)) : DemuxRun :=
  { r with log := r.log ++ [⟨.warn, message, fields⟩] }

/-- Names the place of an event in front of other values. -/
def place (m : Metadata) (more : List (String × LogValue)) : List (String × LogValue) :=
  ("height", .int m.height) :: ("event_id", .eventId m.id) :: more

/-- Counts a fate and hands on what is delivered. -/
def settle (r : DemuxRun) (m : Metadata) (raw : RawEvent) : Fate → DemuxRun
  | .indexTooLarge =>
    { r with stats := { r.stats with parseFailed := r.stats.parseFailed + 1 } }.report
      "Event index overflows its phase, skipping" [("event_id", .eventId m.id)]
  | .ignored => { r with stats := { r.stats with ignored := r.stats.ignored + 1 } }
  | .unknown =>
    { r with stats := { r.stats with unknown := r.stats.unknown + 1 } }.report
      "Unknown event kind, skipping" (place m [("kind", .text raw.kind)])
  | .malformed e =>
    { r with stats := { r.stats with parseFailed := r.stats.parseFailed + 1 } }.report
      "Malformed event, skipping" (place m [("error", .text e.message)])
  | .discarded kind reason =>
    { r with stats := { r.stats with discarded := r.stats.discarded + 1 } }.report
      "Event discarded" (place m [("kind", .text kind), ("reason", .text reason)])
  | .delivered e =>
    { r with
      stats := { r.stats with delivered := r.stats.delivered + 1 }
      delivered := r.delivered ++ [(e, m)] }

end DemuxRun

namespace Demux

def step (d : Demux) (height timestamp : Int64) (r : DemuxRun) (p : PlacedEvent) : DemuxRun :=
  match r.fault with
  | some _ => r
  | none =>
    let m := Metadata.of height timestamp p.phase (UInt32.ofNat p.index)
    match d.fate m p.raw with
    | .error o => { r with fault := some o }
    | .ok f => r.settle m p.raw f

def injectStep (height timestamp : Int64) (firstIndex : Nat) (r : DemuxRun) (e : Event × Nat) :
    DemuxRun :=
  { r with
    stats := { r.stats with injected := r.stats.injected + 1 }
    delivered := r.delivered ++
      [(e.1, Metadata.of height timestamp .end (UInt32.ofNat (firstIndex + e.2)))]
    log := r.log ++ [⟨.debug, "Injecting synthetic event",
      [("height", .int height), ("kind", .text e.1.kind)]⟩] }

/-- Runs over all events of a block; a fault keeps what was handed on before it. -/
def run (d : Demux) (b : Block) : DemuxRun :=
  let r := b.placedEvents.foldl (d.step b.height b.nanos) (DemuxRun.start b)
  match r.fault with
  | some _ => r
  | none =>
    (d.corrections.injected b.height).zipIdx.foldl
      (injectStep b.height b.nanos b.endEvents.length) r

end Demux

end PoolIndexer
