import PoolIndexer.Event.Typed
import PoolIndexer.Log
import PoolIndexer.Record.Ledger

/-!
# Record.Totals — the depths of every pool since the first block

Three ledgers add up what the recorded events moved.  A delta whose sum does not fit into 64 bits
is refused: the ledger stays as it was and the refusal is counted.
-/

namespace PoolIndexer

inductive LedgerName where
  | asset
  | rune
  | synth
  deriving DecidableEq

def LedgerName.name : LedgerName → String
  | .asset => "asset"
  | .rune => "rune"
  | .synth => "synth"

structure Totals where
  asset : Ledger
  rune : Ledger
  synth : Ledger
  /-- How many deltas were refused. -/
  overflows : Nat
  deriving DecidableEq

namespace Totals

def empty : Totals := ⟨.empty, .empty, .empty, 0⟩

def ledger (t : Totals) : LedgerName → Ledger
  | .asset => t.asset
  | .rune => t.rune
  | .synth => t.synth

def withLedger (t : Totals) (name : LedgerName) (l : Ledger) : Totals :=
  match name with
  | .asset => { t with asset := l }
  | .rune => { t with rune := l }
  | .synth => { t with synth := l }

/-- Adds a delta to one ledger of a pool, or counts it as refused. -/
def add (t : Totals) (name : LedgerName) (pool : String) (delta : Int64) : Totals :=
  match (t.ledger name).add? pool delta with
  | some l => t.withLedger name l
  | none => { t with overflows := t.overflows + 1 }

/-- Replaces all three depths of a pool. -/
def set (t : Totals) (pool : String) (d : Depths) : Totals :=
  { t with
    asset := t.asset.insert pool d.assetE8
    rune := t.rune.insert pool d.runeE8
    synth := t.synth.insert pool d.synthE8 }

/-- The depths of a pool; a ledger without the pool counts as zero. -/
def get (t : Totals) (pool : String) : Depths :=
  ⟨t.asset.get pool, t.rune.get pool, t.synth.get pool⟩

def insertName (name : String) : List String → List String
  | [] => [name]
  | n :: rest =>
    if name < n then name :: n :: rest
    else if name = n then n :: rest
    else n :: insertName name rest

/-- Every pool that any ledger has seen, in increasing order. -/
def pools (t : Totals) : List String :=
  (t.asset.keys ++ t.rune.keys ++ t.synth.keys).foldr insertName []

def isEmpty (t : Totals) : Bool :=
  t.asset.entries.isEmpty && t.rune.entries.isEmpty && t.synth.entries.isEmpty

/-! ### Changes -/

/-- One effect of an event on the depths. -/
inductive Change where
  | add (name : LedgerName) (pool : String) (delta : Int64)
  | set (pool : String) (depths : Depths)
  deriving DecidableEq

def apply (t : Totals) : Change → Totals
  | .add name pool delta => t.add name pool delta
  | .set pool d => t.set pool d

/-- The report of a refused delta; nothing if the change goes through. -/
def refusal? (t : Totals) : Change → Option LogEntry
  | .add name pool delta =>
    if ((t.ledger name).add? pool delta).isNone then
      some ⟨.error, "Depth overflow, delta not applied",
        [("ledger", .text name.name), ("pool", .text pool), ("delta", .int delta)]⟩
    else none
  | .set _ _ => none

end Totals

end PoolIndexer
