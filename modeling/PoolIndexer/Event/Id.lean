import PoolIndexer.Checked
import PoolIndexer.Text.Decimal

/-!
# Event.Id — the place of an event as one ordered number

Nine decimal places under the height hold the phase and the index within the phase.
-/

namespace PoolIndexer

/-- The part of a block in which an event was emitted. -/
inductive Phase where
  | begin
  | tx
  | «end»
  deriving DecidableEq

namespace Phase

def name : Phase → String
  | .begin => "begin"
  | .tx => "tx"
  | .end => "end"

def ofName? : String → Option Phase
  | "begin" => some .begin
  | "tx" => some .tx
  | "end" => some .end
  | _ => none

def rank : Phase → Nat
  | .begin => 0
  | .tx => 1
  | .end => 2

def ofRank? : Nat → Option Phase
  | 0 => some .begin
  | 1 => some .tx
  | 2 => some .end
  | _ => none

theorem ofRank?_rank (p : Phase) : ofRank? p.rank = some p := by cases p <;> rfl

end Phase

structure EventId where
  height : Int64
  phase : Phase
  index : UInt32
  deriving DecidableEq

namespace EventId

def heightSpan : Nat := 1000000000

def phaseSpan : Nat := 100000000

/-- The largest index that fits under a phase. -/
def maxIndex : Nat := phaseSpan - 1

/-- The code: the height is multiplied first, then the phase and the index are added. -/
def encode (id : EventId) : Except Overflow Int64 := do
  let base ← Checked.mul id.height (Int64.ofNat heightSpan)
  let base ← Checked.add base (Int64.ofNat (id.phase.rank * phaseSpan))
  Checked.add base (Int64.ofNat id.index.toNat)

/-- The id whose code `value` is; nothing if its phase digit names no phase. -/
def decode? (value : Int64) : Option EventId :=
  let height := value.toInt / heightSpan
  let rest := (value.toInt % heightSpan).toNat
  (Phase.ofRank? (rest / phaseSpan)).map fun phase =>
    ⟨Int64.ofInt height, phase, UInt32.ofNat (rest % phaseSpan)⟩

/-- The order of heights, then phases, then indices. -/
def le (a b : EventId) : Bool :=
  if a.height.toInt ≠ b.height.toInt then a.height.toInt < b.height.toInt
  else if a.phase.rank ≠ b.phase.rank then a.phase.rank < b.phase.rank
  else a.index.toNat ≤ b.index.toNat

end EventId

/-- Where and when an event happened; times are nanoseconds since 1970. -/
structure Metadata where
  height : Int64
  timestamp : Int64
  id : EventId
  deriving DecidableEq

def Metadata.of (height timestamp : Int64) (phase : Phase) (index : UInt32) : Metadata :=
  ⟨height, timestamp, ⟨height, phase, index⟩⟩

end PoolIndexer
