import PoolIndexer.Block.Json
import PoolIndexer.Chain.Archive.Batch

/-!
# Chain.Archive.Reader — the archived blocks in order

A reader opens one batch after the other and hands out the block of each line.  Blank lines do not
count, nor do blocks below the height it is asked for.  A batch that cannot be opened is left out
from then on; one that cannot be unpacked stops the reader for good; a bad line is passed over.
-/

namespace PoolIndexer

namespace Archive

/-- An opened batch. -/
inductive Page where
  | lines (rest : List (List Char)) (lastHeight : Int64)
  /-- It cannot be unpacked. -/
  | unreadable

structure Reader where
  /-- The batches that are still closed. -/
  waiting : List Batch
  page : Option Page

/-- An archived block, and whether it is the last one of its batch. -/
structure Archived where
  block : Block
  closes : Bool

namespace Reader

/-- A reader over the batches that may hold blocks from `first` on. -/
def ofBatches (bs : List Batch) (first : Int64) : Reader :=
  ⟨bs.filter fun b => first.toInt ≤ b.lastHeight.toInt, none⟩

/-! ### Lines -/

/-- The lines of a text; a line break at the end begins no line. -/
def lines (text : List Char) : List (List Char) :=
  let parts := Text.splitOn (· = '\n') text
  if parts.getLast? = some [] then parts.dropLast else parts

def isBlankLine (line : List Char) : Bool := line.all Text.isBlank

/-- What the lines of a batch yield next. -/
inductive Found where
  | block (a : Archived) (rest : List (List Char))
  | bad (rest : List (List Char))
  | none

/-- The first block at or above `first`. -/
def nextLine (first lastHeight : Int64) : List (List Char) → Found
  | [] => .none
  | line :: rest =>
    if isBlankLine line then nextLine first lastHeight rest
    else
      match Block.parse? (String.ofList line) with
      | Option.none => .bad rest
      | some b =>
        if b.height.toInt < first.toInt then nextLine first lastHeight rest
        else .block ⟨b, decide (b.height = lastHeight)⟩ rest

/-! ### Batches -/

def open? (p : Place) (name : String) : Option Item :=
  match p with
  | .folder f => f.get? name
  | _ => none

def malformed : ChainError := .decode ""

/-- Goes on with the batches that are still closed. -/
def nextBatch (p : Place) (first : Int64) :
    List Batch → Except ChainError (Option Archived) × Reader
  | [] => (.ok none, ⟨[], none⟩)
  | b :: rest =>
    match open? p b.name with
    | none => (.error broken, ⟨rest, none⟩)
    | some (.packed text) =>
      match nextLine first b.lastHeight (lines text.toList) with
      | .block a more => (.ok (some a), ⟨rest, some (.lines more b.lastHeight)⟩)
      | .bad more => (.error malformed, ⟨rest, some (.lines more b.lastHeight)⟩)
      | .none => nextBatch p first rest
    | some _ => (.error broken, ⟨rest, some .unreadable⟩)

/-- The next archived block at or above `first`. -/
def next (p : Place) (first : Int64) (r : Reader) : Except ChainError (Option Archived) × Reader :=
  match r.page with
  | none => nextBatch p first r.waiting
  | some .unreadable => (.error broken, r)
  | some (.lines rest lastHeight) =>
    match nextLine first lastHeight rest with
    | .block a more => (.ok (some a), { r with page := some (.lines more lastHeight) })
    | .bad more => (.error malformed, { r with page := some (.lines more lastHeight) })
    | .none => nextBatch p first r.waiting

end Reader

end Archive

end PoolIndexer
