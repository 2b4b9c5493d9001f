import PoolIndexer.Chain.Archive.Reader
import PoolIndexer.Chain.Node

/-!
# Chain.Cursor — one block after the other from archive and node

A cursor stands at a height and hands out the block of that height, then moves on by one.  As long
as the archive holds the next height the block comes from there; from then on the node is asked for
a whole range at a time.  A block of any other height is a gap.
-/

namespace PoolIndexer

inductive Origin where
  | archive
  | node
  deriving DecidableEq

def Origin.name : Origin → String
  | .archive => "archive"
  | .node => "rpc"

structure Cursor where
  /-- The archive as long as it is in use, and the last height in it. -/
  archive : Option (Archive.Reader × Int64)
  /-- How many blocks the node is asked for at once. -/
  batchSize : Nat
  nextHeight : Int64
  /-- The last height to hand out, if there is one. -/
  lastHeight : Option Int64
  /-- Blocks that have been fetched and not been handed out. -/
  buffer : List Block
  /-- Whether the last block was the last one of its batch. -/
  atBatchEnd : Bool
  /-- Where the last block came from. -/
  origin : Option Origin
  /-- The head of the chain when it was last asked for. -/
  chainHeight : Option Int64

namespace Cursor

/-- A cursor over archived batches and a node. -/
def ofBatches (bs : List Archive.Batch) (batchSize : Nat) (first : Int64) (lastHeight : Option Int64) :
    Cursor where
  archive := match Archive.lastHeight? bs with
    | some last => if first.toInt ≤ last.toInt then some (.ofBatches bs first, last) else none
    | none => none
  batchSize := max batchSize 1
  nextHeight := first
  lastHeight := lastHeight
  buffer := []
  atBatchEnd := false
  origin := none
  chainHeight := none

/-- A cursor over the archive at a place and a node. -/
def start (p : Place) (batchSize : Nat) (first : Int64) (lastHeight : Option Int64) :
    Except ChainError Cursor :=
  (Archive.scan p).map fun bs => ofBatches bs batchSize first lastHeight

/-! ### Handing out -/

/-- Hands out a block if it has the next height. -/
def deliver (c : Cursor) (b : Block) (closes : Bool) (origin : Origin) :
    Except NoAnswer Block × Cursor :=
  if b.height ≠ c.nextHeight then
    (.error (.error (.heightGap c.nextHeight b.height)), { c with buffer := [], archive := none })
  else
    match Checked.add c.nextHeight 1 with
    | .error o => (.error (.overflow o), c)
    | .ok next =>
      (.ok b, { c with nextHeight := next, atBatchEnd := closes, origin := some origin })

/-- Whether the last height has been handed out. -/
def isPast (c : Cursor) : Bool :=
  match c.lastHeight with
  | some last => last.toInt < c.nextHeight.toInt
  | none => false

/-! ### The archive -/

/-- The next block if the archive holds it; else the archive is left for good. -/
def fromArchive (p : Place) (c : Cursor) : Except NoAnswer (Option Block) × Cursor :=
  match c.archive with
  | none => (.ok none, c)
  | some (reader, last) =>
    if last.toInt < c.nextHeight.toInt then (.ok none, { c with archive := none })
    else
      match reader.next p c.nextHeight with
      | (.error e, reader) => (.error (.error e), { c with archive := some (reader, last) })
      | (.ok none, _) => (.ok none, { c with archive := none })
      | (.ok (some a), reader) =>
        if a.block.height ≠ c.nextHeight then (.ok none, { c with archive := none })
        else
          let (result, c) := { c with archive := some (reader, last) }.deliver a.block
            (a.closes || decide (c.lastHeight = some a.block.height)) .archive
          (result.map some, c)

/-! ### The node -/

/-- The last height to ask for when the chain ends at `head`. -/
def lastWanted (c : Cursor) (head : Int64) : Except Overflow Int64 := do
  let above ← Checked.add c.nextHeight (Int64.ofNat c.batchSize)
  let last ← Checked.sub above 1
  pure (Checked.smaller (Checked.smaller head last) (c.lastHeight.getD head))

section

variable {σ : Type} (node : Node σ)

/-- Asks the node for the next range of blocks. -/
def fill (c : Cursor) (s : σ) : Except NoAnswer Unit × Cursor × σ :=
  match node.head s with
  | (.error e, s) => (.error e, c, s)
  | (.ok head, s) =>
    let c := { c with chainHeight := some head }
    match c.lastWanted head with
    | .error o => (.error (.overflow o), c, s)
    | .ok last =>
      if last.toInt < c.nextHeight.toInt then (.error (.error .noData), c, s)
      else
        match node.blocks c.nextHeight last s with
        | (.error e, s) => (.error e, c, s)
        | (.ok blocks, s) => (.ok (), { c with buffer := c.buffer ++ blocks }, s)

/-- The next block of the buffer. -/
def fromBuffer (c : Cursor) : Except NoAnswer Block × Cursor :=
  match c.buffer with
  | [] => (.error (.error .noData), c)
  | b :: rest => { c with buffer := rest }.deliver b rest.isEmpty .node

def fromNode (c : Cursor) (s : σ) : Except NoAnswer Block × Cursor × σ :=
  if c.buffer.isEmpty then
    match c.fill node s with
    | (.error e, c, s) => (.error e, c, s)
    | (.ok _, c, s) =>
      let (result, c) := c.fromBuffer
      (result, c, s)
  else
    let (result, c) := c.fromBuffer
    (result, c, s)

/-- The next block.  The error `noData` says that there is none at the moment. -/
def next (p : Place) (c : Cursor) (s : σ) : Except NoAnswer Block × Cursor × σ :=
  if c.isPast then (.error (.error .noData), c, s)
  else
    match c.fromArchive p with
    | (.error e, c) => (.error e, c, s)
    | (.ok (some b), c) => (.ok b, c, s)
    | (.ok none, c) => c.fromNode node s

end

end Cursor

end PoolIndexer
