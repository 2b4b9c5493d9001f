import PoolIndexer.Block.Json
import PoolIndexer.Chain.Archive.Batch

/-!
# Chain.Archive.Writer — appending blocks to an archive

A writer takes consecutive blocks and writes one line for each.  It begins a batch under its name
for unfinished batches and gives it the final name when it is full.
-/

namespace PoolIndexer

namespace Archive

/-- A batch that is being written. -/
structure OpenBatch where
  name : String
  blocks : List Block

structure Writer where
  blocksPerFile : Nat
  nextHeight : Int64
  current : Option OpenBatch
  one_le_blocksPerFile : 1 ≤ blocksPerFile

namespace Writer

/-- A batch has at least one block. -/
def ofSize (blocksPerFile : Nat) (nextHeight : Int64) : Writer :=
  ⟨max blocksPerFile 1, nextHeight, none, Nat.le_max_right ..⟩

/-- How many blocks the open batch has. -/
def pending (w : Writer) : Nat := (w.current.map fun b => b.blocks.length).getD 0

def text (bs : List Block) : String := String.join (bs.map fun b => b.render ++ "\n")

/-! ### Batches -/

/-- Makes an empty file in a folder. -/
def create? (p : Place) (name : String) : Option Folder :=
  match p with
  | .folder f =>
    match f.get? name with
    | some (.folder _) => none
    | _ => some (f.put name (.packed ""))
  | _ => none

/-- The name that a batch has until it is full. -/
def nameFor (w : Writer) (height : Int64) : Except Overflow String := do
  let above ← Checked.add height (Int64.ofNat w.blocksPerFile)
  let last ← Checked.sub above 1
  pure (openName last)

/-- Begins a batch with the block of that height unless one is open. -/
def ready (w : Writer) (p : Place) (height : Int64) :
    Except (Stop ChainError) (OpenBatch × Place) :=
  match w.current with
  | some b => .ok (b, p)
  | none =>
    match w.nameFor height with
    | .error o => .error (.overflow o)
    | .ok name =>
      match create? p name with
      | none => .error (.error broken)
      | some f => .ok (⟨name, []⟩, .folder f)

/-- Gives a full batch its final name. -/
def publish (b : OpenBatch) (lastHeight : Int64) : Place → Except ChainError Unit × Place
  | .folder f =>
    match f.get? b.name, f.get? (batchName lastHeight) with
    | none, _ => (.error broken, .folder f)
    | some _, some (.folder _) =>
      (.error broken, .folder (f.put b.name (.packed (text b.blocks))))
    | some _, _ =>
      (.ok (), .folder ((f.erase b.name).put (batchName lastHeight) (.packed (text b.blocks))))
  | p => (.error broken, p)

/-- Appends the next block. -/
def append (w : Writer) (p : Place) (b : Block) :
    Except (Stop ChainError) Unit × Writer × Place :=
  if b.height ≠ w.nextHeight then (.error (.error (.heightGap w.nextHeight b.height)), w, p)
  else
    match w.ready p b.height with
    | .error e => (.error e, w, p)
    | .ok (batch, p) =>
      let batch := { batch with blocks := batch.blocks ++ [b] }
      match Checked.add w.nextHeight 1 with
      | .error o => (.error (.overflow o), { w with current := some batch }, p)
      | .ok next =>
        if batch.blocks.length < w.blocksPerFile then
          (.ok (), { w with nextHeight := next, current := some batch }, p)
        else
          let (result, p) := publish batch b.height p
          (result.mapError .error, { w with nextHeight := next, current := none }, p)

/-- Appends blocks up to the first failure. -/
def appendAll (w : Writer) (p : Place) : List Block → Except (Stop ChainError) Unit × Writer × Place
  | [] => (.ok (), w, p)
  | b :: rest =>
    match w.append p b with
    | (.ok _, w, p) => appendAll w p rest
    | failed => failed

end Writer

end Archive

end PoolIndexer
