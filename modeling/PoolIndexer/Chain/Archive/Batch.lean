import PoolIndexer.Disk
import PoolIndexer.Fault
import PoolIndexer.Text.Decimal

/-!
# Chain.Archive.Batch — the batch files of an archive

A batch is a compressed file that is named by the last height it holds, in twelve digits.  While it
is written it has another name, which is discarded when the archive is opened for writing.
-/

namespace PoolIndexer

namespace Archive

structure Batch where
  name : String
  lastHeight : Int64
  deriving DecidableEq

/-- The folder, a file or the disk does not allow what is asked. -/
def broken : ChainError := .archive ""

/-- A height in twelve places, of which a sign takes one. -/
def batchName (height : Int64) : String :=
  match height.toInt with
  | .ofNat n => String.ofList (Text.Decimal.padded 12 n)
  | .negSucc n => String.ofList ('-' :: Text.Decimal.padded 11 (n + 1))

def openSuffix : String := ".tmp"

/-- The name of a batch that is being written. -/
def openName (height : Int64) : String := batchName height ++ openSuffix

def isOpenName (name : String) : Bool := openSuffix.toList.isSuffixOf name.toList

/-- The height that a name of twelve digits stands for. -/
def heightOf? (name : String) : Option Int64 :=
  if name.toList.length = 12 && name.toList.all Text.Decimal.isDigit then
    Text.Decimal.int64? name.toList
  else none

def batch? (name : String) : Option Batch := (heightOf? name).map (Batch.mk name)

/-- The batches of a folder in the order of their heights. -/
def batches (f : Folder) : List Batch :=
  (f.names.filterMap batch?).mergeSort fun a b => a.lastHeight.toInt ≤ b.lastHeight.toInt

def lastHeight? (bs : List Batch) : Option Int64 := bs.getLast?.map Batch.lastHeight

/-- The height that writing goes on at. -/
def resumeHeight (bs : List Batch) (startHeight : Int64) : Int64 :=
  match lastHeight? bs with
  | some h => h + 1
  | none => startHeight

/-- The batches of a place that need not exist. -/
def scan : Place → Except ChainError (List Batch)
  | .folder f => .ok (batches f)
  | .file => .error broken
  | .absent | .barred => .ok []

/-- Discards the batches that are still being written. -/
def discard (f : Folder) : Folder := f.filter fun e => !isOpenName e.1

/-- A folder that looks like a batch being written cannot be discarded. -/
def isStuck (e : String × Item) : Bool :=
  isOpenName e.1 && match e.2 with
    | .folder _ => true
    | _ => false

/-- Makes a place ready for writing. -/
def openForWriting : Place → Except ChainError (List Batch) × Place
  | .absent => (.ok [], .folder [])
  | .folder f =>
    if f.any isStuck then (.error broken, .folder f)
    else (.ok (batches (discard f)), .folder (discard f))
  | p => (.error broken, p)

end Archive

end PoolIndexer
