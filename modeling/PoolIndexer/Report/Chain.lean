import PoolIndexer.Chain.Archive.Writer
import PoolIndexer.Chain.Fetcher
import PoolIndexer.Chain.Scripted
import PoolIndexer.Report.Fault

/-!
# Report.Chain — blocks and where they come from as JSON
-/

namespace PoolIndexer

open Report

instance : ToJson Block := ⟨Block.toJson⟩

/-- Whether there is more to say about an error than its kind. -/
def ChainError.hasWords : ChainError → Bool
  | .archive _ => false
  | .http text | .decode text => !text.isEmpty
  | _ => true

instance : ToJson ChainError := ⟨fun e =>
  if e.hasWords then errorWith e.kind e.message else error e.kind⟩

instance : ToJson Archive.Batch := ⟨fun b => toJson (b.name, b.lastHeight)⟩

instance : ToJson Archive.Archived := ⟨fun a =>
  .record [("block", toJson a.block), ("closes", toJson a.closes)]⟩

/-- The batches of an archive, and where writing goes on. -/
def Archive.report (startHeight : Int64) (bs : List Batch) : Json :=
  .record [("batches", toJson bs), ("last_height", toJson (lastHeight? bs)),
    ("resume", toJson (resumeHeight bs startHeight)), ("own_dir", .bool true)]

def Archive.Writer.report (w : Writer) (result : Json) : Json :=
  .record [("result", result), ("next_height", toJson w.nextHeight), ("pending", toJson w.pending)]

instance : ToJson NodeRequest := ⟨fun
  | .head => .text "head"
  | .blocks low high => toJson [low, high]⟩

def Cursor.report (c : Cursor) (result : Json) (requests : List NodeRequest) : Json :=
  .record [("result", result), ("origin", toJson (c.origin.map Origin.name)),
    ("batch_end", toJson c.atBatchEnd), ("next_height", toJson c.nextHeight),
    ("chain_height", toJson c.chainHeight), ("calls", toJson requests)]

instance : ToJson Fetcher.Received := ⟨fun
  | .message m time => .array [toJson m.block.height, toJson m.batchEnd, toJson time]
  | .timeout => .text "timeout"
  | .closed => .text "closed"⟩

def Fetcher.report {σ : Type} (r : Fetcher σ) (received : List Fetcher.Received) : Json :=
  .record [("received", toJson received), ("fetch_errors", toJson r.errors),
    ("chain_height", toJson r.chainHeight), ("finished", toJson r.isOver)]

end PoolIndexer
