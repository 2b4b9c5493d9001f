import PoolIndexer.Record.Snapshot
import PoolIndexer.Table.Row

/-!
# Fault — what can go wrong, by where it goes wrong

Each error is a cause with its text.  A row refusal costs one event; every other error ends the
stage that meets it.
-/

namespace PoolIndexer

/-- A span of milliseconds in the largest unit that keeps it above one. -/
def showMillis (ms : Nat) : String :=
  let fraction (n : Nat) : List Char :=
    ((Text.Decimal.lastDigits 3 n).reverse.dropWhile (· = '0')).reverse
  if ms = 0 then "0ns"
  else if ms < 1000 then Text.Decimal.showNat ms ++ "ms"
  else if ms % 1000 = 0 then Text.Decimal.showNat (ms / 1000) ++ "s"
  else
    Text.Decimal.showNat (ms / 1000) ++ "." ++ String.ofList (fraction (ms % 1000)) ++ "s"

/-- Why blocks could not be obtained. -/
inductive ChainError where
  | noData
  | heightGap (expected got : Int64)
  | rpc (code : Int64) (message : String)
  | http (message : String)
  | decode (message : String)
  | archive (message : String)
  /-- No answer within that many milliseconds. -/
  | timeout (ms : Nat)
  deriving DecidableEq

namespace ChainError

def message : ChainError → String
  | .noData => "no new blocks available"
  | .heightGap expected got =>
    "height gap: expected " ++ Text.Decimal.showInt64 expected ++ ", got " ++
      Text.Decimal.showInt64 got
  | .rpc code message => "RPC error " ++ Text.Decimal.showInt64 code ++ ": " ++ message
  | .http message => "HTTP error: " ++ message
  | .decode message => "Decode error: " ++ message
  | .archive message => "Archive error: " ++ message
  | .timeout ms => "Timeout after " ++ showMillis ms

end ChainError

/-- Why the store did not do what it was asked to. -/
inductive StoreError where
  | database (message : String)
  | schemaMismatch (stored expected : String)
  | migrationFailed (message : String)
  | rowRejected (table reason : String)
  deriving DecidableEq

def StoreError.message : StoreError → String
  | .database message => "Database error: " ++ message
  | .schemaMismatch stored expected =>
    "Schema hash mismatch: stored " ++ stored ++ ", expected " ++ expected
  | .migrationFailed message => "Migration failed: " ++ message
  | .rowRejected table reason => "Row rejected by " ++ table ++ ": " ++ reason

inductive IndexerError where
  | chain (e : ChainError)
  | store (e : StoreError)
  | insert (e : InsertError)
  | snapshot (e : SnapshotError)
  | configuration (message : String)
  | heightOutOfOrder (expected got : Int64)
  | other (message : String)
  deriving DecidableEq

namespace IndexerError

def message : IndexerError → String
  | .chain e => "Fetch error: " ++ e.message
  | .store e => "Storage error: " ++ e.message
  | .insert e => "Insert error: " ++ e.message
  | .snapshot e => "Snapshot error: " ++ e.message
  | .configuration message => "Configuration error: " ++ message
  | .heightOutOfOrder expected got =>
    "Block height out of order: expected " ++ Text.Decimal.showInt64 expected ++ ", got " ++
      Text.Decimal.showInt64 got
  | .other message => message

/-- The registry or the database refused a row; only its event is lost. -/
def isRowRefusal : IndexerError → Bool
  | .insert _ => true
  | .store (.rowRejected _ _) => true
  | _ => false

end IndexerError

/-- What ends a stage early: an arithmetic overflow, or an error with a cause. -/
inductive Stop (ε : Type) where
  | overflow (o : Overflow)
  | error (e : ε)
  deriving DecidableEq

end PoolIndexer
