import PoolIndexer.Event.Attributes
import PoolIndexer.Fault
import PoolIndexer.Record.Recorder
import PoolIndexer.Report.Basic

/-!
# Report.Fault — errors as JSON: the kind and the text
-/

namespace PoolIndexer

open Report

def AttributeError.kind : AttributeError → String
  | .missing .. => "MissingAttribute"
  | .notInteger .. => "InvalidInteger"
  | .notCoin .. => "InvalidCoin"
  | .notDecodable .. => "Encoding"
  | .invalid .. => "Invalid"

def InsertError.kind : InsertError → String
  | .unknownTable .. => "UnknownTable"
  | .unknownColumn .. => "UnknownColumn"
  | .missingColumn .. => "MissingColumn"
  | .valueCount .. => "ValueCount"
  | .typeMismatch .. => "TypeMismatch"
  | .protocol .. => "Protocol"

def StoreError.kind : StoreError → String
  | .database .. => "Database"
  | .schemaMismatch .. => "SchemaMismatch"
  | .migrationFailed .. => "MigrationFailed"
  | .rowRejected .. => "RowRejected"

def SnapshotError.kind : SnapshotError → String
  | .corrupt .. => "Corrupt"
  | .encoding .. => "Encode"

def ChainError.kind : ChainError → String
  | .noData => "NoData"
  | .heightGap .. => "HeightGap"
  | .rpc .. => "Rpc"
  | .http .. => "Http"
  | .decode .. => "Decode"
  | .archive .. => "Archive"
  | .timeout .. => "Timeout"

/-- The group and the kind of an error. -/
def IndexerError.kind : IndexerError → String
  | .chain e => "Fetch." ++ e.kind
  | .store e => "Storage." ++ e.kind
  | .insert e => "Insert." ++ e.kind
  | .snapshot e => "Snapshot." ++ e.kind
  | .configuration .. => "Configuration"
  | .heightOutOfOrder .. => "HeightOutOfOrder"
  | .other .. => "Other"

instance : ToJson AttributeError := ⟨fun e => errorWith e.kind e.message⟩
instance : ToJson InsertError := ⟨fun e => errorWith e.kind e.message⟩
/-- A database error without a text is its kind alone. -/
instance : ToJson StoreError := ⟨fun e =>
  if e = .database "" then error e.kind else errorWith e.kind e.message⟩
instance : ToJson SnapshotError := ⟨fun e => errorWith e.kind e.message⟩
instance : ToJson IndexerError := ⟨fun e => errorWith e.kind e.message⟩
instance : ToJson Overflow := ⟨fun o => errorWith "panic" o.message⟩

end PoolIndexer
