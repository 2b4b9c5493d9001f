/-!
# Table.Value — what a database column holds
-/

namespace PoolIndexer

inductive ColumnType where
  | bigint
  | text
  | bytea
  | boolean
  deriving DecidableEq

def ColumnType.name : ColumnType → String
  | .bigint => "BIGINT"
  | .text => "TEXT"
  | .bytea => "BYTEA"
  | .boolean => "BOOLEAN"

inductive Value where
  | bigint (n : Int64)
  | text (s : String)
  | bytes (b : List UInt8)
  | bool (b : Bool)
  | null
  deriving DecidableEq

namespace Value

/-- Whether the value can stand in a column of type `t`. -/
def fits (t : ColumnType) (nullable : Bool) : Value → Bool
  | .bigint _ => t = .bigint
  | .text _ => t = .text
  | .bytes _ => t = .bytea
  | .bool _ => t = .boolean
  | .null => nullable

def int64? : Value → Option Int64
  | .bigint n => some n
  | _ => none

def text? : Value → Option String
  | .text s => some s
  | _ => none

def bytes? : Value → Option (List UInt8)
  | .bytes b => some b
  | _ => none

end Value

end PoolIndexer
