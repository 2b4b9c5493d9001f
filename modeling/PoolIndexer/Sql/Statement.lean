import PoolIndexer.Table.Ddl
import PoolIndexer.Table.Row

/-!
# Sql.Statement — what is sent to a database server

Rows of one table and one list of columns go together into one statement, as long as it has no more
than 65000 parameters.
-/

namespace PoolIndexer

namespace Sql

inductive Parameter where
  | value (v : Value)
  /-- No value, in a column of that type. -/
  | null (t : ColumnType)
  deriving DecidableEq

structure Statement where
  text : String
  params : List Parameter
  deriving DecidableEq

def plain (text : String) : Statement := ⟨text, []⟩

def begin : Statement := plain "BEGIN"

def commit : Statement := plain "COMMIT"

def rollback : Statement := plain "ROLLBACK"

def savepoint : Statement := plain "SAVEPOINT event_rows"

def release : Statement := plain "RELEASE SAVEPOINT event_rows"

def rollbackTo : Statement := plain "ROLLBACK TO SAVEPOINT event_rows"

/-! ### Rows -/

/-- The type of a column of a registered table. -/
def columnType (table column : String) : ColumnType :=
  (((Schema.table? table).bind (·.column? column)).map Column.type).getD .text

def parameter (table : String) (cell : String × Value) : Parameter :=
  match cell.2 with
  | .null => .null (columnType table cell.1)
  | v => .value v

def rowParameters (r : Row) : List Parameter :=
  (r.columns.zip r.values).map (parameter r.table)

/-- The places of `width` parameters from the given one on. -/
def places (first width : Nat) : String :=
  "(" ++ ", ".intercalate ((List.range width).map fun i =>
    "$" ++ Text.Decimal.showNat (first + i)) ++ ")"

/-- Inserts rows that share their table and columns. -/
def insert (first : Row) (more : List Row) : Statement :=
  let rows := first :: more
  let width := first.columns.length
  ⟨"INSERT INTO " ++ first.table ++ " (" ++ ", ".intercalate first.columns ++ ") VALUES " ++
      ", ".intercalate ((List.range rows.length).map fun i => places (i * width + 1) width),
    rows.flatMap rowParameters⟩

/-! ### Runs of rows -/

def maxParameters : Nat := 65000

/-- How many rows like this one fit into one statement. -/
def rowLimit (r : Row) : Nat := max (maxParameters / max r.columns.length 1) 1

/-- At most `limit` rows in front that have the shape of `first`, and the rest. -/
def splitRun (first : Row) : Nat → List Row → List Row × List Row
  | 0, rows => ([], rows)
  | _ + 1, [] => ([], [])
  | limit + 1, r :: rest =>
    if r.sameShape first then
      let (run, rest) := splitRun first limit rest
      (r :: run, rest)
    else ([], r :: rest)

theorem splitRun_append (first : Row) (limit : Nat) (rows : List Row) :
    (splitRun first limit rows).1 ++ (splitRun first limit rows).2 = rows := by
  induction limit generalizing rows with
  | zero => rfl
  | succ limit ih =>
    match rows with
    | [] => rfl
    | r :: rest =>
      unfold splitRun
      split
      · simpa using ih rest
      · rfl

theorem length_splitRun_le (first : Row) (limit : Nat) (rows : List Row) :
    (splitRun first limit rows).2.length ≤ rows.length := by
  have := congrArg List.length (splitRun_append first limit rows)
  rw [List.length_append] at this
  omega

/-- One statement for each run of rows that go together. -/
def inserts : List Row → List Statement
  | [] => []
  | first :: rest =>
    insert first (splitRun first (rowLimit first - 1) rest).1 ::
      inserts (splitRun first (rowLimit first - 1) rest).2
termination_by rows => rows.length
decreasing_by
  have := length_splitRun_le first (rowLimit first - 1) rest
  simp only [List.length_cons]
  omega

/-- Rows ordered by table; the rows of a table keep their order. -/
def byTable (rows : List Row) : List Row := rows.mergeSort fun a b => a.table ≤ b.table

/-! ### Constants, checkpoints and views -/

def text (s : String) : Parameter := .value (.text s)

def bigint (n : Int64) : Parameter := .value (.bigint n)

def schemaExists : Statement := plain "SELECT to_regclass('constants') IS NOT NULL"

def createSchema : Statement := plain Schema.ddl

def dropTable (name : String) : Statement := plain ("DROP TABLE IF EXISTS " ++ name ++ " CASCADE")

def clearConstants : Statement := plain "DELETE FROM constants"

def setConstant (key value : String) : Statement :=
  ⟨"INSERT INTO constants (key, value) VALUES ($1, $2)\n             " ++
    "ON CONFLICT (key) DO UPDATE SET value = EXCLUDED.value", [text key, text value]⟩

def getConstant (key : String) : Statement :=
  ⟨"SELECT value FROM constants WHERE key = $1", [text key]⟩

def deleteConstant (key : String) : Statement :=
  ⟨"DELETE FROM constants WHERE key = $1", [text key]⟩

def latestCheckpoint : Statement :=
  plain ("SELECT height, timestamp, hash, agg_state FROM block_log\n             " ++
    "WHERE agg_state IS NOT NULL ORDER BY height DESC LIMIT 1")

def getWatermark (view : String) : Statement :=
  ⟨"SELECT watermark FROM aggregate_watermarks WHERE view = $1", [text view]⟩

def earliestBlock : Statement := plain "SELECT MIN(timestamp) FROM block_log"

def refresh (v : View) (start stop : Int64) : Statement :=
  ⟨v.refreshSql, [bigint start, bigint stop, bigint v.bucket.nanos]⟩

def setWatermark (v : View) (watermark : Int64) : Statement :=
  ⟨"INSERT INTO aggregate_watermarks (view, watermark) VALUES ($1, $2)\n             " ++
    "ON CONFLICT (view) DO UPDATE SET watermark = " ++
    "GREATEST(aggregate_watermarks.watermark, EXCLUDED.watermark)",
    [text v.name, bigint watermark]⟩

def ping : Statement := plain "SELECT 1"

end Sql

end PoolIndexer
