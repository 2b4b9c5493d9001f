import PoolIndexer.Table.Schema
import PoolIndexer.Text.Decimal

/-!
# Table.Row — a row and when its table takes it

A row is checked before it is stored: the table exists, every value has a column of its table that
it fits, and no column that must not be null is left out.
-/

namespace PoolIndexer

structure Row where
  table : String
  columns : List String
  values : List Value
  deriving DecidableEq

/-- Why a row is not handed on; `protocol` means that it came at the wrong time. -/
inductive InsertError where
  | unknownTable (table : String)
  | unknownColumn (table column : String)
  | missingColumn (table column : String)
  | valueCount (table : String) (columns values : Nat)
  | typeMismatch (table column expected : String)
  | protocol (rule : String)
  deriving DecidableEq

def InsertError.message : InsertError → String
  | .unknownTable table => "unknown table " ++ table
  | .unknownColumn table column => "table " ++ table ++ " has no column " ++ column
  | .missingColumn table column =>
    "table " ++ table ++ ": required column " ++ column ++ " not provided"
  | .valueCount table columns values =>
    "table " ++ table ++ ": " ++ Text.Decimal.showNat columns ++ " columns but " ++
      Text.Decimal.showNat values ++ " values"
  | .typeMismatch table column expected =>
    "table " ++ table ++ ": column " ++ column ++ " expects " ++ expected
  | .protocol rule => "protocol violation: " ++ rule

namespace Row

/-- Checks one named value against the columns of a table. -/
def checkCell (t : Table) (cell : String × Value) : Except InsertError Unit :=
  match t.column? cell.1 with
  | none => .error (.unknownColumn t.name cell.1)
  | some c =>
    if cell.2.fits c.type c.nullable then .ok ()
    else .error (.typeMismatch t.name cell.1 c.type.name)

/-- The first column that must be given and is not among `columns`. -/
def missing? (t : Table) (columns : List String) : Option Column :=
  t.columns.find? fun c => !c.nullable && !columns.contains c.name

def check (table : String) (columns : List String) (values : List Value) :
    Except InsertError Row :=
  match Schema.table? table with
  | none => .error (.unknownTable table)
  | some t =>
    if columns.length ≠ values.length then
      .error (.valueCount table columns.length values.length)
    else
      match (columns.zip values).forM (checkCell t) with
      | .error e => .error e
      | .ok _ =>
        match missing? t columns with
        | some c => .error (.missingColumn table c.name)
        | none => .ok ⟨table, columns, values⟩

/-- The value of the first column of that name. -/
def get? (r : Row) (column : String) : Option Value := (r.columns.zip r.values).lookup column

/-- Whether the rows can be written by one statement. -/
def sameShape (a b : Row) : Bool := a.table = b.table && a.columns = b.columns

end Row

end PoolIndexer
