import PoolIndexer.Report.Event
import PoolIndexer.Table.Row
import PoolIndexer.Json.Reader
import PoolIndexer.View.Sql

/-!
# Report.Table — rows, tables and views as JSON
-/

namespace PoolIndexer

/-- A whole number, a text, a truth value, null, or octets in hexadecimal. -/
def Value.ofJson? : Json → Option Value
  | .null => some .null
  | .bool b => some (.bool b)
  | .string (some s) => some (.text s)
  | .whole n => (Checked.fit? n).map .bigint
  | j => (j.field? "hex").bind fun h => h.text?.bind fun s =>
    (Text.Hex.decodeText s).toOption.map .bytes

instance : ToJson Row :=
  ⟨fun r => .record [("table", toJson r.table), ("columns", toJson r.columns),
    ("values", toJson r.values)]⟩

instance : ToJson Column :=
  ⟨fun c => .array [toJson c.name, toJson c.type.name, toJson c.nullable]⟩

namespace Table

/-- A table, and whether it has a column of the given name. -/
def report (t : Table) (column : Option String) : Json :=
  .record [("name", toJson t.name), ("event_table", toJson t.isEventTable),
    ("primary_key", toJson t.primaryKey), ("columns", toJson t.columns), ("ddl", toJson t.ddl),
    ("column", toJson (column.map fun c => (t.column? c).isSome))]

end Table

instance : ToJson View :=
  ⟨fun v => .record [("name", toJson v.name), ("table", toJson v.table),
    ("source", toJson (v.source?.map View.name)), ("nanos", toJson v.bucket.nanos),
    ("ddl", toJson v.ddl), ("refresh_sql", toJson v.refreshSql)]⟩

end PoolIndexer
