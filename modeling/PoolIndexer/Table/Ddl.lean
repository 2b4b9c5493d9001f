import PoolIndexer.Table.Schema
import PoolIndexer.Text.Hex
import PoolIndexer.Text.Sha256
import PoolIndexer.View.Sql

/-!
# Table.Ddl — the whole schema as statements, and its hash
-/

namespace PoolIndexer.Schema

def constantsDdl : String :=
  "CREATE TABLE IF NOT EXISTS constants (\n    key TEXT PRIMARY KEY,\n    value TEXT NOT NULL\n);\n"

/-- The constants, then the tables of the registry, then the rollups. -/
def ddl : String :=
  constantsDdl ++ "".intercalate (tables.map Table.ddl) ++ View.watermarkDdl ++
    "".intercalate (View.all.map View.ddl)

def hash : String := Text.Hex.lower (Text.Sha256.digest ddl.toUTF8.toList)

/-- The tables that a rebuild drops. -/
def allTableNames : List String :=
  tables.map Table.name ++ ["aggregate_watermarks"] ++ View.all.map View.table

end PoolIndexer.Schema
