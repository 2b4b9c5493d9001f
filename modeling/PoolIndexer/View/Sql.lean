import PoolIndexer.View.Basic

/-!
# View.Sql — the statements that create and refresh a view

A refresh replaces every bucket that begins in `[$1, $2)`; `$3` is the width of a bucket in
nanoseconds.
-/

namespace PoolIndexer.View

def lines (xs : List String) : String := "\n".intercalate xs

/-- The last depths of each pool and bucket, out of rows timed by the column `time`. -/
def depthSelect (source time : String) : String :=
  lines
    ["SELECT DISTINCT ON (b, pool) b, pool, asset_e8, rune_e8, synth_e8",
      "FROM (SELECT " ++ time ++ " - " ++ time ++ " % $3 AS b, " ++ time ++
        " AS ts, pool, asset_e8, rune_e8, synth_e8",
      "FROM " ++ source ++ " WHERE " ++ time ++ " >= $1 AND " ++ time ++ " < $2) s",
      "ORDER BY b, pool, ts DESC"]

def swapSelect : String :=
  lines
    ["SELECT b, pool, COUNT(*)::BIGINT,",
      "COALESCE(SUM(CASE WHEN _direction IN (0, 2) THEN from_e8 ELSE 0 END), 0)::BIGINT,",
      "COALESCE(SUM(CASE WHEN _direction IN (1, 3) THEN to_e8 ELSE 0 END), 0)::BIGINT,",
      "COALESCE(SUM(liq_fee_in_rune_e8), 0)::BIGINT",
      "FROM (SELECT block_timestamp - block_timestamp % $3 AS b, pool, _direction, from_e8, " ++
        "to_e8, liq_fee_in_rune_e8",
      "FROM swap_events WHERE block_timestamp >= $1 AND block_timestamp < $2) s",
      "GROUP BY b, pool"]

def liquiditySelect : String :=
  lines
    ["SELECT b, pool, SUM(ac)::BIGINT, SUM(aa)::BIGINT, SUM(ar)::BIGINT,",
      "SUM(wc)::BIGINT, SUM(wa)::BIGINT, SUM(wr)::BIGINT",
      "FROM (",
      "SELECT block_timestamp - block_timestamp % $3 AS b, pool,",
      "1::BIGINT AS ac, asset_e8 AS aa, rune_e8 AS ar, 0::BIGINT AS wc, 0::BIGINT AS wa, " ++
        "0::BIGINT AS wr",
      "FROM add_liquidity_events WHERE block_timestamp >= $1 AND block_timestamp < $2",
      "UNION ALL",
      "SELECT block_timestamp - block_timestamp % $3, pool,",
      "0, 0, 0, 1, emit_asset_e8, emit_rune_e8",
      "FROM withdraw_events WHERE block_timestamp >= $1 AND block_timestamp < $2",
      ") s",
      "GROUP BY b, pool"]

/-- The sums over the narrower view. -/
def sumSelect (columns : List String) (source : String) : String :=
  lines
    ["SELECT bucket_start - bucket_start % $3 AS b, pool, " ++
        ", ".intercalate (columns.map fun c => "SUM(" ++ c ++ ")::BIGINT"),
      "FROM " ++ source ++ " WHERE bucket_start >= $1 AND bucket_start < $2",
      "GROUP BY b, pool"]

def select (v : View) : String :=
  match v.metric, v.source? with
  | .depths, none => depthSelect "block_pool_depths" "block_timestamp"
  | .depths, some source => depthSelect source.table "bucket_start"
  | .swaps, none => swapSelect
  | .liquidity, none => liquiditySelect
  | metric, some source => sumSelect metric.columns source.table

def refreshSql (v : View) : String :=
  lines
    ["INSERT INTO " ++ v.table ++ " (bucket_start, pool, " ++ ", ".intercalate v.metric.columns ++
        ")",
      v.select,
      "ON CONFLICT (bucket_start, pool) DO UPDATE SET " ++
        ", ".intercalate (v.metric.columns.map fun c => c ++ " = EXCLUDED." ++ c)]

def ddl (v : View) : String :=
  "CREATE TABLE IF NOT EXISTS " ++ v.table ++
    " (\n    bucket_start BIGINT NOT NULL,\n    pool TEXT NOT NULL,\n" ++
    ",\n".intercalate (v.metric.columns.map fun c => "    " ++ c ++ " BIGINT NOT NULL") ++
    ",\n    PRIMARY KEY (bucket_start, pool)\n);\n"

def watermarkDdl : String :=
  "CREATE TABLE IF NOT EXISTS aggregate_watermarks (\n    view TEXT PRIMARY KEY,\n" ++
    "    watermark BIGINT NOT NULL\n);\n"

end PoolIndexer.View
