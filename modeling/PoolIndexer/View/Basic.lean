import PoolIndexer.Checked

/-!
# View.Basic — the rollups: a metric in buckets of time

Each metric is kept at three widths.  The narrowest view reads the event tables, the two wider ones
read the narrowest, so a view comes after the one it reads.
-/

namespace PoolIndexer

inductive Bucket where
  | fiveMin
  | hour
  | day
  deriving DecidableEq

namespace Bucket

def all : List Bucket := [.fiveMin, .hour, .day]

def seconds : Bucket → Nat
  | .fiveMin => 300
  | .hour => 3600
  | .day => 86400

/-- The width in nanoseconds. -/
def nanos (b : Bucket) : Int64 := Int64.ofNat (b.seconds * 1000000000)

def suffix : Bucket → String
  | .fiveMin => "5min"
  | .hour => "hour"
  | .day => "day"

/-- The beginning of the bucket that `t` lies in. -/
def floor (b : Bucket) (t : Int64) : Except Overflow Int64 :=
  Checked.sub t (Int64.ofInt (t.toInt % b.nanos.toInt))

end Bucket

inductive Metric where
  /-- The last depths of each pool. -/
  | depths
  /-- Counts, volumes and fees of swaps. -/
  | swaps
  /-- Liquidity added and withdrawn. -/
  | liquidity
  deriving DecidableEq

namespace Metric

def all : List Metric := [.depths, .swaps, .liquidity]

def name : Metric → String
  | .depths => "depths"
  | .swaps => "swaps"
  | .liquidity => "liquidity"

def columns : Metric → List String
  | .depths => ["asset_e8", "rune_e8", "synth_e8"]
  | .swaps => ["swap_count", "rune_in_volume_e8", "rune_out_volume_e8", "liq_fee_in_rune_e8"]
  | .liquidity =>
    ["add_count", "add_asset_e8", "add_rune_e8", "withdraw_count", "withdraw_asset_e8",
      "withdraw_rune_e8"]

end Metric

structure View where
  metric : Metric
  bucket : Bucket
  deriving DecidableEq

namespace View

/-- All views, the source of each before it. -/
def all : List View := Bucket.all.flatMap fun b => Metric.all.map fun m => ⟨m, b⟩

def name (v : View) : String := v.metric.name ++ "_" ++ v.bucket.suffix

def table (v : View) : String := "agg_" ++ v.name

/-- The view that this one reads; nothing if it reads event tables. -/
def source? (v : View) : Option View :=
  match v.bucket with
  | .fiveMin => none
  | .hour | .day => some ⟨v.metric, .fiveMin⟩

end View

end PoolIndexer
