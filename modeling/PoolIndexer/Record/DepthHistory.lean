import PoolIndexer.Record.Totals
import PoolIndexer.Store.Inserter

/-!
# Record.DepthHistory — one row for each pool whose depths have changed

The history remembers the depths it last wrote for each pool.  A pool whose row is refused stays due
until its row is taken.
-/

namespace PoolIndexer

structure DepthHistory where
  /-- The depths last written; a pool that is not among them counts as empty. -/
  last : Totals

namespace DepthHistory

/-- Starts from depths that are already stored. -/
def ofStored (stored : Totals) : DepthHistory := ⟨stored⟩

def columns : List String := ["pool", "asset_e8", "rune_e8", "synth_e8", "block_timestamp"]

def values (pool : String) (d : Depths) (timestamp : Int64) : List Value :=
  [.text pool, .bigint d.assetE8, .bigint d.runeE8, .bigint d.synthE8, .bigint timestamp]

def insertRow (pool : String) (d : Depths) (timestamp : Int64) (store : Store)
    (inserter : Inserter) : Except IndexerError Unit × Inserter :=
  inserter.insert store "block_pool_depths" columns (values pool d timestamp)

/-- What the history, the inserter and the count of rows have become. -/
structure Progress where
  history : DepthHistory
  inserter : Inserter
  written : Nat

/-- Writes the row of one pool if its depths have changed. -/
def recordPool (totals : Totals) (timestamp : Int64) (store : Store) (p : Progress)
    (pool : String) : Except IndexerError Unit × Progress :=
  let current := totals.get pool
  if current = p.history.last.get pool then (.ok (), p)
  else
    match insertRow pool current timestamp store p.inserter with
    | (.ok _, inserter) =>
      (.ok (), ⟨⟨p.history.last.set pool current⟩, inserter, p.written + 1⟩)
    | (.error e, inserter) =>
      (if e.isRowRefusal then .ok () else .error e, { p with inserter })

def recordPools (totals : Totals) (timestamp : Int64) (store : Store) :
    Progress → List String → Except IndexerError Unit × Progress
  | p, [] => (.ok (), p)
  | p, pool :: rest =>
    match recordPool totals timestamp store p pool with
    | (.ok _, p) => recordPools totals timestamp store p rest
    | (.error e, p) => (.error e, p)

/-- Writes the rows that are due after a block, pools in increasing order. -/
def record (h : DepthHistory) (totals : Totals) (timestamp : Int64) (store : Store)
    (inserter : Inserter) : Except IndexerError Unit × Progress :=
  recordPools totals timestamp store ⟨h, inserter, 0⟩ totals.pools

end DepthHistory

end PoolIndexer
