import PoolIndexer.Block.Basic
import PoolIndexer.Exchange
import PoolIndexer.Fault

/-!
# Chain.Node — where new blocks come from

A node knows the height of its chain and hands out ranges of blocks.  Nothing is assumed about its
answers: they may change from one request to the next, and blocks may be missing.
-/

namespace PoolIndexer

/-- Why a request has no answer. -/
inductive NoAnswer where
  | overflow (o : Overflow)
  | error (e : ChainError)
  /-- The request stays open. -/
  | silence
  deriving DecidableEq

structure Node (σ : Type) where
  head : Exchange NoAnswer σ Int64
  /-- The blocks from one height up to another. -/
  blocks : Int64 → Int64 → Exchange NoAnswer σ (List Block)

namespace Node

/-- The heights from one up to another. -/
def heights (low high : Int64) : List Int64 :=
  (List.range (high.toInt - low.toInt + 1).toNat).map fun (i : Nat) => Int64.ofInt (low.toInt + i)

end Node

end PoolIndexer
