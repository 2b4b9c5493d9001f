import PoolIndexer.Event.Raw
import PoolIndexer.Instant
import PoolIndexer.Text.Hex

/-!
# Block.Basic — one block in its three phases
-/

namespace PoolIndexer

/-- The outcome of one transaction; a code other than zero means that it failed. -/
structure TxResult where
  code : UInt32
  events : List RawEvent
  deriving DecidableEq

def TxResult.succeeded (t : TxResult) : Bool := t.code == 0

structure Block where
  height : Int64
  timestamp : Instant
  hash : List UInt8
  beginEvents : List RawEvent
  txs : List TxResult
  endEvents : List RawEvent
  deriving DecidableEq

namespace Block

def nanos (b : Block) : Int64 := b.timestamp.nanos

def hashHex (b : Block) : String := Text.Hex.upper b.hash

end Block

end PoolIndexer
