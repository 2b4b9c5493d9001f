import PoolIndexer.Coin

/-!
# Event.Typed — the events that are recorded

One constructor per kind.  A kind holds what its row needs and what moves a pool; amounts are in
units of `10⁻⁸`.
-/

namespace PoolIndexer

/-- The transaction that caused an event. -/
structure Inbound where
  tx : String
  chain : String
  sender : String
  recipient : String
  memo : String
  deriving DecidableEq

/-- Liquidity given to a pool without units in return. -/
structure Add where
  inbound : Inbound
  asset : String
  assetE8 : Int64
  runeE8 : Int64
  pool : String
  deriving DecidableEq

/-- The two sides of a deposit. -/
structure Deposit where
  pool : String
  assetTx : String
  assetChain : String
  assetAddr : String
  assetE8 : Int64
  runeTx : String
  runeAddr : String
  runeE8 : Int64
  deriving DecidableEq

structure AddLiquidity where
  deposit : Deposit
  units : Int64
  deriving DecidableEq

/-- One side of a deposit that waits for the other. -/
structure PendingLiquidity where
  deposit : Deposit
  pendingType : String
  deriving DecidableEq

structure Withdraw where
  inbound : Inbound
  /-- The coin that was sent to ask for the withdrawal. -/
  coin : Coin
  emitAssetE8 : Int64
  emitRuneE8 : Int64
  pool : String
  units : Int64
  basisPoints : Int64
  asymmetry : String
  protectionE8 : Int64
  deriving DecidableEq

structure Swap where
  inbound : Inbound
  source : Coin
  target : Coin
  pool : String
  targetMin : Int64
  slipBp : Int64
  feeE8 : Int64
  feeInRuneE8 : Int64
  deriving DecidableEq

structure Fee where
  tx : String
  coin : Coin
  poolDeduct : Int64
  deriving DecidableEq

/-- Gas that the reserve pays back to a pool. -/
structure Gas where
  asset : String
  assetE8 : Int64
  runeE8 : Int64
  txCount : Int64
  deriving DecidableEq

structure Refund where
  inbound : Inbound
  first : Coin
  second : Coin
  code : Int64
  reason : String
  deriving DecidableEq

structure Outbound where
  inbound : Inbound
  coin : Coin
  inTx : String
  deriving DecidableEq

/-- A correction of the depths of a pool that the chain itself issues. -/
structure Errata where
  inTx : String
  asset : String
  assetE8 : Int64
  runeE8 : Int64
  deriving DecidableEq

structure BalanceChange where
  asset : String
  runeE8 : Int64
  assetE8 : Int64
  reason : String
  deriving DecidableEq

structure PoolStatus where
  asset : String
  status : String
  deriving DecidableEq

/-- What the bond and each pool receive. -/
structure Rewards where
  bondE8 : Int64
  perPool : List (String × Int64)
  deriving DecidableEq

/-- Signed amounts taken from one pool. -/
structure Slash where
  pool : String
  amounts : List Coin
  deriving DecidableEq

structure Reserve where
  inbound : Inbound
  coin : Coin
  contributor : String
  e8 : Int64
  deriving DecidableEq

structure Bond where
  inbound : Inbound
  coin : Coin
  bondType : String
  e8 : Int64
  deriving DecidableEq

structure NodeStatus where
  node : String
  former : String
  current : String
  deriving DecidableEq

structure NodeKeys where
  node : String
  secp256k1 : String
  ed25519 : String
  consensus : String
  deriving DecidableEq

structure NodeVersion where
  node : String
  version : String
  deriving DecidableEq

structure LeaveRequest where
  tx : String
  sender : String
  node : String
  deriving DecidableEq

structure Transfer where
  sender : String
  recipient : String
  coin : Coin
  deriving DecidableEq

/-- An old form of the native unit exchanged for the native unit. -/
structure Switch where
  tx : String
  sender : String
  recipient : String
  burn : Coin
  mintE8 : Int64
  deriving DecidableEq

structure LoanOpen where
  owner : String
  collateral : Coin
  debtE8 : Int64
  ratio : Int64
  targetAsset : String
  deriving DecidableEq

structure LoanRepayment where
  owner : String
  collateral : Coin
  debtE8 : Int64
  deriving DecidableEq

structure MintBurn where
  supply : String
  denom : String
  amountE8 : Int64
  reason : String
  deriving DecidableEq

structure Mimir where
  key : String
  value : String
  deriving DecidableEq

/-- The three ledgers of one pool. -/
structure Depths where
  assetE8 : Int64
  runeE8 : Int64
  synthE8 : Int64
  deriving DecidableEq

def Depths.zero : Depths := ⟨0, 0, 0⟩

/-- An authoritative reset of the depths of a pool; only corrections issue it. -/
structure DepthOverride where
  pool : String
  depths : Depths
  reason : String
  deriving DecidableEq

inductive Event where
  | add (e : Add)
  | addLiquidity (e : AddLiquidity)
  | pendingLiquidity (e : PendingLiquidity)
  | withdraw (e : Withdraw)
  | swap (e : Swap)
  | fee (e : Fee)
  | gas (e : Gas)
  | refund (e : Refund)
  | outbound (e : Outbound)
  | errata (e : Errata)
  | balanceChange (e : BalanceChange)
  | pool (e : PoolStatus)
  | rewards (e : Rewards)
  | slash (e : Slash)
  | reserve (e : Reserve)
  | bond (e : Bond)
  | newNode (node : String)
  | nodeStatus (e : NodeStatus)
  | nodeKeys (e : NodeKeys)
  | nodeVersion (e : NodeVersion)
  | leaveRequest (e : LeaveRequest)
  | transfer (e : Transfer)
  | switch (e : Switch)
  | loanOpen (e : LoanOpen)
  | loanRepayment (e : LoanRepayment)
  | mintBurn (e : MintBurn)
  | mimir (e : Mimir)
  | depthOverride (e : DepthOverride)
  deriving DecidableEq

namespace Event

def kind : Event → String
  | .add _ => "add"
  | .addLiquidity _ => "add_liquidity"
  | .pendingLiquidity _ => "pending_liquidity"
  | .withdraw _ => "withdraw"
  | .swap _ => "swap"
  | .fee _ => "fee"
  | .gas _ => "gas"
  | .refund _ => "refund"
  | .outbound _ => "outbound"
  | .errata _ => "errata"
  | .balanceChange _ => "pool_balance_change"
  | .pool _ => "pool"
  | .rewards _ => "rewards"
  | .slash _ => "slash"
  | .reserve _ => "reserve"
  | .bond _ => "bond"
  | .newNode _ => "new_node"
  | .nodeStatus _ => "update_node_account_status"
  | .nodeKeys _ => "set_node_keys"
  | .nodeVersion _ => "set_version"
  | .leaveRequest _ => "validator_request_leave"
  | .transfer _ => "transfer"
  | .switch _ => "switch"
  | .loanOpen _ => "loan_open"
  | .loanRepayment _ => "loan_repayment"
  | .mintBurn _ => "mint_burn"
  | .mimir _ => "set_mimir"
  | .depthOverride _ => "depth_override"

/-- The pool of an event that concerns a single one. -/
def pool? : Event → Option String
  | .add e => some e.pool
  | .addLiquidity e => some e.deposit.pool
  | .pendingLiquidity e => some e.deposit.pool
  | .withdraw e => some e.pool
  | .swap e => some e.pool
  | .errata e => some e.asset
  | .balanceChange e => some e.asset
  | .pool e => some e.asset
  | .slash e => some e.pool
  | .gas e => some e.asset
  | .depthOverride e => some e.pool
  | _ => none

end Event

/-- A suspended pool is emptied; the case of the word does not matter. -/
def PoolStatus.isSuspended (e : PoolStatus) : Bool :=
  e.status.toList.map Char.toLower == "suspended".toList

end PoolIndexer
