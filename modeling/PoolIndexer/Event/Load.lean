import PoolIndexer.Asset
import PoolIndexer.Event.Attributes
import PoolIndexer.Event.Typed

/-!
# Event.Load — a typed event out of its attributes

Every kind reads a fixed set of attributes in a fixed order, so the first attribute that is missing
or malformed is the one reported.  Sums of coins and negated amounts are checked.
-/

namespace PoolIndexer

inductive LoadError where
  | attribute (e : AttributeError)
  | overflow (o : Overflow)
  deriving DecidableEq

instance : MonadLift (Except AttributeError) (Except LoadError) where
  monadLift
    | .ok a => .ok a
    | .error e => .error (.attribute e)

instance : MonadLift (Except Overflow) (Except LoadError) where
  monadLift
    | .ok a => .ok a
    | .error o => .error (.overflow o)

namespace Event

/-! ### The transaction behind an event -/

/-- The coins sent with the transaction; none if the attribute is absent. -/
def inboundCoins (as : Attributes) : Except AttributeError (List Coin) :=
  if (as.get? "coin").isSome then as.coins "coin" else .ok []

def inbound (as : Attributes) : Inbound where
  tx := as.getOrEmpty "id"
  chain := as.getOrEmpty "chain"
  sender := as.getOrEmpty "from"
  recipient := as.getOrEmpty "to"
  memo := as.getOrEmpty "memo"

def coinAt (i : Nat) (coins : List Coin) : Coin := coins[i]?.getD Coin.none

/-! ### Liquidity -/

/-- The sums of an addition: the asset side names its last asset. -/
structure Sums where
  asset : String
  assetE8 : Int64
  runeE8 : Int64

def Sums.push (natives : NativeNames) (s : Sums) (c : Coin) : Except Overflow Sums :=
  if natives.contains c.asset then
    (Checked.add s.runeE8 c.e8).map fun r => { s with runeE8 := r }
  else (Checked.add s.assetE8 c.e8).map fun a => { s with asset := c.asset, assetE8 := a }

def loadAdd (natives : NativeNames) (as : Attributes) : Except LoadError Add := do
  let coins ← inboundCoins as
  let pool ← as.get "pool"
  let sums ← (coins.foldlM (Sums.push natives) ⟨"", 0, 0⟩ : Except Overflow Sums)
  pure ⟨inbound as, sums.asset, sums.assetE8, sums.runeE8, pool⟩

/-- The transaction ids of the two sides; the chain `THOR` names the rune side. -/
structure TxIds where
  runeTx : String
  assetTx : String
  assetChain : String

def stripTail (tail cs : List Char) : Option (List Char) :=
  if tail.isSuffixOf cs then some (cs.take (cs.length - tail.length)) else none

def TxIds.push (ids : TxIds) (pair : String × String) : TxIds :=
  match stripTail "_txid".toList pair.1.toList with
  | none => ids
  | some chain =>
    let chain := String.ofList chain
    if Asset.sameName chain "THOR" then { ids with runeTx := pair.2 }
    else { ids with assetTx := pair.2, assetChain := chain }

def txIds (as : Attributes) : TxIds := as.pairs.foldl TxIds.push ⟨"", "", ""⟩

def loadDeposit (as : Attributes) : Except AttributeError Deposit := do
  let ids := txIds as
  let pool ← as.get "pool"
  let assetE8 ← as.intOrZero "asset_amount"
  let runeE8 ← as.intOrZero "rune_amount"
  pure ⟨pool, ids.assetTx, ids.assetChain, as.getOrEmpty "asset_address", assetE8,
    ids.runeTx, as.getOrEmpty "rune_address", runeE8⟩

def loadAddLiquidity (as : Attributes) : Except AttributeError AddLiquidity := do
  let deposit ← loadDeposit as
  let units ← as.int "liquidity_provider_units"
  pure ⟨deposit, units⟩

def loadPending (as : Attributes) : Except AttributeError PendingLiquidity := do
  let deposit ← loadDeposit as
  pure ⟨deposit, as.getOrEmpty "type"⟩

def loadWithdraw (as : Attributes) : Except AttributeError Withdraw := do
  let coins ← inboundCoins as
  let emitAssetE8 ← as.intOrZero "emit_asset"
  let emitRuneE8 ← as.intOrZero "emit_rune"
  let pool ← as.get "pool"
  let units ← as.int "liquidity_provider_units"
  let basisPoints ← as.intOrZero "basis_points"
  let protectionE8 ← as.intOrZero "imp_loss_protection"
  pure ⟨inbound as, coinAt 0 coins, emitAssetE8, emitRuneE8, pool, units, basisPoints,
    as.getOrEmpty "asymmetry", protectionE8⟩

/-! ### Swaps, fees and payments -/

def loadSwap (as : Attributes) : Except AttributeError Swap := do
  let coins ← inboundCoins as
  match coins with
  | [] => .error (.invalid as.kind "swap without an input coin")
  | source :: _ =>
    let target ← as.coin "emit_asset"
    let pool ← as.get "pool"
    let targetMin ← as.intOrZero "swap_target"
    let slipBp ← as.intOrZero "swap_slip"
    let feeE8 ← as.intOrZero "liquidity_fee"
    let feeInRuneE8 ← as.intOrZero "liquidity_fee_in_rune"
    pure ⟨inbound as, source, target, pool, targetMin, slipBp, feeE8, feeInRuneE8⟩

def loadFee (as : Attributes) : Except AttributeError Fee := do
  let coins ← as.coins "coins"
  match coins with
  | [] => .error (.invalid as.kind "fee without a coin")
  | coin :: _ =>
    let poolDeduct ← as.intOrZero "pool_deduct"
    pure ⟨as.getOrEmpty "tx_id", coin, poolDeduct⟩

def loadGas (as : Attributes) : Except AttributeError Gas := do
  let asset ← as.get "asset"
  let assetE8 ← as.int "asset_amt"
  let runeE8 ← as.int "rune_amt"
  let txCount ← as.intOrZero "transaction_count"
  pure ⟨asset, assetE8, runeE8, txCount⟩

def loadRefund (as : Attributes) : Except AttributeError Refund := do
  let coins ← inboundCoins as
  let code ← as.intOrZero "code"
  pure ⟨inbound as, coinAt 0 coins, coinAt 1 coins, code, as.getOrEmpty "reason"⟩

def loadOutbound (as : Attributes) : Except AttributeError Outbound := do
  let coins ← inboundCoins as
  let inTx ← as.get "in_tx_id"
  pure ⟨inbound as, coinAt 0 coins, inTx⟩

/-! ### Corrections issued by the chain -/

/-- An amount with a flag for its sign; without the flag it is added. -/
def signed (as : Attributes) (amountKey addKey : String) : Except LoadError Int64 := do
  let amount ← as.intOrZero amountKey
  if (as.get? addKey).isNone then pure amount
  else
    let isAdded ← as.bool addKey
    if isAdded then pure amount else Checked.neg amount

def loadErrata (as : Attributes) : Except LoadError Errata := do
  let asset ← as.get "asset"
  let assetE8 ← signed as "asset_amt" "asset_add"
  let runeE8 ← signed as "rune_amt" "rune_add"
  pure ⟨as.getOrEmpty "in_tx_id", asset, assetE8, runeE8⟩

def loadBalanceChange (as : Attributes) : Except LoadError BalanceChange := do
  let asset ← as.get "asset"
  let runeE8 ← signed as "rune_amt" "rune_add"
  let assetE8 ← signed as "asset_amt" "asset_add"
  pure ⟨asset, runeE8, assetE8, as.getOrEmpty "reason"⟩

def loadPool (as : Attributes) : Except AttributeError PoolStatus := do
  let asset ← as.get "pool"
  let status ← as.get "pool_status"
  pure ⟨asset, status⟩

/-! ### Rewards and slashes: every key but one is an entry -/

def entries (as : Attributes) (otherKey : String) : Except AttributeError (List (String × Int64)) :=
  (as.pairs.filter fun (k, _) => k != otherKey).mapM fun (k, v) =>
    (as.readInt k v).map fun n => (k, n)

def loadRewards (as : Attributes) : Except AttributeError Rewards := do
  let perPool ← entries as "bond_reward"
  let bondE8 ← as.intOrZero "bond_reward"
  pure ⟨bondE8, perPool⟩

def loadSlash (as : Attributes) : Except AttributeError Slash := do
  let amounts ← entries as "pool"
  let pool ← as.get "pool"
  pure ⟨pool, amounts.map fun (k, n) => ⟨k, n⟩⟩

/-! ### Reserve, bonds and nodes -/

def loadReserve (as : Attributes) : Except AttributeError Reserve := do
  let coins ← inboundCoins as
  let contributor ← as.get "contributor_address"
  let e8 ← as.int "amount"
  pure ⟨inbound as, coinAt 0 coins, contributor, e8⟩

def loadBond (as : Attributes) : Except AttributeError Bond := do
  let coins ← inboundCoins as
  let bondType ← as.get "bond_type"
  let e8 ← as.int "amount"
  pure ⟨inbound as, coinAt 0 coins, bondType, e8⟩

def loadNodeStatus (as : Attributes) : Except AttributeError NodeStatus := do
  let node ← as.firstOf "Address" "address"
  let former ← as.firstOf "Former" "former"
  let current ← as.firstOf "Current" "current"
  pure ⟨node, former, current⟩

def loadNodeKeys (as : Attributes) : Except AttributeError NodeKeys := do
  let node ← as.get "node_address"
  pure ⟨node, as.getOrEmpty "node_secp256k1_pubkey", as.getOrEmpty "node_ed25519_pubkey",
    as.getOrEmpty "validator_consensus_pub_key"⟩

def loadNodeVersion (as : Attributes) : Except AttributeError NodeVersion := do
  let node ← as.get "node_address"
  let version ← as.get "version"
  pure ⟨node, version⟩

def loadLeaveRequest (as : Attributes) : Except AttributeError LeaveRequest := do
  let node ← as.get "node address"
  pure ⟨as.getOrEmpty "tx", as.getOrEmpty "signer bnb address", node⟩

/-! ### Bank, loans and settings -/

def loadTransfer (natives : NativeNames) (as : Attributes) : Except AttributeError Transfer := do
  let amount ← as.get "amount"
  match Coin.parseDenom? amount with
  | none => .error (.notCoin as.kind "amount" amount)
  | some (e8, denom) =>
    let sender ← as.get "sender"
    let recipient ← as.get "recipient"
    pure ⟨sender, recipient, ⟨natives.ofDenom denom, e8⟩⟩

def loadSwitch (as : Attributes) : Except AttributeError Switch := do
  let burn ← as.coin "burn"
  let sender ← as.get "from"
  let recipient ← as.get "to"
  pure ⟨as.getOrEmpty "txid", sender, recipient, burn, burn.e8⟩

def loadLoanOpen (as : Attributes) : Except AttributeError LoanOpen := do
  let owner ← as.get "owner"
  let asset ← as.get "collateral_asset"
  let deposited ← as.int "collateral_deposited"
  let debtE8 ← as.int "debt_issued"
  let ratio ← as.intOrZero "collateralization_ratio"
  pure ⟨owner, ⟨asset, deposited⟩, debtE8, ratio, as.getOrEmpty "target_asset"⟩

def loadLoanRepayment (as : Attributes) : Except AttributeError LoanRepayment := do
  let owner ← as.get "owner"
  let asset ← as.get "collateral_asset"
  let withdrawn ← as.int "collateral_withdrawn"
  let debtE8 ← as.int "debt_repaid"
  pure ⟨owner, ⟨asset, withdrawn⟩, debtE8⟩

def loadMintBurn (as : Attributes) : Except AttributeError MintBurn := do
  let supply ← as.get "supply"
  let denom ← as.get "denom"
  let amountE8 ← as.int "amount"
  pure ⟨supply, denom, amountE8, as.getOrEmpty "reason"⟩

def loadMimir (as : Attributes) : Except AttributeError Mimir := do
  let key ← as.get "key"
  let value ← as.get "value"
  pure ⟨key, value⟩

/-! ### All kinds -/

def reading (wrap : α → Event) (x : Except AttributeError α) : Except LoadError (Option Event) :=
  match x with
  | .ok a => .ok (some (wrap a))
  | .error e => .error (.attribute e)

def checking (wrap : α → Event) (x : Except LoadError α) : Except LoadError (Option Event) :=
  x.map fun a => some (wrap a)

/-- What cannot overflow is wrapped as what can. -/
theorem reading_eq_checking (wrap : α → Event) (x : Except AttributeError α) :
    reading wrap x = checking wrap (liftM x) := by
  cases x <;> rfl

/-- The typed event; nothing if the kind is not one that is recorded. -/
def load (natives : NativeNames) (as : Attributes) : Except LoadError (Option Event) :=
  match as.kind with
  | "add" => checking .add (loadAdd natives as)
  | "add_liquidity" => reading .addLiquidity (loadAddLiquidity as)
  | "pending_liquidity" => reading .pendingLiquidity (loadPending as)
  | "withdraw" => reading .withdraw (loadWithdraw as)
  | "swap" => reading .swap (loadSwap as)
  | "fee" => reading .fee (loadFee as)
  | "gas" => reading .gas (loadGas as)
  | "refund" => reading .refund (loadRefund as)
  | "outbound" => reading .outbound (loadOutbound as)
  | "errata" => checking .errata (loadErrata as)
  | "pool_balance_change" => checking .balanceChange (loadBalanceChange as)
  | "pool" => reading .pool (loadPool as)
  | "rewards" => reading .rewards (loadRewards as)
  | "slash" => reading .slash (loadSlash as)
  | "reserve" => reading .reserve (loadReserve as)
  | "bond" => reading .bond (loadBond as)
  | "new_node" => reading .newNode (as.get "address")
  | "update_node_account_status" | "UpdateNodeAccountStatus" =>
    reading .nodeStatus (loadNodeStatus as)
  | "set_node_keys" => reading .nodeKeys (loadNodeKeys as)
  | "set_version" => reading .nodeVersion (loadNodeVersion as)
  | "validator_request_leave" => reading .leaveRequest (loadLeaveRequest as)
  | "transfer" => reading .transfer (loadTransfer natives as)
  | "switch" => reading .switch (loadSwitch as)
  | "loan_open" => reading .loanOpen (loadLoanOpen as)
  | "loan_repayment" => reading .loanRepayment (loadLoanRepayment as)
  | "mint_burn" => reading .mintBurn (loadMintBurn as)
  | "set_mimir" => reading .mimir (loadMimir as)
  | _ => .ok none

end Event

end PoolIndexer
