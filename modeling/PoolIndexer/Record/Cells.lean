import PoolIndexer.Event.Typed
import PoolIndexer.Table.Value

/-!
# Record.Cells — the fields of an event under the names of their columns

The cells of an event stand in the order of its table.  Rewards and slashes spread over several
rows, so their cells leave the entries out.
-/

namespace PoolIndexer

/-- A column name and what stands in it. -/
abbrev Cell := String × Value

namespace Inbound

def cells (i : Inbound) : List Cell :=
  [("tx", .text i.tx), ("chain", .text i.chain), ("from_addr", .text i.sender),
    ("to_addr", .text i.recipient)]

def memoCell (i : Inbound) : Cell := ("memo", .text i.memo)

end Inbound

def Coin.cells (c : Coin) : List Cell := [("asset", .text c.asset), ("asset_e8", .bigint c.e8)]

def Deposit.assetCells (d : Deposit) : List Cell :=
  [("pool", .text d.pool), ("asset_tx", .text d.assetTx), ("asset_chain", .text d.assetChain),
    ("asset_addr", .text d.assetAddr), ("asset_e8", .bigint d.assetE8)]

def Deposit.runeCells (d : Deposit) : List Cell :=
  [("rune_tx", .text d.runeTx), ("rune_addr", .text d.runeAddr), ("rune_e8", .bigint d.runeE8)]

def Depths.cells (d : Depths) : List Cell :=
  [("asset_e8", .bigint d.assetE8), ("rune_e8", .bigint d.runeE8), ("synth_e8", .bigint d.synthE8)]

def Slash.entryCells (pool : String) (c : Coin) : List Cell := ("pool", .text pool) :: c.cells

def Rewards.entryCells (entry : String × Int64) : List Cell :=
  [("pool", .text entry.1), ("rune_e8", .bigint entry.2)]

namespace Event

def cells : Event → List Cell
  | .add e =>
    e.inbound.cells ++ [("asset", .text e.asset), ("asset_e8", .bigint e.assetE8),
      ("rune_e8", .bigint e.runeE8), e.inbound.memoCell, ("pool", .text e.pool)]
  | .addLiquidity e =>
    e.deposit.assetCells ++ ("stake_units", .bigint e.units) :: e.deposit.runeCells
  | .pendingLiquidity e =>
    e.deposit.assetCells ++ e.deposit.runeCells ++ [("pending_type", .text e.pendingType)]
  | .withdraw e =>
    e.inbound.cells ++ e.coin.cells ++ [("emit_asset_e8", .bigint e.emitAssetE8),
      ("emit_rune_e8", .bigint e.emitRuneE8), e.inbound.memoCell, ("pool", .text e.pool),
      ("stake_units", .bigint e.units), ("basis_points", .bigint e.basisPoints),
      ("asymmetry", .text e.asymmetry), ("imp_loss_protection_e8", .bigint e.protectionE8)]
  | .swap e =>
    e.inbound.cells ++ [("from_asset", .text e.source.asset), ("from_e8", .bigint e.source.e8),
      ("to_asset", .text e.target.asset), ("to_e8", .bigint e.target.e8), e.inbound.memoCell,
      ("pool", .text e.pool), ("to_e8_min", .bigint e.targetMin),
      ("swap_slip_bp", .bigint e.slipBp), ("liq_fee_e8", .bigint e.feeE8),
      ("liq_fee_in_rune_e8", .bigint e.feeInRuneE8)]
  | .fee e => ("tx", .text e.tx) :: e.coin.cells ++ [("pool_deduct", .bigint e.poolDeduct)]
  | .gas e =>
    [("asset", .text e.asset), ("asset_e8", .bigint e.assetE8), ("rune_e8", .bigint e.runeE8),
      ("tx_count", .bigint e.txCount)]
  | .refund e =>
    e.inbound.cells ++ e.first.cells ++ [("asset_2nd", .text e.second.asset),
      ("asset_2nd_e8", .bigint e.second.e8), e.inbound.memoCell, ("code", .bigint e.code),
      ("reason", .text e.reason)]
  | .outbound e => e.inbound.cells ++ e.coin.cells ++ [e.inbound.memoCell, ("in_tx", .text e.inTx)]
  | .errata e =>
    [("in_tx", .text e.inTx), ("asset", .text e.asset), ("asset_e8", .bigint e.assetE8),
      ("rune_e8", .bigint e.runeE8)]
  | .balanceChange e =>
    [("asset", .text e.asset), ("rune_e8", .bigint e.runeE8), ("asset_e8", .bigint e.assetE8),
      ("reason", .text e.reason)]
  | .pool e => [("asset", .text e.asset), ("status", .text e.status)]
  | .rewards e => [("bond_e8", .bigint e.bondE8)]
  | .slash e => [("pool", .text e.pool)]
  | .reserve e =>
    e.inbound.cells ++ e.coin.cells ++ [e.inbound.memoCell, ("addr", .text e.contributor),
      ("e8", .bigint e.e8)]
  | .bond e =>
    e.inbound.cells ++ e.coin.cells ++ [e.inbound.memoCell, ("bond_type", .text e.bondType),
      ("e8", .bigint e.e8)]
  | .newNode node => [("node_addr", .text node)]
  | .nodeStatus e =>
    [("node_addr", .text e.node), ("former", .text e.former), ("current", .text e.current)]
  | .nodeKeys e =>
    [("node_addr", .text e.node), ("secp256k1", .text e.secp256k1), ("ed25519", .text e.ed25519),
      ("validator_consensus", .text e.consensus)]
  | .nodeVersion e => [("node_addr", .text e.node), ("version", .text e.version)]
  | .leaveRequest e =>
    [("tx", .text e.tx), ("from_addr", .text e.sender), ("node_addr", .text e.node)]
  | .transfer e =>
    [("from_addr", .text e.sender), ("to_addr", .text e.recipient), ("asset", .text e.coin.asset),
      ("amount_e8", .bigint e.coin.e8)]
  | .switch e =>
    [("tx", .text e.tx), ("from_addr", .text e.sender), ("to_addr", .text e.recipient),
      ("burn_asset", .text e.burn.asset), ("burn_e8", .bigint e.burn.e8),
      ("mint_e8", .bigint e.mintE8)]
  | .loanOpen e =>
    [("owner", .text e.owner), ("collateral_asset", .text e.collateral.asset),
      ("collateral_deposited_e8", .bigint e.collateral.e8),
      ("debt_issued_tor_e8", .bigint e.debtE8), ("collateralization_ratio", .bigint e.ratio),
      ("target_asset", .text e.targetAsset)]
  | .loanRepayment e =>
    [("owner", .text e.owner), ("collateral_asset", .text e.collateral.asset),
      ("collateral_withdrawn_e8", .bigint e.collateral.e8),
      ("debt_repaid_tor_e8", .bigint e.debtE8)]
  | .mintBurn e =>
    [("supply", .text e.supply), ("denom", .text e.denom), ("amount_e8", .bigint e.amountE8),
      ("reason", .text e.reason)]
  | .mimir e => [("key", .text e.key), ("value", .text e.value)]
  | .depthOverride e =>
    ("pool", .text e.pool) :: e.depths.cells ++ [("reason", .text e.reason)]

end Event

end PoolIndexer
