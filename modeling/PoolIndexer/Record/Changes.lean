import PoolIndexer.Event.Direction
import PoolIndexer.Record.Totals

/-!
# Record.Changes — what an event does to the depths of pools

Inflows add and outflows subtract.  The changes of an event are made in order; one that needs the
negative of the smallest amount cannot be made.
-/

namespace PoolIndexer

/-- A change, or the overflow that computing it runs into. -/
abbrev PlannedChange := Except Overflow Totals.Change

namespace PlannedChange

def inflow (ledger : LedgerName) (pool : String) (amount : Int64) : PlannedChange :=
  .ok (.add ledger pool amount)

def outflow (ledger : LedgerName) (pool : String) (amount : Int64) : PlannedChange :=
  (Checked.neg amount).map fun delta => .add ledger pool delta

def reset (pool : String) (depths : Depths) : PlannedChange := .ok (.set pool depths)

end PlannedChange

open PlannedChange

/-- A swap moves its source in and its target out; a synth that is bought is minted, one that is
sold is burnt. -/
def Swap.changes (natives : NativeNames) (e : Swap) : List PlannedChange :=
  let pool := e.settlementPool natives
  match SwapDirection.of? natives e with
  | some .runeToAsset => [inflow .rune pool e.source.e8, outflow .asset pool e.target.e8]
  | some .assetToRune => [inflow .asset pool e.source.e8, outflow .rune pool e.target.e8]
  | some .runeToSynth => [inflow .rune pool e.source.e8, inflow .synth pool e.target.e8]
  | some .synthToRune => [outflow .synth pool e.source.e8, outflow .rune pool e.target.e8]
  | none => []

/-- Where the coin goes that was sent to ask for a withdrawal. -/
def Withdraw.coinChanges (natives : NativeNames) (e : Withdraw) : List PlannedChange :=
  if natives.contains e.coin.asset then [inflow .rune e.pool e.coin.e8]
  else if e.coin.asset = e.pool then [inflow .asset e.pool e.coin.e8]
  else []

/-- Below the height `coinKeptBelow` the coin sent to ask for a withdrawal stays in the pool. -/
def Withdraw.changes (natives : NativeNames) (coinKeptBelow : Option Int64) (height : Int64)
    (e : Withdraw) : List PlannedChange :=
  let kept := match coinKeptBelow with
    | some cutover => decide (height.toInt < cutover.toInt)
    | none => false
  [outflow .asset e.pool e.emitAssetE8, outflow .rune e.pool e.emitRuneE8,
    inflow .rune e.pool e.protectionE8] ++ if kept then e.coinChanges natives else []

/-- The changes of an event in the order in which they are made. -/
def Event.changes (natives : NativeNames) (coinKeptBelow : Option Int64) (height : Int64) :
    Event → List PlannedChange
  | .add e => [inflow .asset e.pool e.assetE8, inflow .rune e.pool e.runeE8]
  | .addLiquidity e =>
    [inflow .asset e.deposit.pool e.deposit.assetE8, inflow .rune e.deposit.pool e.deposit.runeE8]
  | .swap e => e.changes natives
  | .withdraw e => e.changes natives coinKeptBelow height
  | .pool e => if e.isSuspended then [reset e.asset .zero] else []
  | .fee e =>
    if natives.contains e.coin.asset then []
    else
      let pool := Asset.pool e.coin.asset
      [inflow .asset pool e.coin.e8, outflow .rune pool e.poolDeduct]
  | .gas e => [outflow .asset e.asset e.assetE8, inflow .rune e.asset e.runeE8]
  | .errata e => [inflow .asset e.asset e.assetE8, inflow .rune e.asset e.runeE8]
  | .balanceChange e => [inflow .asset e.asset e.assetE8, inflow .rune e.asset e.runeE8]
  | .rewards e => e.perPool.map fun share => inflow .rune share.1 share.2
  | .slash e =>
    e.amounts.map fun amount =>
      inflow (if natives.contains amount.asset then .rune else .asset) e.pool amount.e8
  | .depthOverride e => [reset e.pool e.depths]
  | _ => []

namespace Totals

/-- Totals, what was reported while they changed, and the overflow that stopped the changes. -/
structure Changed where
  totals : Totals
  log : Log
  fault : Option Overflow

/-- Makes planned changes up to the first that cannot be computed. -/
def applyAll (t : Totals) : List PlannedChange → Changed
  | [] => ⟨t, [], none⟩
  | .error o :: _ => ⟨t, [], some o⟩
  | .ok c :: rest =>
    let r := (t.apply c).applyAll rest
    { r with log := (t.refusal? c).toList ++ r.log }

end Totals

end PoolIndexer
