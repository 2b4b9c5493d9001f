import PoolIndexer.Correction.Table
import PoolIndexer.Json.Reader
import PoolIndexer.Text.Decimal

/-!
# Correction.Config — corrections as a deployment states them
-/

namespace PoolIndexer

/-- Values that replace what the chain reported for withdrawals from one pool. -/
structure WithdrawOverride where
  height : Int64
  chainId : Option String
  pool : String
  /-- If given, only withdrawals from this address are meant. -/
  sender : Option String
  emitAssetE8 : Option Int64
  emitRuneE8 : Option Int64
  units : Option Int64
  deriving DecidableEq

inductive InjectedKind where
  | add
  | errata
  | depthOverride
  deriving DecidableEq

def InjectedKind.name : InjectedKind → String
  | .add => "add"
  | .errata => "errata"
  | .depthOverride => "depth_override"

def InjectedKind.ofName? : String → Option InjectedKind
  | "add" => some .add
  | "errata" => some .errata
  | "depth_override" => some .depthOverride
  | _ => none

/-- An event to be added at the end of a block. -/
structure Injection where
  height : Int64
  chainId : Option String
  kind : InjectedKind
  pool : String
  depths : Depths
  reason : String
  deriving DecidableEq

/-- What a pool held before the first block. -/
structure GenesisPool where
  pool : String
  assetE8 : Int64
  runeE8 : Int64
  deriving DecidableEq

structure CorrectionsConfig where
  /-- Below this height the coin that asks for a withdrawal stays in the pool. -/
  coinKeptHeight : Option Int64
  /-- Below this height a withdrawal of zero units is only announced. -/
  pendingCutoff : Option Int64
  overrides : List WithdrawOverride
  injected : List Injection
  genesisPools : List GenesisPool
  deriving DecidableEq

def CorrectionsConfig.none : CorrectionsConfig := ⟨.none, .none, [], [], []⟩

/-! ### From a configuration to a table -/

namespace WithdrawOverride

def concerns (o : WithdrawOverride) (w : Withdraw) : Bool :=
  w.pool = o.pool && (match o.sender with
    | some address => address = w.inbound.sender
    | none => true)

def amend (o : WithdrawOverride) (w : Withdraw) : Withdraw :=
  { w with
    emitAssetE8 := o.emitAssetE8.getD w.emitAssetE8
    emitRuneE8 := o.emitRuneE8.getD w.emitRuneE8
    units := o.units.getD w.units }

def patch (o : WithdrawOverride) : Event → Event
  | .withdraw w => .withdraw (if o.concerns w then o.amend w else w)
  | e => e

def mutation (o : WithdrawOverride) : Mutation where
  name := "withdraw override " ++ Text.Decimal.showInt64 o.height ++ " " ++ o.pool
  patch e := .ok (o.patch e, .keep)

end WithdrawOverride

/-- An addition without a transaction behind it. -/
def Add.synthetic (pool : String) (assetE8 runeE8 : Int64) (memo : String) : Add :=
  ⟨⟨"", "", "", "", memo⟩, pool, assetE8, runeE8, pool⟩

def Injection.event (i : Injection) : Event :=
  match i.kind with
  | .add => .add (Add.synthetic i.pool i.depths.assetE8 i.depths.runeE8 i.reason)
  | .errata => .errata ⟨"", i.pool, i.depths.assetE8, i.depths.runeE8⟩
  | .depthOverride => .depthOverride ⟨i.pool, i.depths, i.reason⟩

def GenesisPool.event (g : GenesisPool) : Event :=
  .add (Add.synthetic g.pool g.assetE8 g.runeE8 "genesis")

namespace CorrectionTable

def addOverride (t : CorrectionTable) (o : WithdrawOverride) : CorrectionTable :=
  t.mutate o.height o.chainId o.mutation

def addInjection (t : CorrectionTable) (i : Injection) : CorrectionTable :=
  t.inject i.height i.chainId i.event

def addGenesis (height : Int64) (t : CorrectionTable) (g : GenesisPool) : CorrectionTable :=
  t.inject height none g.event

/-- The table of one chain: the pools of the first block come before the other injections. -/
def ofConfig (c : CorrectionsConfig) (chainId : String) (natives : NativeNames)
    (genesisHeight : Option Int64) : CorrectionTable :=
  let t : CorrectionTable := { ofChain chainId natives with pendingCutoff := c.pendingCutoff }
  let t := c.overrides.foldl addOverride t
  let t :=
    match genesisHeight with
    | some height => c.genesisPools.foldl (addGenesis height) t
    | none => t
  c.injected.foldl addInjection t

end CorrectionTable

/-! ### Reading and writing -/

def optional64? (j : Option Json) : Option (Option Int64) :=
  Json.orElse (Json.optional? Json.int64?) none j

def optionalText? (j : Option Json) : Option (Option String) :=
  Json.orElse (Json.optional? Json.text?) none j

namespace WithdrawOverride

def fieldNames : List String :=
  ["height", "chain_id", "pool", "from_addr", "emit_asset_e8", "emit_rune_e8", "stake_units"]

def ofJson? (j : Json) : Option WithdrawOverride :=
  match j.fields? fieldNames with
  | some [height, chainId, pool, sender, emitAssetE8, emitRuneE8, units] => do
    let height ← Json.required Json.int64? height
    let chainId ← optionalText? chainId
    let pool ← Json.required Json.text? pool
    let sender ← optionalText? sender
    let emitAssetE8 ← optional64? emitAssetE8
    let emitRuneE8 ← optional64? emitRuneE8
    let units ← optional64? units
    pure ⟨height, chainId, pool, sender, emitAssetE8, emitRuneE8, units⟩
  | _ => none

def toJson (o : WithdrawOverride) : Json :=
  .record [("height", .int64 o.height), ("chain_id", .ofOption .text o.chainId),
    ("pool", .text o.pool), ("from_addr", .ofOption .text o.sender),
    ("emit_asset_e8", .ofOption .int64 o.emitAssetE8),
    ("emit_rune_e8", .ofOption .int64 o.emitRuneE8), ("stake_units", .ofOption .int64 o.units)]

end WithdrawOverride

/-- The name alone, or as the one field of an object whose value is null. -/
def InjectedKind.ofJson? : Json → Option InjectedKind
  | .string (some s) => ofName? s
  | .object [(some s, .null)] => ofName? s
  | _ => none

namespace Injection

def fieldNames : List String :=
  ["height", "chain_id", "kind", "pool", "asset_e8", "rune_e8", "synth_e8", "reason"]

def ofJson? (j : Json) : Option Injection :=
  match j.fields? fieldNames with
  | some [height, chainId, kind, pool, assetE8, runeE8, synthE8, reason] => do
    let height ← Json.required Json.int64? height
    let chainId ← optionalText? chainId
    let kind ← Json.required InjectedKind.ofJson? kind
    let pool ← Json.required Json.text? pool
    let assetE8 ← Json.orElse Json.int64? 0 assetE8
    let runeE8 ← Json.orElse Json.int64? 0 runeE8
    let synthE8 ← Json.orElse Json.int64? 0 synthE8
    let reason ← Json.orElse Json.text? "" reason
    pure ⟨height, chainId, kind, pool, ⟨assetE8, runeE8, synthE8⟩, reason⟩
  | _ => none

def toJson (i : Injection) : Json :=
  .record [("height", .int64 i.height), ("chain_id", .ofOption .text i.chainId),
    ("kind", .text i.kind.name), ("pool", .text i.pool), ("asset_e8", .int64 i.depths.assetE8),
    ("rune_e8", .int64 i.depths.runeE8), ("synth_e8", .int64 i.depths.synthE8),
    ("reason", .text i.reason)]

end Injection

namespace GenesisPool

def ofJson? (j : Json) : Option GenesisPool :=
  match j.fields? ["pool", "asset_e8", "rune_e8"] with
  | some [pool, assetE8, runeE8] => do
    let pool ← Json.required Json.text? pool
    let assetE8 ← Json.required Json.int64? assetE8
    let runeE8 ← Json.required Json.int64? runeE8
    pure ⟨pool, assetE8, runeE8⟩
  | _ => none

def toJson (g : GenesisPool) : Json :=
  .record [("pool", .text g.pool), ("asset_e8", .int64 g.assetE8), ("rune_e8", .int64 g.runeE8)]

end GenesisPool

namespace CorrectionsConfig

def fieldNames : List String :=
  ["withdraw_coin_kept_height", "withdraw_pending_cutoff_height", "withdraw_overrides", "injected",
    "genesis_pools"]

def ofJson? (j : Json) : Option CorrectionsConfig :=
  match j.fields? fieldNames with
  | some [coinKept, cutoff, overrides, injected, genesisPools] => do
    let coinKept ← optional64? coinKept
    let cutoff ← optional64? cutoff
    let overrides ← Json.orElse (Json.list? WithdrawOverride.ofJson?) [] overrides
    let injected ← Json.orElse (Json.list? Injection.ofJson?) [] injected
    let genesisPools ← Json.orElse (Json.list? GenesisPool.ofJson?) [] genesisPools
    pure ⟨coinKept, cutoff, overrides, injected, genesisPools⟩
  | _ => Option.none

def toJson (c : CorrectionsConfig) : Json :=
  .record [("withdraw_coin_kept_height", .ofOption .int64 c.coinKeptHeight),
    ("withdraw_pending_cutoff_height", .ofOption .int64 c.pendingCutoff),
    ("withdraw_overrides", .list WithdrawOverride.toJson c.overrides),
    ("injected", .list Injection.toJson c.injected),
    ("genesis_pools", .list GenesisPool.toJson c.genesisPools)]

end CorrectionsConfig

end PoolIndexer
