import PoolIndexer.Table.Value

/-!
# Table.Schema — every table that rows may go to

The registry is a list; each table lists its columns in order.  Event tables end with the id and
the time of the event and are indexed on both.
-/

namespace PoolIndexer

structure Column where
  name : String
  type : ColumnType
  nullable : Bool
  deriving DecidableEq

structure Table where
  name : String
  columns : List Column
  primaryKey : Option String
  isEventTable : Bool
  deriving DecidableEq

namespace Table

def column? (t : Table) (name : String) : Option Column := t.columns.find? (·.name = name)

def columnLine (c : Column) : String :=
  "    " ++ c.name ++ " " ++ c.type.name ++ (if c.nullable then "" else " NOT NULL")

def keyLine (key : String) : String := "    PRIMARY KEY (" ++ key ++ ")"

def indexLine (table column : String) : String :=
  "CREATE INDEX IF NOT EXISTS " ++ table ++ "_" ++ column ++ "_idx ON " ++ table ++ " (" ++ column ++
    ");\n"

/-- The statements that create the table and its indexes. -/
def ddl (t : Table) : String :=
  let lines := t.columns.map columnLine ++ (t.primaryKey.map keyLine).toList
  "CREATE TABLE IF NOT EXISTS " ++ t.name ++ " (\n" ++ ",\n".intercalate lines ++ "\n);\n" ++
    (if t.isEventTable then indexLine t.name "event_id" ++ indexLine t.name "block_timestamp"
      else "")

def required (c : String × ColumnType) : Column := ⟨c.1, c.2, false⟩

/-- A table of events: the given columns, then the id and the time. -/
def eventTable (name : String) (columns : List (String × ColumnType)) : Table where
  name := name
  columns := columns.map required ++
    [required ("event_id", .bigint), required ("block_timestamp", .bigint)]
  primaryKey := none
  isEventTable := true

/-- One row per block; the state of the totals stands where a batch of blocks ended. -/
def blockLog : Table where
  name := "block_log"
  columns := [required ("height", .bigint), required ("timestamp", .bigint),
    required ("hash", .bytea), ⟨"agg_state", .bytea, true⟩]
  primaryKey := some "height"
  isEventTable := false

/-- One row per pool whose depths changed in a block. -/
def blockPoolDepths : Table where
  name := "block_pool_depths"
  columns := [("pool", .text), ("asset_e8", .bigint), ("rune_e8", .bigint), ("synth_e8", .bigint),
    ("block_timestamp", .bigint)].map required
  primaryKey := none
  isEventTable := false

end Table

namespace Schema

open Table

def tables : List Table :=
  [ blockLog,
    blockPoolDepths,
    eventTable "add_events" [("tx", .text), ("chain", .text), ("from_addr", .text),
      ("to_addr", .text), ("asset", .text), ("asset_e8", .bigint), ("rune_e8", .bigint),
      ("memo", .text), ("pool", .text)],
    eventTable "add_liquidity_events" [("pool", .text), ("asset_tx", .text),
      ("asset_chain", .text), ("asset_addr", .text), ("asset_e8", .bigint),
      ("stake_units", .bigint), ("rune_tx", .text), ("rune_addr", .text), ("rune_e8", .bigint)],
    eventTable "pending_liquidity_events" [("pool", .text), ("asset_tx", .text),
      ("asset_chain", .text), ("asset_addr", .text), ("asset_e8", .bigint), ("rune_tx", .text),
      ("rune_addr", .text), ("rune_e8", .bigint), ("pending_type", .text)],
    eventTable "withdraw_events" [("tx", .text), ("chain", .text), ("from_addr", .text),
      ("to_addr", .text), ("asset", .text), ("asset_e8", .bigint), ("emit_asset_e8", .bigint),
      ("emit_rune_e8", .bigint), ("memo", .text), ("pool", .text), ("stake_units", .bigint),
      ("basis_points", .bigint), ("asymmetry", .text), ("imp_loss_protection_e8", .bigint)],
    eventTable "swap_events" [("tx", .text), ("chain", .text), ("from_addr", .text),
      ("to_addr", .text), ("from_asset", .text), ("from_e8", .bigint), ("to_asset", .text),
      ("to_e8", .bigint), ("memo", .text), ("pool", .text), ("to_e8_min", .bigint),
      ("swap_slip_bp", .bigint), ("liq_fee_e8", .bigint), ("liq_fee_in_rune_e8", .bigint),
      ("_direction", .bigint)],
    eventTable "fee_events" [("tx", .text), ("asset", .text), ("asset_e8", .bigint),
      ("pool_deduct", .bigint)],
    eventTable "gas_events" [("asset", .text), ("asset_e8", .bigint), ("rune_e8", .bigint),
      ("tx_count", .bigint)],
    eventTable "refund_events" [("tx", .text), ("chain", .text), ("from_addr", .text),
      ("to_addr", .text), ("asset", .text), ("asset_e8", .bigint), ("asset_2nd", .text),
      ("asset_2nd_e8", .bigint), ("memo", .text), ("code", .bigint), ("reason", .text)],
    eventTable "outbound_events" [("tx", .text), ("chain", .text), ("from_addr", .text),
      ("to_addr", .text), ("asset", .text), ("asset_e8", .bigint), ("memo", .text),
      ("in_tx", .text)],
    eventTable "errata_events" [("in_tx", .text), ("asset", .text), ("asset_e8", .bigint),
      ("rune_e8", .bigint)],
    eventTable "pool_balance_change_events" [("asset", .text), ("rune_e8", .bigint),
      ("asset_e8", .bigint), ("reason", .text)],
    eventTable "pool_events" [("asset", .text), ("status", .text)],
    eventTable "rewards_events" [("bond_e8", .bigint)],
    eventTable "rewards_event_entries" [("pool", .text), ("rune_e8", .bigint)],
    eventTable "slash_events" [("pool", .text), ("asset", .text), ("asset_e8", .bigint)],
    eventTable "reserve_events" [("tx", .text), ("chain", .text), ("from_addr", .text),
      ("to_addr", .text), ("asset", .text), ("asset_e8", .bigint), ("memo", .text),
      ("addr", .text), ("e8", .bigint)],
    eventTable "bond_events" [("tx", .text), ("chain", .text), ("from_addr", .text),
      ("to_addr", .text), ("asset", .text), ("asset_e8", .bigint), ("memo", .text),
      ("bond_type", .text), ("e8", .bigint)],
    eventTable "new_node_events" [("node_addr", .text)],
    eventTable "update_node_account_status_events" [("node_addr", .text), ("former", .text),
      ("current", .text)],
    eventTable "set_node_keys_events" [("node_addr", .text), ("secp256k1", .text),
      ("ed25519", .text), ("validator_consensus", .text)],
    eventTable "set_version_events" [("node_addr", .text), ("version", .text)],
    eventTable "validator_request_leave_events" [("tx", .text), ("from_addr", .text),
      ("node_addr", .text)],
    eventTable "transfer_events" [("from_addr", .text), ("to_addr", .text), ("asset", .text),
      ("amount_e8", .bigint)],
    eventTable "switch_events" [("tx", .text), ("from_addr", .text), ("to_addr", .text),
      ("burn_asset", .text), ("burn_e8", .bigint), ("mint_e8", .bigint)],
    eventTable "loan_open_events" [("owner", .text), ("collateral_asset", .text),
      ("collateral_deposited_e8", .bigint), ("debt_issued_tor_e8", .bigint),
      ("collateralization_ratio", .bigint), ("target_asset", .text)],
    eventTable "loan_repayment_events" [("owner", .text), ("collateral_asset", .text),
      ("collateral_withdrawn_e8", .bigint), ("debt_repaid_tor_e8", .bigint)],
    eventTable "mint_burn_events" [("supply", .text), ("denom", .text), ("amount_e8", .bigint),
      ("reason", .text)],
    eventTable "set_mimir_events" [("key", .text), ("value", .text)],
    eventTable "depth_override_events" [("pool", .text), ("asset_e8", .bigint),
      ("rune_e8", .bigint), ("synth_e8", .bigint), ("reason", .text), ("_synthetic", .boolean)]
  ]

def table? (name : String) : Option Table := tables.find? (·.name = name)

/-- The key of the schema's hash among the constants. -/
def hashKey : String := "schema_hash"

end Schema

end PoolIndexer
