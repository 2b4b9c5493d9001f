import PoolIndexer.Config.Json
import PoolIndexer.Text.Url
import PoolIndexer.Toml.Parser

/-!
# Config.Check — which configurations are accepted

First every setting has to lie in its range; all that do not are named.  Then the rules between
settings are tried in order, and the first broken one is reported.
-/

namespace PoolIndexer

inductive ConfigError where
  /-- There is no file. -/
  | unreadable
  /-- The text is no configuration. -/
  | malformed
  /-- The settings that are out of their range or no URL. -/
  | invalid (settings : List String)
  | brokenRule (message : String)
  deriving DecidableEq

namespace Config

/-- A setting, what is asked of it, and whether it is so. -/
abbrev Check := String × Bool

def ranged (name : String) (n : Int) (low high : Int) : Check :=
  (name ++ ":range", decide (low ≤ n ∧ n ≤ high))

def url (name : String) (s : String) : Check := (name ++ ":url", Text.Url.isAbsolute s)

/-- All checks in the order of their names. -/
def checks (c : Config) : List Check :=
  [ranged "aggregates.interval_secs" c.aggregates.intervalSecs 1 86400,
    ranged "aggregates.max_refresh_window_days" c.aggregates.maxWindowDays.toInt 1 365,
    ranged "archive.blocks_per_file" c.archive.blocksPerFile 1 100000,
    ranged "chain.backoff_initial_ms" c.chain.backoffInitialMs 100 60000,
    ranged "chain.backoff_max_ms" c.chain.backoffMaxMs 1000 600000,
    ranged "chain.fetch_batch_size" c.chain.fetchBatchSize 1 10000,
    ranged "chain.fetch_parallelism" c.chain.fetchParallelism 1 64,
    ranged "chain.poll_interval_ms" c.chain.pollMs 100 60000,
    ranged "chain.request_timeout_secs" c.chain.requestTimeoutSecs 1 300,
    url "chain.rpc_url" c.chain.rpcUrl,
    ("chain.start_height:range", decide (1 ≤ c.chain.startHeight.toInt)),
    ranged "database.acquire_timeout_secs" c.database.acquireTimeoutSecs 5 300,
    ranged "database.idle_timeout_secs" c.database.idleTimeoutSecs 60 3600,
    ranged "database.max_connections" c.database.maxConnections 1 100,
    ranged "database.max_lifetime_secs" c.database.maxLifetimeSecs 300 7200,
    ranged "database.min_connections" c.database.minConnections 1 50,
    url "database.postgres_url" c.database.url,
    ranged "ingestion.block_queue_capacity" c.ingestion.queueCapacity 1 100000]

def invalidSettings (c : Config) : List String :=
  (c.checks.filter fun check => !check.2).map (·.1)

/-- The rule about the genesis height, which must not lie below the first height. -/
def genesisRule (c : Config) : Check :=
  match c.ingestion.genesisHeight with
  | none => ("", true)
  | some genesis =>
    ("ingestion.genesis_height " ++ Text.Decimal.showInt64 genesis ++
      " is below chain.start_height " ++ Text.Decimal.showInt64 c.chain.startHeight,
      decide (c.chain.startHeight.toInt ≤ genesis.toInt))

/-- What is reported if a rule between settings is broken, and whether it holds. -/
def rules (c : Config) : List Check :=
  [("chain.chain_id cannot be empty", !c.chain.chainId.isEmpty),
    ("chain.native_assets needs at least one asset", !c.chain.nativeAssets.isEmpty),
    ("chain.backoff_initial_ms exceeds chain.backoff_max_ms",
      decide (c.chain.backoffInitialMs ≤ c.chain.backoffMaxMs)),
    ("database.min_connections exceeds database.max_connections",
      decide (c.database.minConnections ≤ c.database.maxConnections)),
    ("archive.write_through requires archive.path",
      !c.archive.writeThrough || c.archive.path.isSome),
    c.genesisRule,
    ("corrections.genesis_pools requires ingestion.genesis_height",
      c.corrections.genesisPools.isEmpty || c.ingestion.genesisHeight.isSome)]

def check (c : Config) : Except ConfigError Config :=
  if !c.invalidSettings.isEmpty then .error (.invalid c.invalidSettings)
  else
    match c.rules.find? fun rule => !rule.2 with
    | some rule => .error (.brokenRule rule.1)
    | none => .ok c

/-- The configuration of a file; nothing stands for a file that does not exist. -/
def ofFile (text : Option String) : Except ConfigError Config :=
  match text with
  | none => .error .unreadable
  | some s =>
    match (Toml.parse s).bind ofJson? with
    | none => .error .malformed
    | some c => c.check

end Config

end PoolIndexer
