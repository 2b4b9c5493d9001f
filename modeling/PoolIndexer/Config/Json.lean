import PoolIndexer.Config.Basic

/-!
# Config.Json — settings out of a tree, and as JSON

A setting that is not given has its default; one of the wrong type spoils the whole configuration.
-/

namespace PoolIndexer

open Json (orElse text? bool? int64? word? list?)

namespace ChainConfig

def fieldNames : List String :=
  ["rpc_url", "chain_id", "native_assets", "start_height", "fetch_batch_size",
    "fetch_parallelism", "poll_interval_ms", "backoff_initial_ms", "backoff_max_ms",
    "request_timeout_secs", "base64_attributes", "ignored_event_kinds"]

def ofJson? (j : Json) : Option ChainConfig :=
  match j.fields? fieldNames with
  | some [rpcUrl, chainId, nativeAssets, startHeight, fetchBatchSize, fetchParallelism, pollMs,
      backoffInitialMs, backoffMaxMs, requestTimeoutSecs, base64Attributes, ignoredKinds] => do
    let d := ChainConfig.default
    let rpcUrl ← orElse text? d.rpcUrl rpcUrl
    let chainId ← orElse text? d.chainId chainId
    let nativeAssets ← orElse (list? text?) d.nativeAssets nativeAssets
    let startHeight ← orElse int64? d.startHeight startHeight
    let fetchBatchSize ← orElse (word? 64) d.fetchBatchSize fetchBatchSize
    let fetchParallelism ← orElse (word? 64) d.fetchParallelism fetchParallelism
    let pollMs ← orElse (word? 64) d.pollMs pollMs
    let backoffInitialMs ← orElse (word? 64) d.backoffInitialMs backoffInitialMs
    let backoffMaxMs ← orElse (word? 64) d.backoffMaxMs backoffMaxMs
    let requestTimeoutSecs ← orElse (word? 64) d.requestTimeoutSecs requestTimeoutSecs
    let base64Attributes ← orElse bool? d.base64Attributes base64Attributes
    let ignoredKinds ← orElse (list? text?) d.ignoredKinds ignoredKinds
    pure ⟨rpcUrl, chainId, nativeAssets, startHeight, fetchBatchSize, fetchParallelism, pollMs,
      backoffInitialMs, backoffMaxMs, requestTimeoutSecs, base64Attributes, ignoredKinds⟩
  | _ => none

def toJson (c : ChainConfig) : Json :=
  .record [("rpc_url", .text c.rpcUrl), ("chain_id", .text c.chainId),
    ("native_assets", .list .text c.nativeAssets), ("start_height", .int64 c.startHeight),
    ("fetch_batch_size", .nat c.fetchBatchSize), ("fetch_parallelism", .nat c.fetchParallelism),
    ("poll_interval_ms", .nat c.pollMs), ("backoff_initial_ms", .nat c.backoffInitialMs),
    ("backoff_max_ms", .nat c.backoffMaxMs), ("request_timeout_secs", .nat c.requestTimeoutSecs),
    ("base64_attributes", .bool c.base64Attributes),
    ("ignored_event_kinds", .list .text c.ignoredKinds)]

end ChainConfig

namespace ArchiveConfig

def ofJson? (j : Json) : Option ArchiveConfig :=
  match j.fields? ["path", "blocks_per_file", "write_through"] with
  | some [path, blocksPerFile, writeThrough] => do
    let d := ArchiveConfig.default
    let path ← optionalText? path
    let blocksPerFile ← orElse (word? 64) d.blocksPerFile blocksPerFile
    let writeThrough ← orElse bool? d.writeThrough writeThrough
    pure ⟨path, blocksPerFile, writeThrough⟩
  | _ => none

def toJson (c : ArchiveConfig) : Json :=
  .record [("path", .ofOption .text c.path), ("blocks_per_file", .nat c.blocksPerFile),
    ("write_through", .bool c.writeThrough)]

end ArchiveConfig

namespace DatabaseConfig

def fieldNames : List String :=
  ["postgres_url", "max_connections", "min_connections", "acquire_timeout_secs",
    "idle_timeout_secs", "max_lifetime_secs"]

def ofJson? (j : Json) : Option DatabaseConfig :=
  match j.fields? fieldNames with
  | some [url, maxConnections, minConnections, acquireTimeout, idleTimeout, maxLifetime] => do
    let d := DatabaseConfig.default
    let url ← orElse text? d.url url
    let maxConnections ← orElse (word? 32) d.maxConnections maxConnections
    let minConnections ← orElse (word? 32) d.minConnections minConnections
    let acquireTimeout ← orElse (word? 64) d.acquireTimeoutSecs acquireTimeout
    let idleTimeout ← orElse (word? 64) d.idleTimeoutSecs idleTimeout
    let maxLifetime ← orElse (word? 64) d.maxLifetimeSecs maxLifetime
    pure ⟨url, maxConnections, minConnections, acquireTimeout, idleTimeout, maxLifetime⟩
  | _ => none

def toJson (c : DatabaseConfig) : Json :=
  .record [("postgres_url", .text c.url), ("max_connections", .nat c.maxConnections),
    ("min_connections", .nat c.minConnections),
    ("acquire_timeout_secs", .nat c.acquireTimeoutSecs),
    ("idle_timeout_secs", .nat c.idleTimeoutSecs), ("max_lifetime_secs", .nat c.maxLifetimeSecs)]

end DatabaseConfig

namespace IngestionConfig

def ofJson? (j : Json) : Option IngestionConfig :=
  match j.fields? ["block_queue_capacity", "genesis_height"] with
  | some [capacity, genesisHeight] => do
    let capacity ← orElse (word? 64) IngestionConfig.default.queueCapacity capacity
    let genesisHeight ← optional64? genesisHeight
    pure ⟨capacity, genesisHeight⟩
  | _ => none

def toJson (c : IngestionConfig) : Json :=
  .record [("block_queue_capacity", .nat c.queueCapacity),
    ("genesis_height", .ofOption .int64 c.genesisHeight)]

end IngestionConfig

namespace AggregatesConfig

def ofJson? (j : Json) : Option AggregatesConfig :=
  match j.fields? ["enabled", "interval_secs", "max_refresh_window_days"] with
  | some [enabled, interval, window] => do
    let d := AggregatesConfig.default
    let enabled ← orElse bool? d.enabled enabled
    let interval ← orElse (word? 64) d.intervalSecs interval
    let window ← orElse int64? d.maxWindowDays window
    pure ⟨enabled, interval, window⟩
  | _ => none

def toJson (c : AggregatesConfig) : Json :=
  .record [("enabled", .bool c.enabled), ("interval_secs", .nat c.intervalSecs),
    ("max_refresh_window_days", .int64 c.maxWindowDays)]

end AggregatesConfig

namespace MonitoringConfig

def ofJson? (j : Json) : Option MonitoringConfig :=
  match j.fields? ["metrics_port", "log_level", "structured_logging"] with
  | some [port, level, structured] => do
    let d := MonitoringConfig.default
    let port ← orElse (word? 16) d.metricsPort port
    let level ← orElse text? d.logLevel level
    let structured ← orElse bool? d.structured structured
    pure ⟨port, level, structured⟩
  | _ => none

def toJson (c : MonitoringConfig) : Json :=
  .record [("metrics_port", .nat c.metricsPort), ("log_level", .text c.logLevel),
    ("structured_logging", .bool c.structured)]

end MonitoringConfig

namespace Config

def shutdown? (j : Json) : Option Nat :=
  match j.fields? ["timeout_secs"] with
  | some [secs] => orElse (word? 64) Config.default.shutdownSecs secs
  | _ => none

def fieldNames : List String :=
  ["chain", "archive", "database", "ingestion", "corrections", "aggregates", "monitoring",
    "shutdown"]

def ofJson? (j : Json) : Option Config :=
  match j.fields? fieldNames with
  | some [chain, archive, database, ingestion, corrections, aggregates, monitoring, shutdown] => do
    let d := Config.default
    let chain ← orElse ChainConfig.ofJson? d.chain chain
    let archive ← orElse ArchiveConfig.ofJson? d.archive archive
    let database ← orElse DatabaseConfig.ofJson? d.database database
    let ingestion ← orElse IngestionConfig.ofJson? d.ingestion ingestion
    let corrections ← orElse CorrectionsConfig.ofJson? d.corrections corrections
    let aggregates ← orElse AggregatesConfig.ofJson? d.aggregates aggregates
    let monitoring ← orElse MonitoringConfig.ofJson? d.monitoring monitoring
    let shutdown ← orElse shutdown? d.shutdownSecs shutdown
    pure ⟨chain, archive, database, ingestion, corrections, aggregates, monitoring, shutdown⟩
  | _ => none

def toJson (c : Config) : Json :=
  .record [("chain", c.chain.toJson), ("archive", c.archive.toJson),
    ("database", c.database.toJson), ("ingestion", c.ingestion.toJson),
    ("corrections", c.corrections.toJson), ("aggregates", c.aggregates.toJson),
    ("monitoring", c.monitoring.toJson),
    ("shutdown", .record [("timeout_secs", .nat c.shutdownSecs)])]

end Config

end PoolIndexer
