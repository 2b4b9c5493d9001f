import PoolIndexer.Asset
import PoolIndexer.Block.Basic
import PoolIndexer.Block.Json
import PoolIndexer.Chain.Archive.Batch
import PoolIndexer.Chain.Archive.Reader
import PoolIndexer.Chain.Archive.Writer
import PoolIndexer.Chain.Backoff
import PoolIndexer.Chain.Cursor
import PoolIndexer.Chain.Fetcher
import PoolIndexer.Chain.Node
import PoolIndexer.Chain.Rpc.Canned
import PoolIndexer.Chain.Rpc.Client
import PoolIndexer.Chain.Rpc.Reply
import PoolIndexer.Chain.Scripted
import PoolIndexer.Checked
import PoolIndexer.Coin
import PoolIndexer.Command.Dump
import PoolIndexer.Command.Index
import PoolIndexer.Command.Options
import PoolIndexer.Command.Outcome
import PoolIndexer.Command.Scene
import PoolIndexer.Config.Basic
import PoolIndexer.Config.Check
import PoolIndexer.Config.Json
import PoolIndexer.Correction.Config
import PoolIndexer.Correction.Table
import PoolIndexer.Demux
import PoolIndexer.Disk
import PoolIndexer.Event.Attributes
import PoolIndexer.Event.Direction
import PoolIndexer.Event.Id
import PoolIndexer.Event.Load
import PoolIndexer.Event.Raw
import PoolIndexer.Event.Typed
import PoolIndexer.Exchange
import PoolIndexer.Fault
import PoolIndexer.Ingest.Ingestor
import PoolIndexer.Ingest.Track
import PoolIndexer.Instant
import PoolIndexer.Json.Basic
import PoolIndexer.Json.Parser
import PoolIndexer.Json.Printer
import PoolIndexer.Json.Reader
import PoolIndexer.Log
import PoolIndexer.Main
import PoolIndexer.Metrics
import PoolIndexer.Proofs.Basic
import PoolIndexer.Proofs.Block.Json
import PoolIndexer.Proofs.Chain.Archive.Complete
import PoolIndexer.Proofs.Chain.Archive.Names
import PoolIndexer.Proofs.Chain.Archive.ReadBack
import PoolIndexer.Proofs.Chain.Archive.Reader
import PoolIndexer.Proofs.Chain.Archive.Sessions
import PoolIndexer.Proofs.Chain.Archive.Text
import PoolIndexer.Proofs.Chain.Cursor
import PoolIndexer.Proofs.Chain.Delivery
import PoolIndexer.Proofs.Chain.Idle
import PoolIndexer.Proofs.Chain.Node
import PoolIndexer.Proofs.Chain.Rpc.Blocks
import PoolIndexer.Proofs.Chain.Rpc.Headers
import PoolIndexer.Proofs.Chain.Rpc.Phases
import PoolIndexer.Proofs.Chain.Rpc.Replies
import PoolIndexer.Proofs.Chain.Rpc.Requests
import PoolIndexer.Proofs.Chain.Transparency
import PoolIndexer.Proofs.Correction.Config
import PoolIndexer.Proofs.Correction.LastWins
import PoolIndexer.Proofs.Demux
import PoolIndexer.Proofs.Demux.Encoding
import PoolIndexer.Proofs.Demux.Fates
import PoolIndexer.Proofs.Demux.Locality
import PoolIndexer.Proofs.Demux.Lots
import PoolIndexer.Proofs.Demux.Places
import PoolIndexer.Proofs.Event.AttributeOrder
import PoolIndexer.Proofs.Event.Id
import PoolIndexer.Proofs.Event.Load
import PoolIndexer.Proofs.Exchange
import PoolIndexer.Proofs.Ingest.Account
import PoolIndexer.Proofs.Ingest.Attempts
import PoolIndexer.Proofs.Ingest.BlockLog
import PoolIndexer.Proofs.Ingest.Call
import PoolIndexer.Proofs.Ingest.Counts
import PoolIndexer.Proofs.Ingest.Degradation
import PoolIndexer.Proofs.Ingest.DepthLog
import PoolIndexer.Proofs.Ingest.Heights
import PoolIndexer.Proofs.Ingest.History
import PoolIndexer.Proofs.Ingest.Journal
import PoolIndexer.Proofs.Ingest.Order
import PoolIndexer.Proofs.Ingest.Outcomes
import PoolIndexer.Proofs.Ingest.Pending
import PoolIndexer.Proofs.Ingest.Pieces
import PoolIndexer.Proofs.Ingest.Published
import PoolIndexer.Proofs.Ingest.Replayed
import PoolIndexer.Proofs.Ingest.Restart
import PoolIndexer.Proofs.Ingest.Retry
import PoolIndexer.Proofs.Ingest.Strategies
import PoolIndexer.Proofs.Ingest.Tolerance
import PoolIndexer.Proofs.Ingest.World
import PoolIndexer.Proofs.Instant
import PoolIndexer.Proofs.Json
import PoolIndexer.Proofs.Record.Balances
import PoolIndexer.Proofs.Record.DepthHistory
import PoolIndexer.Proofs.Record.DepthRows
import PoolIndexer.Proofs.Record.Exactness
import PoolIndexer.Proofs.Record.Layout
import PoolIndexer.Proofs.Record.LedgerRules
import PoolIndexer.Proofs.Record.Recorder
import PoolIndexer.Proofs.Record.Registry
import PoolIndexer.Proofs.Record.Replay
import PoolIndexer.Proofs.Record.Snapshot
import PoolIndexer.Proofs.Refresh.Convergence
import PoolIndexer.Proofs.Refresh.Coverage
import PoolIndexer.Proofs.Refresh.Rollup
import PoolIndexer.Proofs.Refresh.Wakeups
import PoolIndexer.Proofs.Refresh.Watermarks
import PoolIndexer.Proofs.Sql.Batches
import PoolIndexer.Proofs.Sql.Savepoints
import PoolIndexer.Proofs.Store.Buffer
import PoolIndexer.Proofs.Store.Inserter
import PoolIndexer.Proofs.Store.Wholeness
import PoolIndexer.Proofs.Text.Utf8.Order
import PoolIndexer.Record.Cells
import PoolIndexer.Record.Changes
import PoolIndexer.Record.DepthHistory
import PoolIndexer.Record.Ledger
import PoolIndexer.Record.Recorder
import PoolIndexer.Record.Rows
import PoolIndexer.Record.Snapshot
import PoolIndexer.Record.Totals
import PoolIndexer.Refresh.Loop
import PoolIndexer.Refresh.Refresher
import PoolIndexer.Refresh.Signal
import PoolIndexer.Report.Basic
import PoolIndexer.Report.Chain
import PoolIndexer.Report.Config
import PoolIndexer.Report.Event
import PoolIndexer.Report.Fault
import PoolIndexer.Report.Stage
import PoolIndexer.Report.Table
import PoolIndexer.Sql.Client
import PoolIndexer.Sql.Scripted
import PoolIndexer.Sql.Statement
import PoolIndexer.Store.Inserter
import PoolIndexer.Store.Memory
import PoolIndexer.Table.Ddl
import PoolIndexer.Table.Row
import PoolIndexer.Table.Schema
import PoolIndexer.Table.Value
import PoolIndexer.Text.Base64
import PoolIndexer.Text.Blank
import PoolIndexer.Text.Decimal
import PoolIndexer.Text.Hex
import PoolIndexer.Text.Printable
import PoolIndexer.Text.Quoted
import PoolIndexer.Text.Rounded
import PoolIndexer.Text.Sha256
import PoolIndexer.Text.Target
import PoolIndexer.Text.Url
import PoolIndexer.Text.Utf8
import PoolIndexer.Toml.Parser
import PoolIndexer.Toml.Tree
import PoolIndexer.View.Basic
import PoolIndexer.View.Sql
