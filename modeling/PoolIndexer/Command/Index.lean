import PoolIndexer.Chain.Fetcher
import PoolIndexer.Chain.Rpc.Client
import PoolIndexer.Command.Options
import PoolIndexer.Command.Outcome

/-!
# Command.Index — indexing the blocks of a node

The program fetches blocks, from an archive as far as it goes, and ingests them into a store in
memory.  It goes on until it is interrupted, which a request that stays open stands for, or until
the ingestion ends.
-/

namespace PoolIndexer

namespace Command

structure IndexOptions where
  config : String
  logLevel : Option String

namespace IndexOptions

def specs : List OptionSpec :=
  [⟨"config", some 'c', .value anyText⟩, ⟨"log-level", none, .value anyText⟩,
    ⟨"dry-run", none, .flag⟩, ⟨"reset-insert-strategy", none, .flag⟩,
    ⟨"rebuild-schema", none, .flag⟩]

def ofGiven (given : List (String × String)) : IndexOptions where
  config := (given.lookup "config").getD "indexer.toml"
  logLevel := given.lookup "log-level"

end IndexOptions

/-- The settings with the log level of the options. -/
def IndexOptions.override (o : IndexOptions) (c : Config) : Config :=
  { c with monitoring :=
    { c.monitoring with logLevel := o.logLevel.getD c.monitoring.logLevel } }

/-! ### Fetching and ingesting -/

/-- A fetcher and the ingestor at the other end of its queue. -/
structure Indexing (σ : Type) where
  fetcher : Fetcher σ
  ingestor : Ingestor

namespace Indexing

variable {σ : Type}

/-- Ingests all that is in the queue. -/
def drain (x : Indexing σ) : Except (Stop IndexerError) Unit × Indexing σ :=
  let queue := x.fetcher.queue
  let (result, ingestor) := x.ingestor.consume queue.messages
  (result, ⟨{ x.fetcher with queue := { queue with messages := [] } }, ingestor⟩)

/-- Stops both sides. -/
def stop (x : Indexing σ) : Indexing σ := ⟨x.fetcher.cancel, x.ingestor.stop⟩

/-- Fetches and ingests until nothing more can happen, over at most so many waits; says whether the
ingestion has gone through. -/
def run : Nat → Indexing σ → Indexing σ × Bool
  | 0, x => (x.stop, true)
  | patience + 1, x =>
    let x := { x with fetcher := x.fetcher.catchUp }
    if x.fetcher.queue.messages.isEmpty then
      match x.fetcher.alarm? with
      | some t => run patience { x with fetcher := { x.fetcher with now := t } }
      | none => (x.stop, true)
    else
      match x.drain with
      | (.ok _, x) => run patience x
      | (.error _, x) => ({ x with fetcher := x.fetcher.cancel }, false)

end Indexing

/-! ### The program -/

def demuxOf (c : Config) : Demux :=
  let natives := ⟨c.chain.nativeAssets⟩
  ⟨natives, .ofConfig c.corrections c.chain.chainId natives c.ingestion.genesisHeight,
    c.chain.base64Attributes, c.chain.ignoredKinds⟩

/-- An ingestor over a new store. -/
def ingestorOf (c : Config) : Ingestor :=
  let demux := demuxOf c
  .start demux ⟨demux.natives, c.corrections.coinKeptHeight⟩ c.ingestion.genesisHeight
    Store.empty.strategy .empty .zero (.fresh c.chain.startHeight)

/-- The archive of a configuration: its place, and the writer that fetched blocks go through. -/
def archiveOf (c : Config) (disk : Item) : Except ChainError (Place × Option Archive.Writer) :=
  match c.archive.path with
  | none => .ok (.absent, none)
  | some path =>
    match Archive.openForWriting (disk.place (Path.ofText path)) with
    | (.error e, _) => .error e
    | (.ok bs, place) =>
      let writer := Archive.Writer.ofSize c.archive.blocksPerFile
        (Archive.resumeHeight bs c.chain.startHeight)
      .ok (place, if c.archive.writeThrough then some writer else none)

/-- The folders that a configuration asks for. -/
def foldersFor (c : Config) (disk : Item) : Option Item :=
  match c.archive.path with
  | none => some disk
  | some path => disk.makeFolders? (Path.ofText path)

section

variable {σ : Type} (transport : Rpc.Transport σ) (patience : Nat)

def fetcherOf (c : Config) (place : Place) (writer : Option Archive.Writer) (s : σ) : Fetcher σ :=
  let client := Rpc.Client.ofUrl c.chain.rpcUrl c.chain.fetchParallelism
    (1000 * c.chain.requestTimeoutSecs)
  .start (client.node transport) s place c.chain.fetchBatchSize c.chain.pollMs
    (.ofBounds c.chain.backoffInitialMs c.chain.backoffMaxMs) writer c.chain.startHeight
    c.ingestion.queueCapacity

/-- The end of a program that has left a log; a log that cannot be shown is a failure. -/
def ended (m : MonitoringConfig) (succeeded : Bool) (disk : Item) (s : σ) (log : Log) : Outcome σ :=
  let (entries, complete) := log.shown (LogLevel.rankOf m.logLevel)
  ⟨if succeeded && complete then 0 else 1, none, disk, s, if m.structured then entries else []⟩

/-- Indexes with settings that have been checked. -/
def indexWith (c : Config) (disk : Item) (s : σ) : Outcome σ :=
  let start := Recovered.report .empty c.chain.startHeight
  match archiveOf c disk with
  | .error _ => ended c.monitoring false disk s start
  | .ok (place, writer) =>
    let x : Indexing σ := ⟨fetcherOf transport c place writer s, (ingestorOf c).reportStart⟩
    let (x, succeeded) := x.run patience
    let disk := match c.archive.path with
      | some path => disk.setPlace (Path.ofText path) x.fetcher.place
      | none => disk
    ended c.monitoring succeeded disk x.fetcher.state (start ++ x.ingestor.books.log)

/-- Runs the program in a working directory. -/
def index (arguments : List String) (disk : Item) (s : σ) : Outcome σ :=
  match read IndexOptions.specs arguments with
  | .help => .helped disk s
  | .misused => .misused disk s
  | .options given =>
    let o := IndexOptions.ofGiven given
    match (configAt disk o.config).bind fun c => (o.override c).check with
    | .error e => .failed disk s (configWords e)
    | .ok c =>
      match foldersFor c disk with
      | none => .failed disk s none
      | some disk => indexWith transport patience c disk s

end

end Command

end PoolIndexer
