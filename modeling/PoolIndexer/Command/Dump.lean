import PoolIndexer.Chain.Archive.Writer
import PoolIndexer.Chain.Backoff
import PoolIndexer.Chain.Cursor
import PoolIndexer.Chain.Rpc.Client
import PoolIndexer.Command.Options
import PoolIndexer.Command.Outcome

/-!
# Command.Dump — filling an archive from a node

The program appends the blocks of a node to an archive, from where the archive ends up to a height or
for ever.  It waits at the head of the chain and after errors, and begins a new cursor after an
error.
-/

namespace PoolIndexer

namespace Command

structure DumpOptions where
  config : String
  path : Option String
  /-- The last height to archive. -/
  lastHeight : Option Int64

namespace DumpOptions

def specs : List OptionSpec :=
  [⟨"config", some 'c', .value anyText⟩, ⟨"path", none, .value (!·.isEmpty)⟩,
    ⟨"to-height", none, .value isHeight⟩, ⟨"log-level", none, .value anyText⟩]

def ofGiven (given : List (String × String)) : DumpOptions where
  config := (given.lookup "config").getD "indexer.toml"
  path := given.lookup "path"
  lastHeight := (given.lookup "to-height").bind fun s => Text.Decimal.int64? s.toList

end DumpOptions

/-! ### One step -/

/-- A dump under way. -/
structure Dump (σ : Type) where
  node : Node σ
  state : σ
  place : Place
  batchSize : Nat
  lastHeight : Option Int64
  writer : Archive.Writer
  backoff : Backoff
  cursor : Cursor

namespace Dump

variable {σ : Type}

/-- A cursor at the height that the archive goes on at. -/
def restart (d : Dump σ) : Dump σ :=
  { d with cursor := .ofBatches [] d.batchSize d.writer.nextHeight d.lastHeight }

def isComplete (d : Dump σ) : Bool :=
  match d.lastHeight with
  | some last => last.toInt < d.writer.nextHeight.toInt
  | none => false

/-- Archives a block, or ends the program with a code. -/
def append (d : Dump σ) (b : Block) : Dump σ × Option UInt8 :=
  let (result, writer, place) := d.writer.append d.place b
  let d := { d with writer, place }
  match result with
  | .ok _ => ({ d with backoff := d.backoff.reset }, none)
  | .error (.error _) => (d, some 1)
  | .error (.overflow _) => (d, some 101)

/-- Gets one block, or waits once; the code says that the program has ended. -/
def step (d : Dump σ) : Dump σ × Option UInt8 :=
  let (result, cursor, state) := d.cursor.next d.node d.place d.state
  let d := { d with cursor, state }
  match result with
  | .ok b => d.append b
  | .error .silence => (d, some 0)
  | .error (.overflow _) => (d, some 101)
  | .error (.error .noData) => (d, if d.isComplete then some 0 else none)
  | .error (.error _) => ({ d with backoff := d.backoff.next.2 }.restart, none)

/-- Makes at most so many steps. -/
def run : Nat → Dump σ → Dump σ × UInt8
  | 0, d => (d, 0)
  | patience + 1, d =>
    match d.step with
    | (d, some code) => (d, code)
    | (d, none) => run patience d

end Dump

/-! ### The program -/

def noArchivePath : String := "no archive path: set archive.path or pass --path"

section

variable {σ : Type} (transport : Rpc.Transport σ) (patience : Nat)

/-- Fills the archive at a path. -/
def dumpTo (c : Config) (lastHeight : Option Int64) (path : Path) (disk : Item) (s : σ) : Outcome σ :=
  match disk.makeFolders? path with
  | none => .failed disk s none
  | some disk =>
    match Archive.openForWriting (disk.place path) with
    | (.error _, _) => .failed disk s none
    | (.ok bs, place) =>
      let client := Rpc.Client.ofUrl c.chain.rpcUrl c.chain.fetchParallelism
        (1000 * c.chain.requestTimeoutSecs)
      let first := Archive.resumeHeight bs c.chain.startHeight
      let d : Dump σ := {
        node := client.node transport
        state := s
        place := place
        batchSize := c.chain.fetchBatchSize
        lastHeight := lastHeight
        writer := .ofSize c.archive.blocksPerFile first
        backoff := .ofBounds c.chain.backoffInitialMs c.chain.backoffMaxMs
        cursor := .ofBatches [] c.chain.fetchBatchSize first lastHeight }
      let (d, code) := d.run patience
      ⟨code, none, disk.setPlace path d.place, d.state, []⟩

/-- Runs the program in a working directory. -/
def dump (arguments : List String) (disk : Item) (s : σ) : Outcome σ :=
  match read DumpOptions.specs arguments with
  | .help => .helped disk s
  | .misused => .misused disk s
  | .options given =>
    let o := DumpOptions.ofGiven given
    match configAt disk o.config with
    | .error _ => .failed disk s none
    | .ok c =>
      match o.path.or c.archive.path with
      | none => .failed disk s (some (errorLine noArchivePath))
      | some path => dumpTo transport patience c o.lastHeight (Path.ofText path) disk s

end

end Command

end PoolIndexer
