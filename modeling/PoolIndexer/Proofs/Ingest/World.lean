import PoolIndexer.Proofs.Ingest.Call

/-!
# Proofs.Ingest.World — one store and the ingestors that come and go over it

* `World`: a store without an ingestor, an ingestor between two blocks, or one in the middle of a block.
* `Ingestor.offer` starts a block and `Ingestor.work` does the least piece of what is left of it, as a
  call does, but a failure ends the ingestor.
* `Action`: a new start from the store, a block processed in one go or piece by piece, the end of an
  ingestor, and a change of everything about the store but its rows.  All of these come in any order.
* `works_process`: a block that nobody disturbs is processed as the pieces say.
-/

namespace PoolIndexer

/-! ### A block in pieces -/

inductive World where
  | down (s : Store)
  | idle (g : Ingestor)
  | busy (g : Ingestor) (job : Job)

def World.store : World → Store
  | .down s => s
  | .idle g => g.store
  | .busy g _ => g.store

namespace Ingestor

/-- After a block an ingestor waits for the next one; after a failure only its store is left. -/
def settle {α : Type} : Except (Stop IndexerError) α × Ingestor → World
  | (.ok _, g) => .idle g
  | (.error _, g) => .down g.store

/-- Takes a block in. -/
def offer (g : Ingestor) (b : Block) (batchEnd : Bool) : World :=
  if b.height ≠ g.nextHeight then .down g.store
  else
    let run := g.demux.run b
    match run.fault with
    | some _ => .down g.store
    | none =>
      match g.books.inserter.startBlock with
      | .error _ => .down g.store
      | .ok i =>
        .busy ((g.report run.log).withInserter i) ⟨b, batchEnd, run.stats, .events run.delivered⟩

def workEvent (g : Ingestor) (job : Job) (e : Event) (m : Metadata) (rest : List (Event × Metadata)) :
    World :=
  match g.recorder.record g.store g.books e m with
  | (.ok _, books) => .busy { g with books } { job with task := .events rest }
  | (.error _, _) => .down g.store

def workPool (g : Ingestor) (job : Job) (record : RecordStats) (written : Nat) (pool : String)
    (rest : List String) : World :=
  match DepthHistory.recordPool g.books.totals job.block.nanos g.store
      ⟨g.depths, g.books.inserter, written⟩ pool with
  | (.ok _, p) =>
    .busy { g.withInserter p.inserter with depths := p.history }
      { job with task := .depths record p.written rest }
  | (.error _, _) => .down g.store

def workLedger (g : Ingestor) (job : Job) (record : RecordStats) (depthRows : Nat) : World :=
  match g.stamp? job.block job.batchEnd with
  | .error _ => .down g.store
  | .ok stamp =>
    match g.recordBlock job.block (stamp.map Stamp.state) with
    | (.ok _, g) => .busy g { job with task := .commit stamp record depthRows }
    | (.error _, g) => .down g.store

def workCommit (g : Ingestor) (job : Job) (stamp : Option Stamp) (record : RecordStats)
    (depthRows : Nat) : World :=
  match g.commitTrack (stamp.map Stamp.track) with
  | (.ok flush, g) =>
    settle (g.advance job.block.height ⟨stamp.isSome, job.demux, record, depthRows, flush⟩)
  | (.error _, g) => .down g.store

/-- Does the next piece of a block. -/
def work (g : Ingestor) (job : Job) : World :=
  match job.task with
  | .events ((e, m) :: rest) => g.workEvent job e m rest
  | .events [] =>
    .busy { g with books := { g.books with stats := .zero } }
      { job with task := .depths g.books.stats 0 g.books.totals.pools }
  | .depths record written (pool :: rest) => g.workPool job record written pool rest
  | .depths record written [] => .busy g { job with task := .ledger record written }
  | .ledger record depthRows => g.workLedger job record depthRows
  | .commit stamp record depthRows => g.workCommit job stamp record depthRows

end Ingestor

/-! ### Actions -/

/-- What an ingestor is started with. -/
structure Setup where
  demux : Demux
  recorder : Recorder
  genesisHeight : Option Int64
  strategy : Strategy
  /-- Where an empty store begins. -/
  startHeight : Int64
  metrics : Metrics

/-- The ingestor of a setup that goes on from what was recovered. -/
def Setup.ingestor (setup : Setup) (s : Store) (r : Recovered) : Ingestor :=
  .start setup.demux setup.recorder setup.genesisHeight setup.strategy s setup.metrics r

/-- A block without events. -/
def Block.bare (height : Int64) : Block := ⟨height, .ofSeconds 0, [], [], [], []⟩

/-- A setup that gives one pool some depth at the start. -/
def Setup.seeded (strategy : Strategy) (startHeight : Int64) : Setup where
  demux := ⟨.default, .inject (.ofChain "" .default) startHeight none
    (.add ⟨⟨"", "", "", "", "seed"⟩, "BTC.BTC", 7, 9, "BTC.BTC"⟩), false, []⟩
  recorder := ⟨.default, none⟩
  genesisHeight := none
  strategy := strategy
  startHeight := startHeight
  metrics := .zero

inductive Action where
  /-- Everything about the store but its rows becomes that of `s`. -/
  | disturb (s : Store)
  /-- The ingestor, if there is one, is gone, and a new one goes on from the store. -/
  | start (setup : Setup)
  | process (b : Block) (batchEnd : Bool)
  | offer (b : Block) (batchEnd : Bool)
  | work
  /-- The ingestor is gone. -/
  | drop

/-- Two blocks, the second of which is lost and then fed to a new ingestor of the other strategy. -/
def Action.lostBlock (startHeight second : Int64) : List Action :=
  [.start (.seeded .batch startHeight), .process (.bare startHeight) true, .process (.bare second) false,
    .start (.seeded .tolerant startHeight), .process (.bare second) true]

namespace World

def withStore (w : World) (s : Store) : World :=
  match w with
  | .down _ => .down s
  | .idle g => .idle { g with store := s }
  | .busy g job => .busy { g with store := s } job

def start (s : Store) (setup : Setup) : World :=
  match Recovered.ofStore s setup.startHeight with
  | .error _ => .down s
  | .ok r => .idle (setup.ingestor s r)

def work : World → World
  | .busy g job => g.work job
  | w => w

def step (w : World) : Action → World
  | .disturb s => w.withStore { s with rows := w.store.rows }
  | .start setup => start w.store setup
  | .process b batchEnd =>
    match w with
    | .idle g => Ingestor.settle (g.process b batchEnd)
    | w => w
  | .offer b batchEnd =>
    match w with
    | .idle g => g.offer b batchEnd
    | w => w
  | .work => w.work
  | .drop => .down w.store

def run (w : World) (actions : List Action) : World := actions.foldl step w

end World

/-! ### The pieces of an undisturbed block -/

/-- Some number of pieces of work leads from one world to the other. -/
def World.Works (w w' : World) : Prop := Relation.ReflTransGen (fun v v' => v' = v.work) w w'

/-- What a call leaves to those who come after it. -/
def Call.world : Call → World
  | .running g job => .busy g job
  | .returned result g => Ingestor.settle (result, g)

theorem Ingestor.world_call (g : Ingestor) (b : Block) (batchEnd : Bool) :
    (g.call b batchEnd).world = g.offer b batchEnd := by
  unfold call offer
  by_cases hheight : b.height = g.nextHeight
  · rw [if_neg (fun h => h hheight), if_neg (fun h => h hheight)]
    dsimp only
    cases (g.demux.run b).fault with
    | some o => rfl
    | none =>
      show Call.world (match g.books.inserter.startBlock with | .error _ => _ | .ok i => _) =
        match g.books.inserter.startBlock with | .error _ => _ | .ok i => _
      cases g.books.inserter.startBlock <;> rfl
  · rw [if_pos hheight, if_pos hheight]
    rfl

namespace Call

theorem world_callEvent (g : Ingestor) (job : Job) (e : Event) (m : Metadata)
    (rest : List (Event × Metadata)) :
    (g.callEvent job e m rest).world = g.workEvent job e m rest := by
  unfold Ingestor.callEvent Ingestor.workEvent
  cases g.recorder.record g.store g.books e m with
  | mk result books => cases result <;> rfl

theorem world_callPool (g : Ingestor) (job : Job) (record : RecordStats) (written : Nat) (pool : String)
    (rest : List String) :
    (g.callPool job record written pool rest).world = g.workPool job record written pool rest := by
  unfold Ingestor.callPool Ingestor.workPool
  cases DepthHistory.recordPool g.books.totals job.block.nanos g.store
      ⟨g.depths, g.books.inserter, written⟩ pool with
  | mk result p => cases result <;> rfl

theorem world_callLedger (g : Ingestor) (job : Job) (record : RecordStats) (depthRows : Nat) :
    (g.callLedger job record depthRows).world = g.workLedger job record depthRows := by
  unfold Ingestor.callLedger Ingestor.workLedger
  cases g.stamp? job.block job.batchEnd with
  | error o => rfl
  | ok stamp =>
    dsimp only
    cases g.recordBlock job.block (stamp.map Ingestor.Stamp.state) with
    | mk result g' => cases result <;> rfl

theorem world_callCommit (g : Ingestor) (job : Job) (stamp : Option Ingestor.Stamp) (record : RecordStats)
    (depthRows : Nat) :
    (g.callCommit job stamp record depthRows).world = g.workCommit job stamp record depthRows := by
  unfold Ingestor.callCommit Ingestor.workCommit
  cases g.commitTrack (stamp.map Ingestor.Stamp.track) with
  | mk result g' => cases result <;> rfl

/-- The pieces of a call are the pieces of a block. -/
theorem world_work (c : Call) : c.work.world = c.world.work := by
  cases c with
  | returned result g => cases result <;> rfl
  | running g job =>
    obtain ⟨b, batchEnd, demux, task⟩ := job
    cases task with
    | events rest =>
      cases rest with
      | nil => rfl
      | cons p rest => exact world_callEvent g _ p.1 p.2 rest
    | depths record written rest =>
      cases rest with
      | nil => rfl
      | cons pool rest => exact world_callPool g _ record written pool rest
    | ledger record depthRows => exact world_callLedger g _ record depthRows
    | commit stamp record depthRows => exact world_callCommit g _ stamp record depthRows

theorem Works.world {c c' : Call} (h : c.Works c') : c.world.Works c'.world := by
  induction h with
  | refl => exact .refl
  | tail _ hstep ih => exact ih.tail (hstep ▸ world_work _)

end Call

/-- **Pieces**: an undisturbed block is processed by its pieces. -/
theorem Ingestor.works_process (g : Ingestor) (b : Block) (batchEnd : Bool) :
    (g.offer b batchEnd).Works (settle (g.process b batchEnd)) := by
  have hcall := (Call.works_process g b batchEnd).world
  rw [world_call] at hcall
  exact hcall

end PoolIndexer
