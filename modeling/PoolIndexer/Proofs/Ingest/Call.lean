import Mathlib.Logic.Relation
import PoolIndexer.Ingest.Ingestor

/-!
# Proofs.Ingest.Call — one block as a call that is worked off in pieces

* `Call`: a call in the middle of a block, or back with its result.  The ingestor is there in both
  cases, also after a failure.
* `Ingestor.call` takes a block in and `Call.work` does the least piece of what is left of it: an
  event, a pool, the ledger row, the commit.
* `Call.works_process`: a call that nobody disturbs returns what `Ingestor.process` gives.
-/

namespace PoolIndexer

/-- What is left to do for a block. -/
inductive Task where
  | events (rest : List (Event × Metadata))
  | depths (record : RecordStats) (written : Nat) (rest : List String)
  | ledger (record : RecordStats) (depthRows : Nat)
  | commit (stamp : Option Ingestor.Stamp) (record : RecordStats) (depthRows : Nat)

/-- A block on its way. -/
structure Job where
  block : Block
  batchEnd : Bool
  demux : DemuxStats
  task : Task

inductive Call where
  | running (g : Ingestor) (job : Job)
  | returned (result : Except (Stop IndexerError) BlockOutcome) (g : Ingestor)

/-! ### The pieces -/

namespace Ingestor

/-- Takes a block in. -/
def call (g : Ingestor) (b : Block) (batchEnd : Bool) : Call :=
  if b.height ≠ g.nextHeight then
    .returned (.error (.error (.heightOutOfOrder g.nextHeight b.height))) g
  else
    let run := g.demux.run b
    let g := g.report run.log
    match run.fault with
    | some o => .returned (.error (.overflow o)) g
    | none =>
      match g.books.inserter.startBlock with
      | .error e => .returned (.error (.error (.insert e))) g
      | .ok i => .running (g.withInserter i) ⟨b, batchEnd, run.stats, .events run.delivered⟩

def callEvent (g : Ingestor) (job : Job) (e : Event) (m : Metadata)
    (rest : List (Event × Metadata)) : Call :=
  match g.recorder.record g.store g.books e m with
  | (.ok _, books) => .running { g with books } { job with task := .events rest }
  | (.error stop, books) => .returned (.error stop) { g with books }

def callPool (g : Ingestor) (job : Job) (record : RecordStats) (written : Nat) (pool : String)
    (rest : List String) : Call :=
  match DepthHistory.recordPool g.books.totals job.block.nanos g.store
      ⟨g.depths, g.books.inserter, written⟩ pool with
  | (.ok _, p) =>
    .running { g.withInserter p.inserter with depths := p.history }
      { job with task := .depths record p.written rest }
  | (.error e, p) => .returned (.error (.error e)) { g.withInserter p.inserter with depths := p.history }

def callLedger (g : Ingestor) (job : Job) (record : RecordStats) (depthRows : Nat) : Call :=
  match g.stamp? job.block job.batchEnd with
  | .error o => .returned (.error (.overflow o)) g
  | .ok stamp =>
    match g.recordBlock job.block (stamp.map Stamp.state) with
    | (.ok _, g) => .running g { job with task := .commit stamp record depthRows }
    | (.error stop, g) => .returned (.error stop) g

def callCommit (g : Ingestor) (job : Job) (stamp : Option Stamp) (record : RecordStats)
    (depthRows : Nat) : Call :=
  match g.commitTrack (stamp.map Stamp.track) with
  | (.ok flush, g) =>
    let after := g.advance job.block.height ⟨stamp.isSome, job.demux, record, depthRows, flush⟩
    .returned after.1 after.2
  | (.error stop, g) => .returned (.error stop) g

end Ingestor

namespace Call

/-- Does the next piece of a block. -/
def work : Call → Call
  | .returned result g => .returned result g
  | .running g job =>
    match job.task with
    | .events ((e, m) :: rest) => g.callEvent job e m rest
    | .events [] =>
      .running { g with books := { g.books with stats := .zero } }
        { job with task := .depths g.books.stats 0 g.books.totals.pools }
    | .depths record written (pool :: rest) => g.callPool job record written pool rest
    | .depths record written [] => .running g { job with task := .ledger record written }
    | .ledger record depthRows => g.callLedger job record depthRows
    | .commit stamp record depthRows => g.callCommit job stamp record depthRows

/-- Some number of pieces of work leads from one call to the other. -/
def Works (c c' : Call) : Prop := Relation.ReflTransGen (fun d d' => d' = d.work) c c'

theorem works_work {c c' : Call} (h : c.work.Works c') : c.Works c' := .head rfl h

/-! ### The pieces of an undisturbed block -/

/-- A stage that went through is followed by `next`, and a failed one by the return. -/
def after {α : Type} (next : α → Ingestor → Call) : Except (Stop IndexerError) α × Ingestor → Call
  | (.ok a, g) => next a g
  | (.error stop, g) => .returned (.error stop) g

variable (job : Job)

theorem works_events (events : List (Event × Metadata)) (g : Ingestor) :
    (running g { job with task := .events events }).Works
      (after (fun record g => running g { job with task := .depths record 0 g.books.totals.pools })
        (g.recordEvents events)) := by
  induction events generalizing g with
  | nil => exact works_work .refl
  | cons p rest ih =>
    obtain ⟨e, m⟩ := p
    refine works_work ?_
    show (g.callEvent job e m rest).Works _
    unfold Ingestor.callEvent Ingestor.recordEvents Recorder.recordAll
    cases hrecord : g.recorder.record g.store g.books e m with
    | mk result books =>
      cases result with
      | ok _ => exact ih { g with books }
      | error stop => exact .refl

theorem works_pools (record : RecordStats) (pools : List String) (g : Ingestor) (written : Nat) :
    (running g { job with task := .depths record written pools }).Works
      (match DepthHistory.recordPools g.books.totals job.block.nanos g.store
          ⟨g.depths, g.books.inserter, written⟩ pools with
      | (.ok _, p) =>
        .running { g.withInserter p.inserter with depths := p.history }
          { job with task := .ledger record p.written }
      | (.error e, p) =>
        .returned (.error (.error e)) { g.withInserter p.inserter with depths := p.history }) := by
  induction pools generalizing g written with
  | nil => exact works_work .refl
  | cons pool rest ih =>
    refine works_work ?_
    show (g.callPool job record written pool rest).Works _
    unfold Ingestor.callPool DepthHistory.recordPools
    cases hpool : DepthHistory.recordPool g.books.totals job.block.nanos g.store
        ⟨g.depths, g.books.inserter, written⟩ pool with
    | mk result p =>
      cases result with
      | ok _ => exact ih { g.withInserter p.inserter with depths := p.history } p.written
      | error e => exact .refl

theorem works_depths (record : RecordStats) (g : Ingestor) :
    (running g { job with task := .depths record 0 g.books.totals.pools }).Works
      (after (fun depthRows g => running g { job with task := .ledger record depthRows })
        (g.recordDepths job.block.nanos)) := by
  have hpools := works_pools job record g.books.totals.pools g 0
  unfold Ingestor.recordDepths DepthHistory.record
  cases hrecord : DepthHistory.recordPools g.books.totals job.block.nanos g.store
      ⟨g.depths, g.books.inserter, 0⟩ g.books.totals.pools with
  | mk result p =>
    rw [hrecord] at hpools
    cases result with
    | ok _ => exact hpools
    | error e => exact hpools

/-- The ledger row and the commit of a block that has its stamp. -/
theorem works_ledger (record : RecordStats) (depthRows : Nat) (g : Ingestor)
    {stamp : Option Ingestor.Stamp} (hstamp : g.stamp? job.block job.batchEnd = .ok stamp) :
    (running g { job with task := .ledger record depthRows }).Works
      (after (fun o g => returned (.ok o) g) (g.close job.block stamp job.demux record depthRows)) := by
  refine works_work ?_
  show (g.callLedger job record depthRows).Works _
  unfold Ingestor.callLedger Ingestor.close
  rw [hstamp]
  dsimp only
  cases hrow : g.recordBlock job.block (stamp.map Ingestor.Stamp.state) with
  | mk result g' =>
    cases result with
    | error stop => exact .refl
    | ok _ =>
      refine works_work ?_
      show (g'.callCommit job stamp record depthRows).Works _
      unfold Ingestor.callCommit
      dsimp only
      cases hcommit : g'.commitTrack (stamp.map Ingestor.Stamp.track) with
      | mk result g'' =>
        cases result with
        | error stop => exact .refl
        | ok flush =>
          dsimp only
          cases hnext : g''.advance job.block.height ⟨stamp.isSome, job.demux, record, depthRows, flush⟩ with
          | mk result g₃ => cases result <;> exact .refl

theorem works_finish (record : RecordStats) (g : Ingestor) :
    (running g { job with task := .depths record 0 g.books.totals.pools }).Works
      (after (fun o g => returned (.ok o) g) (g.finish job.block job.batchEnd job.demux record)) := by
  refine (works_depths job record g).trans ?_
  unfold Ingestor.finish
  cases g.recordDepths job.block.nanos with
  | mk result g =>
    cases result with
    | error stop => exact .refl
    | ok depthRows =>
      dsimp only [after]
      cases hstamp : g.stamp? job.block job.batchEnd with
      | error o =>
        refine works_work ?_
        show (g.callLedger job record depthRows).Works _
        unfold Ingestor.callLedger
        rw [hstamp]
        exact .refl
      | ok stamp => exact works_ledger job record depthRows g hstamp

theorem works_fill (b : Block) (batchEnd : Bool) (run : DemuxRun) (g : Ingestor) :
    (running g ⟨b, batchEnd, run.stats, .events run.delivered⟩).Works
      (after (fun o g => returned (.ok o) g) (g.fill b batchEnd run)) := by
  refine (works_events ⟨b, batchEnd, run.stats, .events run.delivered⟩ run.delivered g).trans ?_
  unfold Ingestor.fill
  cases g.recordEvents run.delivered with
  | mk result g =>
    cases result with
    | error stop => exact .refl
    | ok record => exact works_finish ⟨b, batchEnd, run.stats, .events run.delivered⟩ record g

/-- **Pieces**: an undisturbed call returns what processing the block gives. -/
theorem works_process (g : Ingestor) (b : Block) (batchEnd : Bool) :
    (g.call b batchEnd).Works (.returned (g.process b batchEnd).1 (g.process b batchEnd).2) := by
  unfold Ingestor.call Ingestor.process
  by_cases hheight : b.height = g.nextHeight
  · rw [if_neg (fun h => h hheight), if_neg (fun h => h hheight)]
    dsimp only
    cases (g.demux.run b).fault with
    | some o => exact .refl
    | none =>
      dsimp only
      cases (g.report (g.demux.run b).log).books.inserter.startBlock with
      | error e => exact .refl
      | ok i =>
        have hfill := works_fill b batchEnd (g.demux.run b) ((g.report (g.demux.run b).log).withInserter i)
        dsimp only
        cases hresult : ((g.report (g.demux.run b).log).withInserter i).fill b batchEnd (g.demux.run b) with
        | mk result g' =>
          rw [hresult] at hfill
          cases result <;> exact hfill
  · rw [if_pos hheight, if_pos hheight]
    exact .refl

end Call

end PoolIndexer
