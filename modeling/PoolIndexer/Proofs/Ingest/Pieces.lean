import PoolIndexer.Proofs.Ingest.BlockLog
import PoolIndexer.Proofs.Ingest.World
import PoolIndexer.Proofs.Record.Recorder

/-!
# Proofs.Ingest.Pieces — all that a piece of a block can do

`World.Worked` lists the outcomes of all pieces once: the ingestor goes on with these rows, totals and
depths, or it is gone and its store has no other rows than before.  `worked_work` says that there are
no others.  What a history keeps is then read off the list, and no other module looks into a piece.
-/

namespace PoolIndexer

namespace Ingestor

/-- The rows of the store and those held for it. -/
def rows (g : Ingestor) : List Row := g.store.rows ++ g.books.inserter.pending

def balances (g : Ingestor) : Balances := g.books.totals.balances

theorem rows_append {g : Ingestor} {books : Books} {added : List Row}
    (h : books.inserter.pending = g.books.inserter.pending ++ added) :
    ({ g with books } : Ingestor).rows = g.rows ++ added := by
  unfold rows
  rw [h, List.append_assoc]

theorem rows_same {g : Ingestor} {books : Books}
    (h : books.inserter.pending = g.books.inserter.pending) : ({ g with books } : Ingestor).rows = g.rows :=
  congrArg (g.store.rows ++ ·) h

/-! ### The calls behind the pieces -/

/-- The ledger row is taken and the block ends, or the store refuses the row and that is written down. -/
theorem recordBlock_cases {g : Ingestor} (hopen : g.books.inserter.Open) (b : Block)
    (state : Option (List UInt8)) :
    (∃ i, g.recordBlock b state = (.ok (), g.withInserter i) ∧ i.Closed ∧ i.block.ended ≠ 0 ∧
      i.strategy = g.books.inserter.strategy ∧ (g.withInserter i).rows = g.rows ++ [b.row state]) ∨
    ∃ f i, g.recordBlock b state = (.error (.error (.store f)), (g.withInserter i).insertFailed b.height (.store f)) ∧
      i.Open ∧ i.strategy = g.books.inserter.strategy ∧ (i.pending = g.books.inserter.pending ∨ i.pending = []) := by
  have hstrategy := Inserter.strategy_insertRows g.books.inserter g.store [b.row state]
  unfold recordBlock
  rw [Inserter.insert_eq_insertRows (b.check_row state)]
  rcases Inserter.insertRows_cases hopen g.store [b.row state] with
    ⟨i, hi, hopen', hpending⟩ | ⟨e, i, hi, -, -, hopen', hpending⟩ | ⟨e, i, hi, -, hopen', hpending⟩
  · obtain ⟨i', hend, hclosed, hended, hpending', hstrategy'⟩ := Inserter.endBlock_eq_ok hopen'
    rw [hi] at hstrategy ⊢
    simp only [hend]
    exact .inl ⟨i', rfl, hclosed, hended, hstrategy'.trans hstrategy, rows_append (hpending'.trans hpending)⟩
  · obtain ⟨-, f, rfl⟩ := Inserter.insertRows_error hopen hi
    rw [hi] at hstrategy ⊢
    exact .inr ⟨f, i, rfl, hopen', hstrategy, .inl hpending⟩
  · obtain ⟨-, f, rfl⟩ := Inserter.insertRows_error hopen hi
    rw [hi] at hstrategy ⊢
    exact .inr ⟨f, i, rfl, hopen', hstrategy, hpending⟩

/-- The stamp of a block has the totals as they are. -/
theorem stamp?_eq_ok {g : Ingestor} {b : Block} {batchEnd : Bool} {stamp : Option Stamp}
    (h : g.stamp? b batchEnd = .ok stamp) {s : Stamp} (hs : stamp = some s) :
    s.track = Track.ofBlock b g.books.totals ∧ Snapshot.write g.books.totals = .ok s.state := by
  unfold stamp? at h
  split at h
  · dsimp only at h
    cases hstate : (Track.ofBlock b g.books.totals).state with
    | error o =>
      rw [hstate] at h
      cases h
    | ok state =>
      rw [hstate] at h
      cases h
      cases hs
      exact ⟨rfl, hstate⟩
  · cases h
    cases hs

/-- The store once all that is held is in it. -/
def flushed (g : Ingestor) : Store := { g.store with rows := g.rows }

/-- Nothing is held any more, and all that was held is stored. -/
theorem rows_flushed {g : Ingestor} {i : Inserter} (hpending : i.pending = []) :
    ({ g.withInserter i with store := g.flushed } : Ingestor).rows = g.rows := by
  show g.rows ++ i.pending = g.rows
  rw [hpending, List.append_nil]

/-- A commit makes all that is held durable and publishes it, or the store refuses it and that is written down. -/
theorem commit_cases {g : Ingestor} (hclosed : g.books.inserter.Closed)
    (hended : g.books.inserter.block.ended ≠ 0) (t : Track) :
    (∃ stats i log, g.commit t =
        (.ok stats, (({ g.withInserter i with store := g.flushed } : Ingestor).report log).publish t stats) ∧
      i.Closed ∧ i.pending = [] ∧ i.strategy = g.books.inserter.strategy) ∨
    ∃ f i, g.commit t = (.error (.error (.store f)), (g.withInserter i).insertFailed t.height (.store f)) ∧
      i.Closed ∧ i.strategy = g.books.inserter.strategy ∧ (i.pending = g.books.inserter.pending ∨ i.pending = []) := by
  have hstrategy := Inserter.strategy_flush g.books.inserter g.store
  unfold commit
  rcases Inserter.flush_cases hclosed hended g.store with
    ⟨stats, i, hflush, hclosed', hpending, -⟩ | ⟨e, i, hflush, -, hclosed', hpending⟩
  · rw [hflush] at hstrategy ⊢
    exact .inl ⟨stats, i, _, rfl, hclosed', hpending, hstrategy⟩
  · obtain ⟨-, f, rfl⟩ := Inserter.flush_error hclosed hflush
    rw [hflush] at hstrategy ⊢
    exact .inr ⟨f, i, rfl, hclosed', hstrategy, hpending⟩

/-! ### The pieces -/

theorem offer_cases {g : Ingestor} (hclosed : g.books.inserter.Closed) (b : Block) (batchEnd : Bool) :
    g.offer b batchEnd = .down g.store ∨
    ∃ i log, b.height = g.nextHeight ∧ i.Open ∧ ((g.report log).withInserter i).rows = g.rows ∧
      g.offer b batchEnd = .busy ((g.report log).withInserter i)
        ⟨b, batchEnd, (g.demux.run b).stats, .events (g.demux.run b).delivered⟩ := by
  unfold offer
  by_cases hheight : b.height = g.nextHeight
  · rw [if_neg (fun h => h hheight)]
    dsimp only
    cases (g.demux.run b).fault with
    | some o => exact .inl rfl
    | none =>
      obtain ⟨i, hstart, hopen, hpending, -⟩ := Inserter.startBlock_eq_ok hclosed
      rw [hstart]
      exact .inr ⟨i, _, hheight, hopen, rows_same hpending, rfl⟩
  · rw [if_pos hheight]
    exact .inl rfl

end Ingestor

/-- Whether a block is open at this point of it. -/
def Task.Ready (g : Ingestor) : Task → Prop
  | .events _ | .depths _ _ _ | .ledger _ _ => g.books.inserter.Open
  | .commit _ _ _ => g.books.inserter.Closed ∧ g.books.inserter.block.ended ≠ 0

namespace World

def Ready : World → Prop
  | .down _ => True
  | .idle g => g.books.inserter.Closed
  | .busy g job => job.task.Ready g

/-- The next piece is the row of a pool that has moved, and it is refused. -/
def RefusesDepthRow : World → Prop
  | .busy g ⟨b, _, _, .depths _ _ (pool :: _)⟩ =>
    g.books.totals.get pool ≠ g.depths.last.get pool ∧
      ∃ e i, DepthHistory.insertRow pool (g.books.totals.get pool) b.nanos g.store g.books.inserter =
        (.error e, i) ∧ e.isRowRefusal = true
  | _ => False

/-- What there is after the next piece of work. -/
inductive Worked : World → World → Prop
  | down (s : Store) : Worked (.down s) (.down s)
  | idle (g : Ingestor) : Worked (.idle g) (.idle g)
  /-- The ingestor is gone, and at most its failure is written down. -/
  | gone (g : Ingestor) (job : Job) (constants : List (String × String)) :
      Worked (.busy g job) (.down { g.store with constants })
  /-- An event is recorded with all its rows and changes. -/
  | event {g : Ingestor} {job : Job} {e : Event} {m : Metadata} {rest : List (Event × Metadata)}
      {books : Books} {rows : List Row} (hopen : books.inserter.Open)
      (hrows : e.rows g.recorder.natives m = .ok rows)
      (hadded : ({ g with books } : Ingestor).rows = g.rows ++ rows)
      (hfault : (g.books.totals.applyAll
        (e.changes g.recorder.natives g.recorder.coinKeptBelow m.height)).fault = none)
      (htotals : books.totals = (g.books.totals.applyAll
        (e.changes g.recorder.natives g.recorder.coinKeptBelow m.height)).totals) :
      Worked (.busy g { job with task := .events ((e, m) :: rest) })
        (.busy { g with books } { job with task := .events rest })
  /-- An event is left out. -/
  | leaveOut {g : Ingestor} {job : Job} {p : Event × Metadata} {rest : List (Event × Metadata)}
      {books : Books} (hopen : books.inserter.Open) (hrows : ({ g with books } : Ingestor).rows = g.rows)
      (htotals : books.totals = g.books.totals) :
      Worked (.busy g { job with task := .events (p :: rest) })
        (.busy { g with books } { job with task := .events rest })
  | eventsDone (g : Ingestor) (job : Job) :
      Worked (.busy g { job with task := .events [] })
        (.busy { g with books := { g.books with stats := .zero } }
          { job with task := .depths g.books.stats 0 g.books.totals.pools })
  /-- A pool that has moved gets its row. -/
  | depthRow {g : Ingestor} {job : Job} {record : RecordStats} {written : Nat} {pool : String}
      {rest : List String} {i : Inserter} (hopen : i.Open)
      (hmoved : g.books.totals.get pool ≠ g.depths.last.get pool)
      (hadded : (g.withInserter i).rows =
        g.rows ++ [DepthHistory.row pool (g.books.totals.get pool) job.block.nanos]) :
      Worked (.busy g { job with task := .depths record written (pool :: rest) })
        (.busy { g.withInserter i with depths := ⟨g.depths.last.set pool (g.books.totals.get pool)⟩ }
          { job with task := .depths record (written + 1) rest })
  /-- A pool that has not moved, or whose row is refused, is passed over. -/
  | passOver {g : Ingestor} {job : Job} {record : RecordStats} {written : Nat} {pool : String}
      {rest : List String} {i : Inserter} (hopen : i.Open) (hrows : (g.withInserter i).rows = g.rows)
      (hstill : g.books.totals.get pool = g.depths.last.get pool ∨
        (World.busy g { job with task := .depths record written (pool :: rest) }).RefusesDepthRow) :
      Worked (.busy g { job with task := .depths record written (pool :: rest) })
        (.busy (g.withInserter i) { job with task := .depths record written rest })
  | depthsDone (g : Ingestor) (job : Job) (record : RecordStats) (written : Nat) :
      Worked (.busy g { job with task := .depths record written [] })
        (.busy g { job with task := .ledger record written })
  /-- The block gets its row in the ledger, with the totals if it has a stamp. -/
  | ledger {g : Ingestor} {job : Job} {record : RecordStats} {depthRows : Nat}
      {stamp : Option Ingestor.Stamp} {i : Inserter} (hclosed : i.Closed) (hended : i.block.ended ≠ 0)
      (hadded : (g.withInserter i).rows = g.rows ++ [job.block.row (stamp.map Ingestor.Stamp.state)])
      (hstate : ∀ s, stamp = some s → Snapshot.write g.books.totals = .ok s.state) :
      Worked (.busy g { job with task := .ledger record depthRows })
        (.busy (g.withInserter i) { job with task := .commit stamp record depthRows })
  /-- All that is held is stored, but there is no next height. -/
  | lastBlock (g : Ingestor) (job : Job) (s : Ingestor.Stamp) (record : RecordStats) (depthRows : Nat) :
      Worked (.busy g { job with task := .commit (some s) record depthRows }) (.down g.flushed)
  /-- A block with a stamp is stored with all that is held. -/
  | commit {g g' : Ingestor} {job : Job} {stamp : Option Ingestor.Stamp} {record : RecordStats}
      {depthRows : Nat} (hstore : g'.store = if stamp.isSome then g.flushed else g.store)
      (hrows : g'.rows = g.rows) (hclosed : g'.books.inserter.Closed)
      (hnext : g'.nextHeight.toInt = g.nextHeight.toInt + 1)
      (htotals : g'.books.totals = g.books.totals) (hdepths : g'.depths = g.depths)
      (hdemux : g'.demux = g.demux) (hrecorder : g'.recorder = g.recorder) :
      Worked (.busy g { job with task := .commit stamp record depthRows }) (.idle g')

section

variable {g : Ingestor} (job : Job)

theorem worked_event (hopen : g.books.inserter.Open) (e : Event) (m : Metadata)
    (rest : List (Event × Metadata)) :
    Worked (.busy g { job with task := .events ((e, m) :: rest) }) (g.workEvent job e m rest) := by
  unfold Ingestor.workEvent
  cases hrecord : g.recorder.record g.store g.books e m with
  | mk result books =>
    cases result with
    | error stop => exact .gone g _ g.store.constants
    | ok _ =>
      obtain ⟨hopen', ⟨rows, hrows, hpending, hfault, htotals⟩ | ⟨hpending, htotals⟩⟩ :=
        Recorder.record_eq_ok hopen hrecord
      · exact .event hopen' hrows (Ingestor.rows_append hpending) hfault htotals
      · exact .leaveOut hopen' (Ingestor.rows_same hpending) htotals

theorem worked_pool (hopen : g.books.inserter.Open) (record : RecordStats) (written : Nat) (pool : String)
    (rest : List String) :
    Worked (.busy g { job with task := .depths record written (pool :: rest) })
      (g.workPool job record written pool rest) := by
  unfold Ingestor.workPool
  rcases DepthHistory.recordPool_cases g.books.totals job.block.nanos g.store
      (p := ⟨g.depths, g.books.inserter, written⟩) hopen pool with
    ⟨heq, hp⟩ | ⟨hne, ⟨i, hp, hopen', hpending⟩ | ⟨e, i, hi, hrefusal, hp, hopen', hpending⟩ | ⟨e, i, hp, -⟩⟩
  · simp only [hp]
    exact .passOver (i := g.books.inserter) hopen rfl (.inl heq)
  · simp only [hp]
    exact .depthRow hopen' hne (Ingestor.rows_append hpending)
  · simp only [hp]
    exact .passOver hopen' (Ingestor.rows_same hpending) (.inr ⟨hne, e, i, hi, hrefusal⟩)
  · simp only [hp]
    exact .gone g _ g.store.constants

theorem worked_ledger (hopen : g.books.inserter.Open) (record : RecordStats) (depthRows : Nat) :
    Worked (.busy g { job with task := .ledger record depthRows }) (g.workLedger job record depthRows) := by
  unfold Ingestor.workLedger
  cases hstamp : g.stamp? job.block job.batchEnd with
  | error o => exact .gone g _ g.store.constants
  | ok stamp =>
    dsimp only
    rcases Ingestor.recordBlock_cases hopen job.block (stamp.map Ingestor.Stamp.state) with
      ⟨i, hrow, hclosed, hended, -, hrows⟩ | ⟨e, i, hrow, -⟩
    · rw [hrow]
      exact .ledger hclosed hended hrows fun s hs => (Ingestor.stamp?_eq_ok hstamp hs).2
    · rw [hrow]
      exact .gone g _ _

/-- After a block that went through the ingestor waits for the next one, if there is a next height. -/
theorem worked_advance (g' : Ingestor) {stamp : Option Ingestor.Stamp}
    (hstore : g'.store = if stamp.isSome then g.flushed else g.store) (hrows : g'.rows = g.rows)
    (hclosed : g'.books.inserter.Closed) (hheight : g'.nextHeight = g.nextHeight)
    (htotals : g'.books.totals = g.books.totals) (hdepths : g'.depths = g.depths)
    (hdemux : g'.demux = g.demux) (hrecorder : g'.recorder = g.recorder) (record : RecordStats)
    (depthRows : Nat) (o : BlockOutcome) :
    Worked (.busy g { job with task := .commit stamp record depthRows })
      (Ingestor.settle (g'.advance job.block.height o)) := by
  unfold Ingestor.advance
  cases hnext : Checked.add g'.nextHeight 1 with
  | error f =>
    show Worked _ (.down g'.store)
    rw [hstore]
    cases stamp with
    | none => exact .gone g _ g.store.constants
    | some s => exact .lastBlock g job s record depthRows
  | ok next =>
    exact .commit hstore hrows hclosed (hheight ▸ Checked.add_eq_ok_iff.1 hnext) htotals hdepths hdemux
      hrecorder

theorem worked_commit (hclosed : g.books.inserter.Closed) (hended : g.books.inserter.block.ended ≠ 0)
    (stamp : Option Ingestor.Stamp) (record : RecordStats) (depthRows : Nat) :
    Worked (.busy g { job with task := .commit stamp record depthRows })
      (g.workCommit job stamp record depthRows) := by
  unfold Ingestor.workCommit
  cases stamp with
  | none => exact worked_advance job g rfl rfl hclosed rfl rfl rfl rfl rfl record depthRows _
  | some s =>
    simp only [Ingestor.commitTrack, Option.map_some]
    rcases Ingestor.commit_cases hclosed hended s.track with
      ⟨stats, i, log, hcommit, hclosed', hpending, -⟩ | ⟨e, i, hcommit, -⟩
    · let g' := (({ g.withInserter i with store := g.flushed } : Ingestor).report log).publish s.track stats
      have hrows : g'.rows = g.rows := Ingestor.rows_flushed hpending
      rw [hcommit]
      exact worked_advance job g' rfl hrows hclosed' rfl rfl rfl rfl rfl record depthRows _
    · rw [hcommit]
      exact .gone g _ _

end

theorem worked_work {w : World} (h : w.Ready) : w.Worked w.work := by
  cases w with
  | down s => exact .down s
  | idle g => exact .idle g
  | busy g job =>
    obtain ⟨b, batchEnd, demux, task⟩ := job
    let job : Job := ⟨b, batchEnd, demux, task⟩
    cases task with
    | events rest =>
      cases rest with
      | nil => exact .eventsDone g job
      | cons p rest => exact worked_event job h p.1 p.2 rest
    | depths record written rest =>
      cases rest with
      | nil => exact .depthsDone g job record written
      | cons pool rest => exact worked_pool job h record written pool rest
    | ledger record depthRows => exact worked_ledger job h record depthRows
    | commit stamp record depthRows => exact worked_commit job h.1 h.2 stamp record depthRows

end World

end PoolIndexer
