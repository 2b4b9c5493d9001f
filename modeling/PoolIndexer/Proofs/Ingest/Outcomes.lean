import PoolIndexer.Proofs.Ingest.Pieces

/-!
# Proofs.Ingest.Outcomes — all that a piece of a call can do

* `Ingestor.Stays`: nothing is stored, published or held for the ledger that was not there before.
* `Call.Worked`: the outcomes of all pieces of a call, the failed ones included.  `worked_work` says that
  there are no others.
* `Ingestor.call_cases`: how a call begins.

What holds at every point of a call is read off this list, as what a history keeps is read off
`World.Worked`; here the ingestor and the failure are there also when the call comes back with an error.
-/

namespace PoolIndexer

/-! ### Outcomes -/

/-- As far as the store, readers and the ledger are concerned the ingestor is where it was. -/
structure Ingestor.Stays (g g' : Ingestor) : Prop where
  store : g'.store = g.store
  published : g'.published = g.published
  nextHeight : g'.nextHeight = g.nextHeight
  strategy : g'.books.inserter.strategy = g.books.inserter.strategy
  held : blockRows g'.books.inserter.pending ⊆ blockRows g.books.inserter.pending

theorem Ingestor.Stays.refl (g : Ingestor) : g.Stays g := ⟨rfl, rfl, rfl, rfl, List.Subset.refl _⟩

/-- A task that takes rows of a block that is open. -/
def Task.Fills (g : Ingestor) : Task → Prop
  | .events _ | .depths _ _ _ | .ledger _ _ => g.books.inserter.Open
  | .commit _ _ _ => False

namespace Call

/-- Whether a block is open at this point of the call. -/
def Ready : Call → Prop
  | .running g job => job.task.Ready g
  | .returned _ _ => True

/-- What there is after the next piece of a call. -/
inductive Worked : Call → Call → Prop
  | returned (result : Except (Stop IndexerError) BlockOutcome) (g : Ingestor) :
      Worked (.returned result g) (.returned result g)
  /-- An event or a pool is dealt with, or there are none left. -/
  | fill {g g' : Ingestor} {job : Job} {task : Task} (hstays : g.Stays g') (hfills : task.Fills g') :
      Worked (.running g job) (.running g' { job with task })
  /-- The call fails and nothing is written down.  Unless there is an overflow, the strategy is tolerant. -/
  | fail {g g' : Ingestor} {job : Job} {stop : Stop IndexerError} (hstays : g.Stays g')
      (hopen : g'.books.inserter.Open) (htolerant : ∀ e, stop = .error e → g.books.inserter.strategy = .tolerant) :
      Worked (.running g job) (.returned (.error stop) g')
  /-- The store refuses the ledger row or the commit, and that is written down. -/
  | insertFailed {g : Ingestor} {job : Job} {i : Inserter} (height : Int64) (f : StoreError)
      (hstays : g.Stays (g.withInserter i)) (hready : i.Open ∨ i.Closed) :
      Worked (.running g job)
        (.returned (.error (.error (.store f))) ((g.withInserter i).insertFailed height (.store f)))
  /-- The block gets its row in the ledger, and its stamp has the totals as they are. -/
  | ledger {g : Ingestor} {job : Job} {record : RecordStats} {depthRows : Nat} {stamp : Option Ingestor.Stamp}
      {i : Inserter} (hclosed : i.Closed) (hended : i.block.ended ≠ 0)
      (hstrategy : i.strategy = g.books.inserter.strategy)
      (hadded : (g.withInserter i).rows = g.rows ++ [job.block.row (stamp.map Ingestor.Stamp.state)])
      (hstamp : ∀ s, stamp = some s →
        s.track = Track.ofBlock job.block g.books.totals ∧ Snapshot.write g.books.totals = .ok s.state) :
      Worked (.running g { job with task := .ledger record depthRows })
        (.running (g.withInserter i) { job with task := .commit stamp record depthRows })
  /-- With a stamp all that is held is stored, and the track is published.  Then the call comes back, unless
  there is no next height. -/
  | commit {g g' : Ingestor} {job : Job} {stamp : Option Ingestor.Stamp} {record : RecordStats} {depthRows : Nat}
      {result : Except (Stop IndexerError) BlockOutcome} (hresult : ∀ e, result ≠ .error (.error e))
      (hstore : g'.store = if stamp.isSome then g.flushed else g.store)
      (hpublished : g'.published = (stamp.map Ingestor.Stamp.track).or g.published) (hrows : g'.rows = g.rows)
      (hclosed : g'.books.inserter.Closed) (hstrategy : g'.books.inserter.strategy = g.books.inserter.strategy)
      (hnext : g.nextHeight.toInt ≤ g'.nextHeight.toInt) :
      Worked (.running g { job with task := .commit stamp record depthRows }) (.returned result g')

/-! ### There are no others -/

section

variable {g : Ingestor} (job : Job)

theorem worked_event (hopen : g.books.inserter.Open) (e : Event) (m : Metadata) (rest : List (Event × Metadata)) :
    Worked (.running g { job with task := .events ((e, m) :: rest) }) (g.callEvent job e m rest) := by
  obtain ⟨hopen', hadded⟩ := Recorder.record_open (r := g.recorder) (s := g.store) (e := e) (m := m) hopen
  have hstrategy := Recorder.strategy_record g.recorder g.store g.books e m
  -- the rows of an event are never of the ledger
  have hheld : blockRows (g.recorder.record g.store g.books e m).2.inserter.pending ⊆
      blockRows g.books.inserter.pending := by
    intro row hrow
    obtain ⟨hmem, htable⟩ := List.mem_filter.1 hrow
    rcases hadded row hmem with hold | ⟨rows, hrows, hnew⟩
    · exact List.mem_filter.2 ⟨hold, htable⟩
    · have hnone : row ∈ blockRows rows := List.mem_filter.2 ⟨hnew, htable⟩
      rw [Event.blockRows_rows hrows] at hnone
      cases hnone
  unfold Ingestor.callEvent
  cases hrecord : g.recorder.record g.store g.books e m with
  | mk result books =>
    rw [hrecord] at hopen' hstrategy hheld
    have hstays : g.Stays { g with books } := ⟨rfl, rfl, rfl, hstrategy, hheld⟩
    cases result with
    | ok _ => exact .fill hstays hopen'
    | error stop =>
      refine .fail hstays hopen' fun fault hstop => ?_
      subst hstop
      exact (Recorder.record_error hopen hrecord).1

theorem worked_pool (hopen : g.books.inserter.Open) (record : RecordStats) (written : Nat) (pool : String)
    (rest : List String) :
    Worked (.running g { job with task := .depths record written (pool :: rest) })
      (g.callPool job record written pool rest) := by
  obtain ⟨hopen', hadded⟩ := DepthHistory.recordPool_open g.books.totals job.block.nanos g.store
    (p := ⟨g.depths, g.books.inserter, written⟩) hopen pool
  have hstrategy := DepthHistory.strategy_recordPool g.books.totals job.block.nanos g.store
    ⟨g.depths, g.books.inserter, written⟩ pool
  have hheld := blockRows_subset hadded
  rw [blockRows_append, blockRows_depthRow, List.append_nil] at hheld
  unfold Ingestor.callPool
  cases hpool : DepthHistory.recordPool g.books.totals job.block.nanos g.store
      ⟨g.depths, g.books.inserter, written⟩ pool with
  | mk result p =>
    rw [hpool] at hopen' hstrategy hheld
    have hstays : g.Stays { g.withInserter p.inserter with depths := p.history } := ⟨rfl, rfl, rfl, hstrategy, hheld⟩
    cases result with
    | ok _ => exact .fill hstays hopen'
    | error e => exact .fail hstays hopen' fun _ _ => (DepthHistory.recordPool_error hopen hpool).1

theorem stays_withInserter {i : Inserter} (hstrategy : i.strategy = g.books.inserter.strategy)
    (hpending : i.pending = g.books.inserter.pending ∨ i.pending = []) : g.Stays (g.withInserter i) :=
  ⟨rfl, rfl, rfl, hstrategy, blockRows_subset (Inserter.subset_of_kept hpending)⟩

theorem worked_ledger (hopen : g.books.inserter.Open) (record : RecordStats) (depthRows : Nat) :
    Worked (.running g { job with task := .ledger record depthRows }) (g.callLedger job record depthRows) := by
  unfold Ingestor.callLedger
  cases hstamp : g.stamp? job.block job.batchEnd with
  | error o => exact .fail (.refl g) hopen fun e he => by cases he
  | ok stamp =>
    dsimp only
    rcases Ingestor.recordBlock_cases hopen job.block (stamp.map Ingestor.Stamp.state) with
      ⟨i, hrow, hclosed, hended, hstrategy, hrows⟩ | ⟨f, i, hrow, hopen', hstrategy, hpending⟩
    · rw [hrow]
      exact .ledger hclosed hended hstrategy hrows fun s hs => Ingestor.stamp?_eq_ok hstamp hs
    · rw [hrow]
      exact .insertFailed job.block.height f (stays_withInserter hstrategy hpending) (.inl hopen')

/-- An ingestor that has committed goes on to the next height, if there is one. -/
theorem worked_advance (g' : Ingestor) {stamp : Option Ingestor.Stamp}
    (hstore : g'.store = if stamp.isSome then g.flushed else g.store)
    (hpublished : g'.published = (stamp.map Ingestor.Stamp.track).or g.published) (hrows : g'.rows = g.rows)
    (hclosed : g'.books.inserter.Closed) (hstrategy : g'.books.inserter.strategy = g.books.inserter.strategy)
    (hheight : g'.nextHeight = g.nextHeight) (record : RecordStats) (depthRows : Nat) (o : BlockOutcome) :
    Worked (.running g { job with task := .commit stamp record depthRows })
      (.returned (g'.advance job.block.height o).1 (g'.advance job.block.height o).2) := by
  unfold Ingestor.advance
  cases hnext : Checked.add g'.nextHeight 1 with
  | error f =>
    have hle : g.nextHeight.toInt ≤ g'.nextHeight.toInt := hheight ▸ Int.le_refl _
    exact .commit (fun e he => by cases he) hstore hpublished hrows hclosed hstrategy hle
  | ok next =>
    have hle : g.nextHeight.toInt ≤ next.toInt := by
      rw [Checked.add_eq_ok_iff.1 hnext, hheight]
      exact Int.le_add_one (Int.le_refl _)
    exact .commit (fun e he => by cases he) hstore hpublished hrows hclosed hstrategy hle

theorem worked_commit (hclosed : g.books.inserter.Closed) (hended : g.books.inserter.block.ended ≠ 0)
    (stamp : Option Ingestor.Stamp) (record : RecordStats) (depthRows : Nat) :
    Worked (.running g { job with task := .commit stamp record depthRows })
      (g.callCommit job stamp record depthRows) := by
  unfold Ingestor.callCommit
  cases stamp with
  | none => exact worked_advance job g rfl rfl rfl hclosed rfl rfl record depthRows _
  | some s =>
    simp only [Ingestor.commitTrack, Option.map_some]
    rcases Ingestor.commit_cases hclosed hended s.track with
      ⟨stats, i, log, hcommit, hclosed', hpending, hstrategy⟩ | ⟨f, i, hcommit, hclosed', hstrategy, hpending⟩
    · let g' := (({ g.withInserter i with store := g.flushed } : Ingestor).report log).publish s.track stats
      have hrows : g'.rows = g.rows := Ingestor.rows_flushed hpending
      rw [hcommit]
      exact worked_advance job g' rfl rfl hrows hclosed' hstrategy rfl record depthRows _
    · rw [hcommit]
      exact .insertFailed s.track.height f (stays_withInserter hstrategy hpending) (.inr hclosed')

end

theorem worked_work {c : Call} (h : c.Ready) : c.Worked c.work := by
  cases c with
  | returned result g => exact .returned result g
  | running g job =>
    obtain ⟨b, batchEnd, demux, task⟩ := job
    let job : Job := ⟨b, batchEnd, demux, task⟩
    cases task with
    | events rest =>
      cases rest with
      | nil => exact .fill ⟨rfl, rfl, rfl, rfl, List.Subset.refl _⟩ h
      | cons p rest => exact worked_event job h p.1 p.2 rest
    | depths record written rest =>
      cases rest with
      | nil => exact .fill (.refl g) h
      | cons pool rest => exact worked_pool job h record written pool rest
    | ledger record depthRows => exact worked_ledger job h record depthRows
    | commit stamp record depthRows => exact worked_commit job h.1 h.2 stamp record depthRows

end Call

/-! ### How a call begins -/

/-- A call that the ingestor does not take in comes back at once, and never for the store. -/
theorem Ingestor.call_cases {g : Ingestor} (hready : g.books.inserter.Open ∨ g.books.inserter.Closed) (b : Block)
    (batchEnd : Bool) :
    (∃ stop g', g.call b batchEnd = .returned (.error stop) g' ∧ g.Stays g' ∧
      (g'.books.inserter.Open ∨ g'.books.inserter.Closed) ∧ ∀ f, stop ≠ .error (.store f)) ∨
    ∃ g' job, g.call b batchEnd = .running g' job ∧ g.Stays g' ∧ job.block.height = g.nextHeight ∧
      job.task.Fills g' := by
  have hhere : ∀ log, g.Stays (g.report log) := fun _ => ⟨rfl, rfl, rfl, rfl, List.Subset.refl _⟩
  unfold call
  by_cases hheight : b.height = g.nextHeight
  · rw [if_neg (fun hne => hne hheight)]
    dsimp only
    cases (g.demux.run b).fault with
    | some o => exact .inl ⟨_, _, rfl, hhere _, hready, fun f hf => by cases hf⟩
    | none =>
      dsimp only
      cases hstart : (g.report (g.demux.run b).log).books.inserter.startBlock with
      | error e => exact .inl ⟨_, _, rfl, hhere _, hready, fun f hf => by cases hf⟩
      | ok i =>
        have hclosed : g.books.inserter.Closed := by
          refine hready.resolve_left fun hopen => ?_
          obtain ⟨e, he⟩ := Inserter.startBlock_of_open hopen
          cases he.symm.trans hstart
        obtain ⟨i', hstart', hopen', hpending, hstrategy⟩ := Inserter.startBlock_eq_ok hclosed
        obtain rfl : i' = i := Except.ok.inj (hstart'.symm.trans hstart)
        refine .inr ⟨_, _, rfl, ⟨rfl, rfl, rfl, hstrategy, ?_⟩, hheight, hopen'⟩
        exact show blockRows i'.pending ⊆ _ from hpending ▸ List.Subset.refl _
  · rw [if_pos hheight]
    exact .inl ⟨_, _, rfl, .refl g, hready, fun f hf => by cases hf⟩

end PoolIndexer
