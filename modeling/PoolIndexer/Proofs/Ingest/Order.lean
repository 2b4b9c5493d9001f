import PoolIndexer.Proofs.Ingest.Journal

/-!
# Proofs.Ingest.Order — who complains about the order of blocks

An ingestor refuses a block for its height before it does anything else, and for no other reason.  A
block that goes through moves the next height on by one.  So blocks whose heights count up from the
next height are never out of order, whatever else goes wrong with them.
-/

namespace PoolIndexer

/-! ### Messages in a row -/

theorem Consecutive.append_singleton {start : Int} {queue : List BlockMessage} {m : BlockMessage}
    (h : Consecutive start queue) (hm : m.block.height.toInt = start + queue.length) :
    Consecutive start (queue ++ [m]) := by
  induction queue generalizing start with
  | nil => exact ⟨by simpa using hm, trivial⟩
  | cons m' rest ih =>
    refine ⟨h.1, ih h.2 ?_⟩
    rw [hm, List.length_cons]
    omega

/-- The heights of messages in a row are the numbers from `start` on. -/
theorem Consecutive.map_height {start : Int} {queue : List BlockMessage} (h : Consecutive start queue) :
    queue.map (fun m => m.block.height.toInt) = (List.range queue.length).map fun i : Nat => start + i := by
  induction queue generalizing start with
  | nil => rfl
  | cons m rest ih =>
    rw [List.map_cons, List.length_cons, List.range_succ_eq_map, List.map_cons, List.map_map, ih h.2, h.1]
    refine congrArg₂ List.cons (Int.add_zero start).symm (List.map_congr_left fun i _ => ?_)
    show start + 1 + (i : Int) = start + ((i + 1 : Nat) : Int)
    omega

/-! ### Failures to write -/

/-- The kinds of error that writing rows ends with. -/
def IndexerError.OfWriting : IndexerError → Prop
  | .insert _ | .store _ => True
  | .chain _ | .snapshot _ | .configuration _ | .heightOutOfOrder _ _ | .other _ => False

/-- An overflow, or an error from writing rows. -/
def Stop.OfWriting : Stop IndexerError → Prop
  | .overflow _ => True
  | .error e => e.OfWriting

namespace Inserter

variable {i i' : Inserter} {s : Store} {e : IndexerError}

theorem ofWriting_insertRows {group : List Row} (h : i.insertRows s group = (.error e, i')) :
    e.OfWriting := by
  cases i with
  | batch b =>
    unfold insertRows at h
    dsimp only at h
    split at h
    · cases h
    · cases h
      trivial
  | tolerant w =>
    unfold insertRows StagedRows.push at h
    dsimp only at h
    split at h
    · cases h
      trivial
    · split at h
      · cases h
      · split at h
        · cases h
          trivial
        · split at h <;> cases h <;> trivial

theorem ofWriting_insert {table : String} {columns : List String} {values : List Value}
    (h : i.insert s table columns values = (.error e, i')) : e.OfWriting := by
  unfold Inserter.insert at h
  split at h
  · cases h
    trivial
  · exact ofWriting_insertRows h

theorem ofWriting_flush {s' : Store} (h : i.flush s = (.error e, i', s')) : e.OfWriting := by
  cases i with
  | batch b =>
    unfold Inserter.flush RowBuffer.flush at h
    dsimp only at h
    split at h
    · cases h
    · rename_i fault hflush
      cases h
      split at hflush
      · cases hflush
      · split at hflush
        · cases hflush
          trivial
        · cases hflush
  | tolerant w =>
    unfold Inserter.flush StagedRows.flush at h
    dsimp only at h
    split at h
    · cases h
    · rename_i fault w' hflush
      cases h
      split at hflush
      · cases hflush
        trivial
      · split at hflush
        · cases hflush
        · split at hflush
          · cases hflush
          · cases hflush
            trivial

end Inserter

namespace Recorder

variable {r : Recorder} {s : Store}

theorem ofWriting_record {b b' : Books} {e : Event} {m : Metadata} {stop : Stop IndexerError}
    (h : r.record s b e m = (.error stop, b')) : stop.OfWriting := by
  unfold Recorder.record Recorder.insert at h
  cases hrows : e.rows r.natives m with
  | error fault =>
    rw [hrows] at h
    cases fault with
    | overflow o =>
      cases h
      trivial
    | error fault => cases h
  | ok rows =>
    rw [hrows] at h
    dsimp only at h
    cases hinsert : b.inserter.insertRows s rows with
    | mk result i =>
      rw [hinsert] at h
      cases result with
      | ok _ =>
        dsimp only at h
        split at h
        · cases h
          trivial
        · cases h
      | error fault =>
        dsimp only at h
        split at h
        · cases h
        · cases h
          exact Inserter.ofWriting_insertRows hinsert

theorem ofWriting_recordAll {events : List (Event × Metadata)} {b b' : Books} {stop : Stop IndexerError}
    (h : r.recordAll s b events = (.error stop, b')) : stop.OfWriting := by
  induction events generalizing b with
  | nil => cases h
  | cons p rest ih =>
    unfold recordAll at h
    cases hrecord : r.record s b p.1 p.2 with
    | mk result b'' =>
      rw [hrecord] at h
      cases result with
      | ok _ => exact ih h
      | error stop' =>
        cases h
        exact ofWriting_record hrecord

end Recorder

namespace DepthHistory

variable {totals : Totals} {timestamp : Int64} {s : Store} {p p' : Progress} {e : IndexerError}

theorem ofWriting_recordPool {pool : String}
    (h : recordPool totals timestamp s p pool = (.error e, p')) : e.OfWriting := by
  unfold recordPool at h
  dsimp only at h
  split at h
  · cases h
  · split at h
    · cases h
    · rename_i fault i hinsert
      have hwriting := Inserter.ofWriting_insert hinsert
      split at h
      · cases h
      · cases h
        exact hwriting

theorem ofWriting_recordPools {pools : List String}
    (h : recordPools totals timestamp s p pools = (.error e, p')) : e.OfWriting := by
  induction pools generalizing p with
  | nil => cases h
  | cons pool rest ih =>
    unfold recordPools at h
    cases hpool : recordPool totals timestamp s p pool with
    | mk result p'' =>
      rw [hpool] at h
      cases result with
      | ok _ => exact ih h
      | error fault =>
        cases h
        exact ofWriting_recordPool hpool

end DepthHistory

/-! ### The stages of a block -/

namespace Ingestor

/-- A stage that is through has not touched the next height; one that is not has failed to write. -/
def Halts {α : Type} (g : Ingestor) : Except (Stop IndexerError) α × Ingestor → Prop
  | (.ok _, g') => g'.nextHeight = g.nextHeight
  | (.error stop, _) => stop.OfWriting

theorem halts_recordEvents (g : Ingestor) (events : List (Event × Metadata)) :
    g.Halts (g.recordEvents events) := by
  unfold recordEvents
  cases hrecord : g.recorder.recordAll g.store g.books events with
  | mk result books =>
    cases result with
    | ok _ => exact rfl
    | error stop => exact Recorder.ofWriting_recordAll hrecord

theorem halts_recordDepths (g : Ingestor) (timestamp : Int64) : g.Halts (g.recordDepths timestamp) := by
  unfold recordDepths DepthHistory.record
  cases hrecord : DepthHistory.recordPools g.books.totals timestamp g.store
      ⟨g.depths, g.books.inserter, 0⟩ g.books.totals.pools with
  | mk result p =>
    cases result with
    | ok _ => exact rfl
    | error e => exact DepthHistory.ofWriting_recordPools hrecord

theorem halts_recordBlock (g : Ingestor) (b : Block) (state : Option (List UInt8)) :
    g.Halts (g.recordBlock b state) := by
  unfold recordBlock
  cases hinsert : g.books.inserter.insert g.store "block_log" ledgerColumns (ledgerValues b state) with
  | mk result i =>
    cases result with
    | error e => exact Inserter.ofWriting_insert hinsert
    | ok _ =>
      dsimp only
      cases i.endBlock with
      | error e => exact trivial
      | ok i' => exact rfl

theorem halts_commitTrack (g : Ingestor) (track : Option Track) : g.Halts (g.commitTrack track) := by
  cases track with
  | none => exact rfl
  | some t =>
    unfold commitTrack commit
    dsimp only
    cases hflush : g.books.inserter.flush g.store with
    | mk result rest =>
      obtain ⟨i, s⟩ := rest
      cases result with
      | error e => exact Inserter.ofWriting_flush hflush
      | ok stats => exact rfl

/-- A block that is through moves the next height on by one. -/
def Advances (g : Ingestor) : Except (Stop IndexerError) BlockOutcome × Ingestor → Prop
  | (.ok _, g') => g'.nextHeight.toInt = g.nextHeight.toInt + 1
  | (.error stop, _) => stop.OfWriting

theorem Advances.of_eq {g g' : Ingestor} {result : Except (Stop IndexerError) BlockOutcome × Ingestor}
    (h : g'.Advances result) (hg : g'.nextHeight = g.nextHeight) : g.Advances result := by
  unfold Advances at h ⊢
  rw [← hg]
  exact h

theorem advances_advance (g : Ingestor) (height : Int64) (o : BlockOutcome) :
    g.Advances (g.advance height o) := by
  unfold advance
  cases hnext : Checked.add g.nextHeight 1 with
  | error f => exact trivial
  | ok next => exact Checked.add_eq_ok_iff.1 hnext

theorem advances_close (g : Ingestor) (b : Block) (stamp : Option Stamp) (demux : DemuxStats)
    (record : RecordStats) (depthRows : Nat) : g.Advances (g.close b stamp demux record depthRows) := by
  unfold close
  have hrow := halts_recordBlock g b (stamp.map Stamp.state)
  cases hrecord : g.recordBlock b (stamp.map Stamp.state) with
  | mk result g' =>
    rw [hrecord] at hrow
    cases result with
    | error stop => exact hrow
    | ok _ =>
      dsimp only
      have htrack := halts_commitTrack g' (stamp.map Stamp.track)
      cases hcommit : g'.commitTrack (stamp.map Stamp.track) with
      | mk result g'' =>
        rw [hcommit] at htrack
        cases result with
        | error stop => exact htrack
        | ok flush =>
          have hnext : g''.nextHeight = g.nextHeight := Eq.trans htrack hrow
          exact (advances_advance g'' b.height _).of_eq hnext

theorem advances_finish (g : Ingestor) (b : Block) (batchEnd : Bool) (demux : DemuxStats)
    (record : RecordStats) : g.Advances (g.finish b batchEnd demux record) := by
  unfold finish
  have hdepths := halts_recordDepths g b.nanos
  cases hrecord : g.recordDepths b.nanos with
  | mk result g' =>
    rw [hrecord] at hdepths
    cases result with
    | error stop => exact hdepths
    | ok depthRows =>
      dsimp only
      cases g'.stamp? b batchEnd with
      | error o => exact trivial
      | ok stamp => exact (advances_close g' b stamp demux record depthRows).of_eq hdepths

theorem advances_fill (g : Ingestor) (b : Block) (batchEnd : Bool) (run : DemuxRun) :
    g.Advances (g.fill b batchEnd run) := by
  unfold fill
  have hevents := halts_recordEvents g run.delivered
  cases hrecord : g.recordEvents run.delivered with
  | mk result g' =>
    rw [hrecord] at hevents
    cases result with
    | error stop => exact hevents
    | ok record => exact (advances_finish g' b batchEnd run.stats record).of_eq hevents

/-- **One block**: a block of the next height goes through or fails to be written. -/
theorem advances_process {g : Ingestor} {b : Block} (hheight : b.height = g.nextHeight) (batchEnd : Bool) :
    g.Advances (g.process b batchEnd) := by
  unfold process
  rw [if_neg (fun hne => hne hheight)]
  dsimp only
  cases (g.demux.run b).fault with
  | some o => exact trivial
  | none =>
    dsimp only
    cases (g.report (g.demux.run b).log).books.inserter.startBlock with
    | error e => exact trivial
    | ok i =>
      exact (advances_fill ((g.report (g.demux.run b).log).withInserter i) b batchEnd (g.demux.run b)).of_eq rfl

/-- **Order**: blocks in a row from the next height on are never refused for their height. -/
theorem consume_ofWriting {g g' : Ingestor} {queue : List BlockMessage} {stop : Stop IndexerError}
    (hqueue : Consecutive g.nextHeight.toInt queue) (h : g.consume queue = (.error stop, g')) :
    stop.OfWriting := by
  induction queue generalizing g with
  | nil => cases h
  | cons m rest ih =>
    have hprocess := advances_process (Int64.toInt_inj.1 hqueue.1) m.batchEnd
    unfold consume at h
    cases hstep : g.process m.block m.batchEnd with
    | mk result g'' =>
      rw [hstep] at h hprocess
      cases result with
      | ok o => exact ih (hprocess ▸ hqueue.2) h
      | error stop' =>
        cases h
        exact hprocess

end Ingestor

end PoolIndexer
