import PoolIndexer.Proofs.Ingest.Journal

/-!
# Proofs.Ingest.Strategies — tolerance is leaving out what would be refused

The tolerant strategy meets the tables that reject writes event by event.  What it ends with is what
the batch strategy ends with where nothing is rejected and the events with rows in those tables are
left out beforehand.
-/

namespace PoolIndexer

/-- Whether an event leaves a row in one of the tables. -/
def Recorder.owns (r : Recorder) (tables : List String) (p : Event × Metadata) : Bool :=
  match p.1.rows r.natives p.2 with
  | .ok rows => rows.any fun row => tables.contains row.table
  | .error _ => false

namespace Rules

/-- Rules under which nothing is rejected, and what would be is left out. -/
def leaveOut (R : Rules) : Rules :=
  { R with rejectedTables := [], skip := R.recorder.owns R.rejectedTables }

variable {R : Rules}

theorem posted_of_owns {p : Event × Metadata} (h : R.recorder.owns R.rejectedTables p = true)
    (held : List Row) (b : Balances) : R.recorder.posted R.rejects held b p.1 p.2 = .ok (held, b) := by
  unfold Recorder.owns at h
  unfold Recorder.posted Recorder.taken?
  cases hrows : p.1.rows R.recorder.natives p.2 with
  | error fault =>
    rw [hrows] at h
    cases h
  | ok rows =>
    rw [hrows] at h
    have hrejects : R.rejects rows = true := h
    simp only [hrejects, if_true]

theorem posted_of_not_owns {p : Event × Metadata} (h : R.recorder.owns R.rejectedTables p = false)
    (held : List Row) (b : Balances) :
    R.recorder.posted R.rejects held b p.1 p.2 =
      R.recorder.posted R.leaveOut.rejects held b p.1 p.2 := by
  unfold Recorder.owns at h
  unfold Recorder.posted Recorder.taken?
  cases hrows : p.1.rows R.recorder.natives p.2 with
  | error fault => cases fault <;> rfl
  | ok rows =>
    rw [hrows] at h
    have hrejects : R.rejects rows = false := h
    have hnothing : R.leaveOut.rejects rows = false := List.any_eq_false.2 fun _ _ => Bool.false_ne_true
    simp only [hrejects, hnothing]

theorem recordAll_leaveOut (events : List (Event × Metadata)) (held : List Row) (b : Balances) :
    R.recordAll held b events =
      R.leaveOut.recordAll held b (events.filter fun p => !R.leaveOut.skip p) := by
  induction events generalizing held b with
  | nil => rfl
  | cons p rest ih =>
    rw [List.filter_cons, recordAll_cons]
    cases howns : R.recorder.owns R.rejectedTables p with
    | true =>
      rw [posted_of_owns howns, show R.leaveOut.skip p = true from howns]
      exact ih held b
    | false =>
      rw [posted_of_not_owns howns, show R.leaveOut.skip p = false from howns, Bool.not_false,
        if_pos rfl, recordAll_cons, show R.leaveOut.recorder = R.recorder from rfl]
      cases R.recorder.posted R.leaveOut.rejects held b p.1 p.2 with
      | error o => rfl
      | ok after => exact ih after.1 after.2

theorem process_leaveOut (hskip : R.skip = fun _ => false) (hdepths : "block_pool_depths" ∉ R.rejectedTables)
    (J : Journal) (b : Block) (batchEnd : Bool) :
    R.process J b batchEnd = R.leaveOut.process J b batchEnd := by
  have hrejectsDepths : R.rejectsDepths = false := by
    unfold rejectsDepths
    simpa using hdepths
  have hfinish : R.finish J b batchEnd = R.leaveOut.finish J b batchEnd := by
    funext held balances
    unfold finish depthRows
    rw [hrejectsDepths]
    rfl
  have hevents : R.recordAll J.held J.balances ((R.demux.run b).delivered.filter fun p => !R.skip p) =
      R.leaveOut.recordAll J.held J.balances
        ((R.leaveOut.demux.run b).delivered.filter fun p => !R.leaveOut.skip p) := by
    rw [hskip]
    simp only [Bool.not_false, List.filter_true]
    exact recordAll_leaveOut _ _ _
  unfold process
  rw [hevents, hfinish]
  rfl

theorem consume_leaveOut (hskip : R.skip = fun _ => false) (hdepths : "block_pool_depths" ∉ R.rejectedTables)
    (queue : List BlockMessage) (J : Journal) : R.consume J queue = R.leaveOut.consume J queue := by
  induction queue generalizing J with
  | nil => rfl
  | cons m rest ih =>
    unfold consume
    rw [process_leaveOut hskip hdepths]
    cases R.leaveOut.process J m.block m.batchEnd with
    | error stop => rfl
    | ok J => exact ih J

end Rules

/-- **Tolerance**: over blocks in a row, a tolerant ingestor of a store that rejects some tables and a
batch ingestor of a store that rejects none, but without the events that have rows in those tables,
either both meet the same overflow or end with the same rows, totals and commits. -/
theorem Setup.tolerant_eq_batch (setup : Setup) (s : Store) (tables : List String) (r : Recovered)
    (queue : List BlockMessage) (houtage : s.outage = false) (hlog : "block_log" ∉ tables)
    (hdepths : "block_pool_depths" ∉ tables) (hqueue : Consecutive r.nextHeight.toInt queue) :
    let tolerant := { setup with strategy := .tolerant }.ingestor { s with rejectedTables := tables } r
    let batch := { setup with strategy := .batch }.ingestor { s with rejectedTables := [] } r
    (∃ o g g', tolerant.consume queue = (.error (.overflow o), g) ∧
      batch.consumeWithout (setup.recorder.owns tables) queue = (.error (.overflow o), g')) ∨
    ∃ g g', tolerant.consume queue = (.ok (), g) ∧
      batch.consumeWithout (setup.recorder.owns tables) queue = (.ok (), g') ∧
      g.store.rows = g'.store.rows ∧ g.books.totals.balances = g'.books.totals.balances ∧
      g.published.map Track.height = g'.published.map Track.height ∧
      g.books.inserter.pending = g'.books.inserter.pending ∧ g.nextHeight = g'.nextHeight := by
  intro tolerant batch
  let R : Rules := { setup with strategy := .tolerant }.rules { s with rejectedTables := tables }
  have htolerant : tolerant.Follows R := Setup.follows_ingestor ⟨houtage, fun h => by cases h⟩
  have hplain : batch.Follows ({ setup with strategy := .batch }.rules { s with rejectedTables := [] }) :=
    Setup.follows_ingestor ⟨houtage, fun _ => rfl⟩
  have hbatch : batch.Follows R.leaveOut := hplain.leaving (setup.recorder.owns tables)
  have hjournal : tolerant.journal = r.journal s.rows := Setup.journal_ingestor
  have hjournal' : batch.journal = r.journal s.rows := Setup.journal_ingestor
  have hrun := Ingestor.consumeWithout_eq hlog queue htolerant
  have hrun' := Ingestor.consumeWithout_eq List.not_mem_nil queue hbatch
  rw [hjournal, show R.skip = fun _ => false from rfl, Ingestor.consumeWithout_none] at hrun
  rw [hjournal', ← Rules.consume_leaveOut rfl hdepths] at hrun'
  cases hconsume : R.consume (r.journal s.rows) queue with
  | error stop =>
    obtain ⟨o, rfl⟩ := Rules.consume_eq_error hqueue hconsume
    rw [hconsume] at hrun hrun'
    obtain ⟨g, hg⟩ := hrun
    obtain ⟨g', hg'⟩ := hrun'
    exact .inl ⟨o, g, g', hg, hg'⟩
  | ok J =>
    rw [hconsume] at hrun hrun'
    obtain ⟨g, hg, -, rfl⟩ := hrun
    obtain ⟨g', hg', -, hsame⟩ := hrun'
    refine .inr ⟨g, g', hg, hg', ?_⟩
    exact ⟨(congrArg Journal.stored hsame).symm, (congrArg Journal.balances hsame).symm,
      (congrArg Journal.committed hsame).symm, (congrArg Journal.held hsame).symm,
      (congrArg Journal.nextHeight hsame).symm⟩

/-- A seed that its table rejects is as good as left out. -/
theorem Setup.tolerant_eq_batch_seeded :
    let setup := Setup.seeded .tolerant 5
    let queue : List BlockMessage := [⟨.bare 5, true⟩, ⟨.bare 6, false⟩]
    let tolerant := setup.ingestor { Store.empty with rejectedTables := ["add_events"] } (.fresh 5)
    let batch := { setup with strategy := .batch }.ingestor { Store.empty with rejectedTables := [] } (.fresh 5)
    Store.empty.outage = false ∧ "block_log" ∉ ["add_events"] ∧ "block_pool_depths" ∉ ["add_events"] ∧
      Consecutive (Recovered.fresh 5).nextHeight.toInt queue ∧
      (tolerant.consume queue).2.store.rows.length = 1 ∧
      ((∃ o g g', tolerant.consume queue = (.error (.overflow o), g) ∧
        batch.consumeWithout (setup.recorder.owns ["add_events"]) queue = (.error (.overflow o), g')) ∨
      ∃ g g', tolerant.consume queue = (.ok (), g) ∧
        batch.consumeWithout (setup.recorder.owns ["add_events"]) queue = (.ok (), g') ∧
        g.store.rows = g'.store.rows ∧ g.books.totals.balances = g'.books.totals.balances ∧
        g.published.map Track.height = g'.published.map Track.height ∧
        g.books.inserter.pending = g'.books.inserter.pending ∧ g.nextHeight = g'.nextHeight) :=
  ⟨rfl, by decide, by decide, ⟨rfl, rfl, trivial⟩, by decide +kernel,
    Setup.tolerant_eq_batch (.seeded .tolerant 5) .empty ["add_events"] (.fresh 5)
      [⟨.bare 5, true⟩, ⟨.bare 6, false⟩] rfl (by decide) (by decide) ⟨rfl, rfl, trivial⟩⟩

end PoolIndexer
