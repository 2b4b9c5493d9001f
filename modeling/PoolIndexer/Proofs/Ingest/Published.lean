import PoolIndexer.Proofs.Ingest.Outcomes

/-!
# Proofs.Ingest.Published — what readers see is what a new start would find

* `Call.Step`: the next piece of a call, or a change of what the store refuses at any point within it.
* `Ingestor.Returns`: a call that comes back with a result in such steps, and `Ingestor.Lives`: any
  number of calls, whatever they return, with such changes between them.
* `Ingestor.Agrees`: the published track and the latest checkpoint are of one block with one set of
  totals, or there is neither.
* `Ingestor.Sound` and `Call.Sound`: what holds between two calls and within one, failed calls included;
  `Call.steps_induction` adds to it whatever else the pieces keep.
* `published_durable`: they agree after every call, and a call that fails leaves the rows and the
  published track alone.
-/

namespace PoolIndexer

/-! ### Calls on a store that may refuse -/

/-- The store with another outage and other rejected tables. -/
def Store.refusing (s : Store) (outage : Bool) (tables : List String) : Store :=
  { s with outage, rejectedTables := tables }

def Ingestor.refusing (g : Ingestor) (outage : Bool) (tables : List String) : Ingestor :=
  { g with store := g.store.refusing outage tables }

def Call.refusing (outage : Bool) (tables : List String) : Call → Call
  | .running g job => .running (g.refusing outage tables) job
  | .returned result g => .returned result (g.refusing outage tables)

inductive Call.Step : Call → Call → Prop
  /-- The next piece of what is left to do. -/
  | work (c : Call) : Step c c.work
  /-- An outage begins or ends, and tables start or stop to reject rows. -/
  | refuse (c : Call) (outage : Bool) (tables : List String) : Step c (c.refusing outage tables)

namespace Ingestor

/-- A call of `process` comes back, whatever the store refuses meanwhile. -/
def Returns (g : Ingestor) (b : Block) (batchEnd : Bool) (result : Except (Stop IndexerError) BlockOutcome)
    (g' : Ingestor) : Prop :=
  Relation.ReflTransGen Call.Step (g.call b batchEnd) (.returned result g')

/-- Where an ingestor gets by calls, also by those made after a failed one. -/
inductive Lives (g : Ingestor) : Ingestor → Prop
  | refl : Lives g g
  | refuse {g' : Ingestor} (outage : Bool) (tables : List String) :
      Lives g g' → Lives g (g'.refusing outage tables)
  | process {g' g'' : Ingestor} {b : Block} {batchEnd : Bool}
      {result : Except (Stop IndexerError) BlockOutcome} :
      Lives g g' → g'.Returns b batchEnd result g'' → Lives g g''

/-- A store that does not change what it refuses lets `process` return what it gives. -/
theorem returns_process (g : Ingestor) (b : Block) (batchEnd : Bool) :
    g.Returns b batchEnd (g.process b batchEnd).1 (g.process b batchEnd).2 := by
  have hstep : ∀ c c' : Call, c' = c.work → Call.Step c c' := fun c c' h => h ▸ .work c
  exact Relation.ReflTransGen.mono hstep _ _ (Call.works_process g b batchEnd)

/-! ### Agreement -/

/-- What readers see and what a new start would find are of one block with one set of totals, or
there is neither. -/
def Agrees (g : Ingestor) : Prop :=
  (g.published = none ∧ g.store.latestCheckpoint = none) ∨
    ∃ t c stored, g.published = some t ∧ g.store.latestCheckpoint = some c ∧ t.height = c.height ∧
      t.timestamp = c.timestamp ∧ t.hash = c.hash ∧ Snapshot.decode c.state c.height = .ok stored ∧
      stored.asset = t.totals.asset ∧ stored.rune = t.totals.rune ∧ stored.synth = t.totals.synth

theorem Agrees.of_eq {g g' : Ingestor} (h : g.Agrees) (hpublished : g'.published = g.published)
    (hrows : g'.store.rows = g.store.rows) : g'.Agrees := by
  have hlatest : g'.store.latestCheckpoint = g.store.latestCheckpoint := by
    unfold Store.latestCheckpoint Store.checkpoints Store.rowsOf
    rw [hrows]
  unfold Agrees
  rw [hpublished, hlatest]
  exact h

/-- A block that is stored and published with its totals. -/
theorem agrees_of_block {g : Ingestor} {b : Block} {t : Totals} {state : List UInt8}
    (hpublished : g.published = some (Track.ofBlock b t))
    (hlatest : g.store.latestCheckpoint = some (b.checkpoint state)) (hstate : Snapshot.write t = .ok state) :
    g.Agrees :=
  .inr ⟨_, _, _, hpublished, hlatest, rfl, rfl, rfl, Snapshot.decode_of_write hstate b.height, rfl, rfl, rfl⟩

/-! ### Between two calls -/

/-- Nothing that is stored, or held to be stored, is a checkpoint above the next height. -/
def Low (g : Ingestor) : Prop :=
  ∀ c ∈ Store.checkpointsIn g.rows, c.height.toInt ≤ g.nextHeight.toInt

/-- As long as the inserter holds no more rows of the ledger than before. -/
theorem Low.of_held {g g' : Ingestor} (h : g.Low) (hrows : g'.store.rows = g.store.rows)
    (hheld : blockRows g'.books.inserter.pending ⊆ blockRows g.books.inserter.pending)
    (hnext : g'.nextHeight = g.nextHeight) : g'.Low := by
  have hsubset : blockRows g'.rows ⊆ blockRows g.rows := by
    unfold rows
    rw [blockRows_append, blockRows_append, hrows]
    exact List.append_subset.2
      ⟨List.subset_append_left _ _, List.Subset.trans hheld (List.subset_append_right _ _)⟩
  intro c hc
  rw [hnext]
  exact h c (Store.checkpointsIn_subset hsubset hc)

/-- A failure may leave the block open: then the ingestor takes no other. -/
structure Sound (g : Ingestor) : Prop where
  agrees : g.Agrees
  low : g.Low
  ready : g.books.inserter.Open ∨ g.books.inserter.Closed

end Ingestor

/-! ### Within a call -/

/-- What has been prepared for the commit is that of the block. -/
structure Ingestor.Stamp.Of (s : Ingestor.Stamp) (g : Ingestor) (b : Block) : Prop where
  track : s.track = Track.ofBlock b g.books.totals
  state : Snapshot.write g.books.totals = .ok s.state
  last : ∃ front, g.rows = front ++ [b.row (some s.state)]

def Task.Sound (g : Ingestor) (b : Block) : Task → Prop
  | .events _ | .depths _ _ _ | .ledger _ _ => g.books.inserter.Open
  | .commit stamp _ _ =>
    g.books.inserter.Closed ∧ g.books.inserter.block.ended ≠ 0 ∧ ∀ s, stamp = some s → s.Of g b

theorem Task.Fills.sound {g : Ingestor} {task : Task} (h : task.Fills g) (b : Block) : task.Sound g b := by
  cases task with
  | commit stamp record depthRows => exact h.elim
  | events rest => exact h
  | depths record written rest => exact h
  | ledger record depthRows => exact h

theorem Task.Sound.ready {g : Ingestor} {b : Block} {task : Task} (h : task.Sound g b) : task.Ready g := by
  cases task with
  | commit stamp record depthRows => exact ⟨h.1, h.2.1⟩
  | events rest => exact h
  | depths record written rest => exact h
  | ledger record depthRows => exact h

def Call.Sound : Call → Prop
  | .running g job =>
    g.Agrees ∧ g.Low ∧ job.block.height = g.nextHeight ∧ job.task.Sound g job.block
  | .returned _ g => g.Sound

/-! ### The pieces of a call -/

namespace Ingestor

theorem Agrees.refusing {g : Ingestor} (h : g.Agrees) (outage : Bool) (tables : List String) :
    (g.refusing outage tables).Agrees :=
  h.of_eq rfl rfl

theorem sound_refusing {g : Ingestor} (h : g.Sound) (outage : Bool) (tables : List String) :
    (g.refusing outage tables).Sound :=
  ⟨h.agrees.refusing outage tables, h.low, h.ready⟩

variable {g g' : Ingestor}

theorem Stays.agrees (h : g.Stays g') (hg : g.Agrees) : g'.Agrees :=
  hg.of_eq h.published (congrArg Store.rows h.store)

theorem Stays.low (h : g.Stays g') (hg : g.Low) : g'.Low :=
  hg.of_held (congrArg Store.rows h.store) h.held h.nextHeight

theorem sound_call (h : g.Sound) (b : Block) (batchEnd : Bool) : (g.call b batchEnd).Sound := by
  rcases call_cases h.ready b batchEnd with ⟨stop, g', hcall, hstays, hready, -⟩ | ⟨g', job, hcall, hstays, hheight, hfills⟩
  · rw [hcall]
    exact ⟨hstays.agrees h.agrees, hstays.low h.low, hready⟩
  · rw [hcall]
    exact ⟨hstays.agrees h.agrees, hstays.low h.low, hheight.trans hstays.nextHeight.symm, hfills.sound job.block⟩

/-- The ledger row of a block at the next height is not too high. -/
theorem Low.ledger {i : Inserter} (h : g.Low) {b : Block} (hheight : b.height = g.nextHeight)
    {state : Option (List UInt8)} (hadded : (g.withInserter i).rows = g.rows ++ [b.row state]) :
    (g.withInserter i).Low := by
  intro c hc
  rw [hadded, Store.checkpointsIn_append] at hc
  rcases List.mem_append.1 hc with hc | hc
  · exact h c hc
  · have hblock : c.height.toInt = b.height.toInt := Store.height_of_checkpointsIn_row hc
    rw [hblock, hheight]
    exact Int.le_refl _

/-- A block whose row is the last of all that are held is published and stored with its totals. -/
theorem agrees_of_commit {b : Block} {s : Stamp} (hlow : g.Low) (hheight : b.height = g.nextHeight) (hs : s.Of g b)
    (hstore : g'.store = g.flushed) (hpublished : g'.published = some s.track) : g'.Agrees := by
  obtain ⟨front, hrows⟩ := hs.last
  have hstored : g'.store.rows = front ++ [b.row (some s.state)] := (congrArg Store.rows hstore).trans hrows
  refine agrees_of_block (hpublished.trans (congrArg some hs.track)) ?_ hs.state
  -- the block is stored above all checkpoints before it
  refine Store.latestCheckpoint_of_last hstored fun c hc => ?_
  rw [hheight]
  refine hlow c ?_
  rw [hrows, Store.checkpointsIn_append]
  exact List.mem_append_left _ hc

end Ingestor

namespace Call

theorem Sound.ready {c : Call} (h : c.Sound) : c.Ready := by
  cases c with
  | returned result g => trivial
  | running g job => exact Task.Sound.ready h.2.2.2

theorem Worked.sound {c c' : Call} (h : c.Worked c') (hc : c.Sound) : c'.Sound := by
  cases h with
  | returned => exact hc
  | @fill g g' job task hstays hfills =>
    obtain ⟨hagrees, hlow, hheight, -⟩ := hc
    exact ⟨hstays.agrees hagrees, hstays.low hlow, hheight.trans hstays.nextHeight.symm, hfills.sound job.block⟩
  | fail hstays hopen =>
    obtain ⟨hagrees, hlow, -⟩ := hc
    exact ⟨hstays.agrees hagrees, hstays.low hlow, .inl hopen⟩
  | insertFailed height f hstays hready =>
    obtain ⟨hagrees, hlow, -⟩ := hc
    exact ⟨hstays.agrees hagrees, hstays.low hlow, hready⟩
  | @ledger g job record depthRows stamp i hclosed hended _ hadded hstamp =>
    obtain ⟨hagrees, hlow, hheight, -⟩ := hc
    refine ⟨hagrees.of_eq rfl rfl, hlow.ledger hheight hadded, hheight, hclosed, hended, fun s hs => ?_⟩
    obtain ⟨htrack, hstate⟩ := hstamp s hs
    subst hs
    exact ⟨htrack, hstate, g.rows, hadded⟩
  | @commit g g' job stamp record depthRows result _ hstore hpublished hrows hclosed _ hnext =>
    obtain ⟨hagrees, hlow, hheight, -, -, hstamp⟩ := hc
    have hlow' : g'.Low := by
      intro c hc
      rw [hrows] at hc
      exact Int.le_trans (hlow c hc) hnext
    cases stamp with
    | none => exact ⟨hagrees.of_eq hpublished (congrArg Store.rows hstore), hlow', .inr hclosed⟩
    | some s => exact ⟨Ingestor.agrees_of_commit hlow hheight (hstamp s rfl) hstore hpublished, hlow', .inr hclosed⟩

theorem sound_work {c : Call} (h : c.Sound) : c.work.Sound :=
  (worked_work h.ready).sound h

theorem sound_refusing {c : Call} (h : c.Sound) (outage : Bool) (tables : List String) :
    (c.refusing outage tables).Sound := by
  cases c with
  | returned result g => exact Ingestor.sound_refusing h outage tables
  | running g job =>
    obtain ⟨hagrees, hlow, hheight, htask⟩ := h
    obtain ⟨b, batchEnd, demux, task⟩ := job
    refine ⟨hagrees.refusing outage tables, hlow, hheight, ?_⟩
    cases task with
    | commit stamp record depthRows =>
      obtain ⟨hclosed, hended, hstamp⟩ := htask
      exact ⟨hclosed, hended, fun s hs => ⟨(hstamp s hs).track, (hstamp s hs).state, (hstamp s hs).last⟩⟩
    | events rest => exact htask
    | depths record written rest => exact htask
    | ledger record depthRows => exact htask

/-- **A run of a call** is sound at every point.  What holds at its beginning, and is kept by every outcome of a
piece and by every change of what the store refuses, holds at every point too. -/
theorem steps_induction {g : Ingestor} (hg : g.Sound) {b : Block} {batchEnd : Bool} {P : Call → Prop}
    (hcall : P (g.call b batchEnd)) (hworked : ∀ c c', c.Worked c' → P c → P c')
    (hrefusing : ∀ c outage tables, P c → P (c.refusing outage tables)) {c : Call}
    (h : Relation.ReflTransGen Call.Step (g.call b batchEnd) c) : c.Sound ∧ P c := by
  induction h with
  | refl => exact ⟨Ingestor.sound_call hg b batchEnd, hcall⟩
  | tail _ hstep ih =>
    obtain ⟨hsound, hP⟩ := ih
    cases hstep with
    | work => exact ⟨sound_work hsound, hworked _ _ (worked_work hsound.ready) hP⟩
    | refuse outage tables => exact ⟨sound_refusing hsound outage tables, hrefusing _ outage tables hP⟩

end Call

/-! ### What a failed call leaves behind -/

/-- All is as it was, except for what the store refuses and a failure that is written down. -/
def Store.Spared (s s' : Store) : Prop :=
  ∃ outage tables, s' = s.refusing outage tables ∨
    ∃ reason, s' = (s.markFailure reason).refusing outage tables

/-- As long as a call runs, and when it comes back with an error. -/
def Call.Spares (g₀ : Ingestor) : Call → Prop
  | .running g _ =>
    g.published = g₀.published ∧ ∃ outage tables, g.store = g₀.store.refusing outage tables
  | .returned (.error (.error _)) g => g.published = g₀.published ∧ g₀.store.Spared g.store
  | .returned _ _ => True

namespace Call

theorem spares_call {g : Ingestor} (hg : g.Sound) (b : Block) (batchEnd : Bool) : (g.call b batchEnd).Spares g := by
  have hhere : ∀ {g' : Ingestor}, g.Stays g' → g'.store = g.store.refusing g.store.outage g.store.rejectedTables :=
    fun hstays => hstays.store
  rcases Ingestor.call_cases hg.ready b batchEnd with ⟨stop, g', hcall, hstays, -⟩ | ⟨g', job, hcall, hstays, -⟩
  · rw [hcall]
    cases stop with
    | overflow o => trivial
    | error e => exact ⟨hstays.published, _, _, .inl (hhere hstays)⟩
  · rw [hcall]
    exact ⟨hstays.published, _, _, hhere hstays⟩

theorem Worked.spares {g₀ : Ingestor} {c c' : Call} (h : c.Worked c') (hc : c.Spares g₀) : c'.Spares g₀ := by
  cases h with
  | returned => exact hc
  | fill hstays =>
    obtain ⟨hpublished, outage, tables, hstore⟩ := hc
    exact ⟨hstays.published.trans hpublished, outage, tables, hstays.store.trans hstore⟩
  | @fail g g' job stop hstays =>
    obtain ⟨hpublished, outage, tables, hstore⟩ := hc
    cases stop with
    | overflow o => trivial
    | error e => exact ⟨hstays.published.trans hpublished, outage, tables, .inl (hstays.store.trans hstore)⟩
  | @insertFailed g job i height f hstays =>
    obtain ⟨hpublished, outage, tables, hstore⟩ := hc
    refine ⟨hpublished, outage, tables, .inr ⟨(IndexerError.store f).message, ?_⟩⟩
    show g.store.markFailure (IndexerError.store f).message = _
    rw [hstore]
    rfl
  | ledger => exact hc
  | @commit g g' job stamp record depthRows result hresult =>
    cases result with
    | ok o => trivial
    | error stop =>
      cases stop with
      | overflow o => trivial
      | error e => exact absurd rfl (hresult e)

theorem spares_refusing {g₀ : Ingestor} {c : Call} (h : c.Spares g₀) (outage : Bool) (tables : List String) :
    (c.refusing outage tables).Spares g₀ := by
  cases c with
  | running g job =>
    obtain ⟨hpublished, outage₀, tables₀, hstore⟩ := h
    refine ⟨hpublished, outage, tables, ?_⟩
    show g.store.refusing outage tables = _
    rw [hstore]
    rfl
  | returned result g =>
    cases result with
    | ok o => trivial
    | error stop =>
      cases stop with
      | overflow o => trivial
      | error e =>
        obtain ⟨hpublished, outage₀, tables₀, hstore⟩ := h
        refine ⟨hpublished, outage, tables, ?_⟩
        show g.store.refusing outage tables = _ ∨ ∃ reason, g.store.refusing outage tables = _
        rcases hstore with hstore | ⟨reason, hstore⟩
        · rw [hstore]
          exact .inl rfl
        · rw [hstore]
          exact .inr ⟨reason, rfl⟩

end Call

/-! ### A whole call, and a whole life -/

namespace Ingestor

theorem Returns.keeps {g g' : Ingestor} {b : Block} {batchEnd : Bool}
    {result : Except (Stop IndexerError) BlockOutcome} (h : g.Returns b batchEnd result g') (hg : g.Sound) :
    g'.Sound ∧ (Call.returned result g').Spares g :=
  Call.steps_induction hg (Call.spares_call hg b batchEnd) (fun _ _ hworked hspares => hworked.spares hspares)
    (fun _ outage tables hspares => Call.spares_refusing hspares outage tables) h

/-- A new start publishes what it recovers, and goes on above all checkpoints. -/
theorem sound_start {setup : Setup} {s : Store} {r : Recovered}
    (hr : Recovered.ofStore s setup.startHeight = .ok r) : (setup.ingestor s r).Sound := by
  have hrows : (setup.ingestor s r).rows = s.rows := by
    show s.rows ++ (Inserter.ofStrategy setup.strategy).pending = s.rows
    rw [Inserter.pending_ofStrategy, List.append_nil]
  have hready : (setup.ingestor s r).books.inserter.Closed := Inserter.closed_ofStrategy setup.strategy
  unfold Recovered.ofStore at hr
  cases hlatest : s.latestCheckpoint with
  | none =>
    rw [hlatest] at hr
    cases hr
    refine ⟨?_, fun c hc => ?_, .inr hready⟩
    · exact .inl ⟨rfl, hlatest⟩
    · rw [hrows] at hc
      obtain ⟨best, hbest⟩ := Store.latestCheckpoint_of_mem hc
      cases hbest.symm.trans hlatest
  | some c =>
    rw [hlatest] at hr
    dsimp only at hr
    cases hdecode : Snapshot.decode c.state c.height with
    | error e =>
      rw [Track.ofCheckpoint, hdecode] at hr
      cases hr
    | ok totals =>
      rw [Track.ofCheckpoint, hdecode] at hr
      cases hnext : Checked.add c.height 1 with
      | error o =>
        simp only [Except.map, Recovered.afterTrack, hnext] at hr
        cases hr
      | ok next =>
        simp only [Except.map, Recovered.afterTrack, hnext] at hr
        cases hr
        refine ⟨?_, fun d hd => ?_, .inr hready⟩
        · exact .inr ⟨_, c, totals, rfl, hlatest, rfl, rfl, rfl, hdecode, rfl, rfl, rfl⟩
        · rw [hrows] at hd
          show d.height.toInt ≤ next.toInt
          rw [Checked.add_eq_ok_iff.1 hnext]
          exact Int.le_add_one (Store.le_latestCheckpoint hlatest d hd)

theorem Lives.sound {g g' : Ingestor} (h : g.Lives g') (hg : g.Sound) : g'.Sound := by
  induction h with
  | refl => exact hg
  | refuse outage tables _ ih => exact sound_refusing ih outage tables
  | process _ hreturns ih => exact (hreturns.keeps ih).1

/-- **What is published is durable**: after every call of an ingestor that began from a store, what
readers see is what a new start would find.  A call that fails leaves all that is stored and published
as it was; at most it writes the failure down. -/
theorem published_durable (setup : Setup) (s : Store) {r : Recovered}
    (hr : Recovered.ofStore s setup.startHeight = .ok r) {g : Ingestor}
    (hg : (setup.ingestor s r).Lives g) :
    g.Agrees ∧
      ∀ b batchEnd e g', g.Returns b batchEnd (.error (.error e)) g' →
        g'.published = g.published ∧ g.store.Spared g'.store := by
  have hsound := hg.sound (sound_start hr)
  exact ⟨hsound.agrees, fun b batchEnd e g' hreturns => (hreturns.keeps hsound).2⟩

/-- A block is stored and published, and then there is an outage. -/
def interrupted (height : Int64) : Ingestor :=
  (((Setup.seeded .batch height).ingestor .empty (.fresh height)).process (.bare height) true).2.refusing true []

theorem lives_interrupted (height : Int64) :
    ((Setup.seeded .batch height).ingestor .empty (.fresh height)).Lives (interrupted height) := by
  have hprocess := returns_process ((Setup.seeded .batch height).ingestor .empty (.fresh height))
    (.bare height) true
  exact .refuse true [] (.process .refl hprocess)

/-- The block of the outage is lost, and the block before stays published and stored. -/
theorem published_throughOutage :
    let setup := Setup.seeded .batch 5
    let lost := (interrupted 5).process (.bare 6) true
    Recovered.ofStore .empty setup.startHeight = .ok (.fresh 5) ∧
      (setup.ingestor .empty (.fresh 5)).Lives (interrupted 5) ∧
      (interrupted 5).published.map Track.height = some 5 ∧ (interrupted 5).Agrees ∧
      (interrupted 5).Returns (.bare 6) true (.error (.error (.store Store.writeFailure))) lost.2 ∧
      lost.2.published = (interrupted 5).published ∧ (interrupted 5).store.Spared lost.2.store := by
  have hlost : ((interrupted 5).process (.bare 6) true).1 = .error (.error (.store Store.writeFailure)) := by
    decide +kernel
  have hheight : (interrupted 5).published.map Track.height = some 5 := by
    decide +kernel
  have hr : Recovered.ofStore .empty (Setup.seeded .batch 5).startHeight = .ok (.fresh 5) := rfl
  have hlives := lives_interrupted 5
  have hreturns := returns_process (interrupted 5) (.bare 6) true
  rw [hlost] at hreturns
  obtain ⟨hagrees, hspared⟩ := published_durable (Setup.seeded .batch 5) .empty hr hlives
  obtain ⟨hpublished, hstore⟩ := hspared _ _ _ _ hreturns
  exact ⟨hr, hlives, hheight, hagrees, hreturns, hpublished, hstore⟩

end Ingestor

end PoolIndexer
