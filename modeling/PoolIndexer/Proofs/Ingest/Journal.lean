import PoolIndexer.Proofs.Ingest.Account

/-!
# Proofs.Ingest.Journal — what an ingestor does while nothing but tables can refuse

* `Journal`: the rows that are stored, those that are held, the balances after them, the next height
  and the height of the last commit.
* `Rules.process`: one block as a function of the journal.  Neither the strategy nor the way the rows
  are held plays a part in it.
* `Ingestor.processWithout_eq`: an ingestor on a calm store does what the rules say of its journal.
-/

namespace PoolIndexer

/-! ### Ingestors that leave events out -/

namespace Ingestor

/-- Processes a block and leaves the events of `skip` unrecorded. -/
def processWithout (g : Ingestor) (skip : Event × Metadata → Bool) (b : Block) (batchEnd : Bool) :
    Except (Stop IndexerError) BlockOutcome × Ingestor :=
  if b.height ≠ g.nextHeight then (.error (.error (.heightOutOfOrder g.nextHeight b.height)), g)
  else
    let run := g.demux.run b
    let g := g.report run.log
    match run.fault with
    | some o => (.error (.overflow o), g)
    | none =>
      match g.books.inserter.startBlock with
      | .error e => (.error (.error (.insert e)), g)
      | .ok i =>
        (g.withInserter i).fill b batchEnd
          { run with delivered := run.delivered.filter fun p => !skip p }

/-- Processes messages in order up to the first failure. -/
def consumeWithout (skip : Event × Metadata → Bool) (g : Ingestor) :
    List BlockMessage → Except (Stop IndexerError) Unit × Ingestor
  | [] => (.ok (), g)
  | m :: rest =>
    match g.processWithout skip m.block m.batchEnd with
    | (.error stop, g) => (.error stop, g)
    | (.ok _, g) => g.consumeWithout skip rest

theorem processWithout_none (g : Ingestor) (b : Block) (batchEnd : Bool) :
    g.processWithout (fun _ => false) b batchEnd = g.process b batchEnd := by
  unfold processWithout process
  by_cases hheight : b.height = g.nextHeight
  · rw [if_neg (fun h => h hheight), if_neg (fun h => h hheight)]
    dsimp only
    cases hfault : (g.demux.run b).fault with
    | some o => rfl
    | none =>
      dsimp only
      cases (g.report (g.demux.run b).log).books.inserter.startBlock with
      | error e => rfl
      | ok i =>
        have hfilter : (g.demux.run b).delivered.filter (fun _ => !false) = (g.demux.run b).delivered :=
          List.filter_true _
        rw [hfilter, ← hfault]
  · rw [if_pos hheight, if_pos hheight]

theorem consumeWithout_none (g : Ingestor) (queue : List BlockMessage) :
    g.consumeWithout (fun _ => false) queue = g.consume queue := by
  induction queue generalizing g with
  | nil => rfl
  | cons m rest ih =>
    unfold consumeWithout consume
    rw [processWithout_none]
    cases g.process m.block m.batchEnd with
    | mk result g' =>
      cases result with
      | error stop => rfl
      | ok o => exact ih g'

end Ingestor

/-! ### The rules -/

structure Journal where
  stored : List Row
  held : List Row
  balances : Balances
  nextHeight : Int64
  /-- The height of the last commit. -/
  committed : Option Int64

/-- What decides how a journal goes on. -/
structure Rules where
  demux : Demux
  recorder : Recorder
  genesisHeight : Option Int64
  rejectedTables : List String
  /-- Events that are left unrecorded. -/
  skip : Event × Metadata → Bool

namespace Rules

variable (R : Rules)

def rejects (rows : List Row) : Bool := rows.any fun r => R.rejectedTables.contains r.table

/-- Records events in order up to the first fault. -/
def recordAll (held : List Row) (balances : Balances) :
    List (Event × Metadata) → Except Overflow (List Row × Balances)
  | [] => .ok (held, balances)
  | (e, m) :: rest =>
    match R.recorder.posted R.rejects held balances e m with
    | .error o => .error o
    | .ok (held, balances) => recordAll held balances rest

theorem recordAll_cons (held : List Row) (b : Balances) (p : Event × Metadata)
    (rest : List (Event × Metadata)) :
    R.recordAll held b (p :: rest) =
      match R.recorder.posted R.rejects held b p.1 p.2 with
      | .error o => .error o
      | .ok after => R.recordAll after.1 after.2 rest := by
  rw [recordAll]
  cases R.recorder.posted R.rejects held b p.1 p.2 <;> rfl

def rejectsDepths : Bool := R.rejectedTables.contains "block_pool_depths"

/-- The rows of depths after a block. -/
def depthRows (before after : Balances) (timestamp : Int64) : List Row :=
  if R.rejectsDepths then []
  else DepthHistory.dueRows before.get after.get timestamp after.pools

def commits (J : Journal) (b : Block) (batchEnd : Bool) : Bool :=
  batchEnd || J.committed.isNone || R.genesisHeight = some b.height

/-- The snapshot of a block that commits. -/
def state? (J : Journal) (b : Block) (batchEnd : Bool) (balances : Balances) :
    Except Overflow (Option (List UInt8)) :=
  if R.commits J b batchEnd then (Snapshot.write balances.totals).map some else .ok none

end Rules

/-- The journal after a block with its snapshot; a commit stores all that is held. -/
def Journal.close (J : Journal) (b : Block) (held : List Row) (balances : Balances)
    (state : Option (List UInt8)) (next : Int64) : Journal :=
  match state with
  | some _ => ⟨J.stored ++ (held ++ [b.row state]), [], balances, next, some b.height⟩
  | none => ⟨J.stored, held ++ [b.row none], balances, next, J.committed⟩

namespace Rules

variable (R : Rules)

/-- What follows once the events of a block are recorded. -/
def finish (J : Journal) (b : Block) (batchEnd : Bool) (held : List Row) (balances : Balances) :
    Except Overflow Journal :=
  match R.state? J b batchEnd balances with
  | .error o => .error o
  | .ok state =>
    (Checked.add J.nextHeight 1).map
      (J.close b (held ++ R.depthRows J.balances balances b.nanos) balances state)

/-- One block. -/
def process (J : Journal) (b : Block) (batchEnd : Bool) : Except (Stop IndexerError) Journal :=
  if b.height ≠ J.nextHeight then .error (.error (.heightOutOfOrder J.nextHeight b.height))
  else
    match (R.demux.run b).fault with
    | some o => .error (.overflow o)
    | none =>
      match R.recordAll J.held J.balances ((R.demux.run b).delivered.filter fun p => !R.skip p) with
      | .error o => .error (.overflow o)
      | .ok (held, balances) => (R.finish J b batchEnd held balances).mapError .overflow

def consume (J : Journal) : List BlockMessage → Except (Stop IndexerError) Journal
  | [] => .ok J
  | m :: rest =>
    match R.process J m.block m.batchEnd with
    | .error stop => .error stop
    | .ok J => consume J rest

theorem consume_cons (J : Journal) (m : BlockMessage) (rest : List BlockMessage) :
    R.consume J (m :: rest) =
      match R.process J m.block m.batchEnd with
      | .error stop => .error stop
      | .ok K => R.consume K rest := rfl

variable {R}

/-- Recorded events add their rows, none of them to the ledger, and forget no pool. -/
theorem recordAll_eq_ok {events : List (Event × Metadata)} :
    ∀ {held held' : List Row} {b b' : Balances}, R.recordAll held b events = .ok (held', b') →
      (∃ added, held' = held ++ added ∧ blockRows added = []) ∧ ∀ pool ∈ b.pools, pool ∈ b'.pools := by
  induction events with
  | nil =>
    intro held held' b b' h
    cases h
    exact ⟨⟨[], (List.append_nil _).symm, rfl⟩, fun _ hpool => hpool⟩
  | cons p rest ih =>
    obtain ⟨e, m⟩ := p
    intro held held' b b' h
    unfold recordAll at h
    cases hposted : R.recorder.posted R.rejects held b e m with
    | error o =>
      rw [hposted] at h
      cases h
    | ok posted =>
      obtain ⟨held₁, b₁⟩ := posted
      rw [hposted] at h
      obtain ⟨⟨added, rfl, hadded⟩, hpools⟩ := ih h
      rcases Recorder.posted_eq_ok hposted with ⟨rfl, rfl⟩ | ⟨rows, hrows, rfl, happly⟩
      · exact ⟨⟨added, rfl, hadded⟩, hpools⟩
      · refine ⟨⟨rows ++ added, List.append_assoc .., ?_⟩, fun pool hpool => ?_⟩
        · rw [blockRows_append, Event.blockRows_rows hrows, hadded, List.append_nil]
        · exact hpools pool (Balances.mem_pools_applyAll happly hpool)

end Rules

/-! ### Ingestors on a calm store -/

namespace Ingestor

/-- The journal that an ingestor keeps. -/
def journal (g : Ingestor) : Journal where
  stored := g.store.rows
  held := g.books.inserter.pending
  balances := g.balances
  nextHeight := g.nextHeight
  committed := g.published.map Track.height

/-- The ingestor is made for the rules, and its store refuses nothing but what they say. -/
structure Obeys (R : Rules) (g : Ingestor) : Prop where
  demux : g.demux = R.demux
  recorder : g.recorder = R.recorder
  genesis : g.genesisHeight = R.genesisHeight
  rejected : g.store.rejectedTables = R.rejectedTables
  calm : g.store.CalmFor g.books.inserter.strategy
  committedOnce : g.committedOnce = g.published.isSome

/-- Between two blocks, the rows of depths that are due are those of pools that will move. -/
structure Follows (R : Rules) (g : Ingestor) : Prop extends Obeys R g where
  closed : g.books.inserter.Closed
  depths : R.rejectsDepths = false → ∀ pool, g.depths.last.get pool = g.balances.get pool

/-- What is left out plays no part in being made for the rules. -/
theorem Follows.leaving {R : Rules} {g : Ingestor} (h : g.Follows R) (skip : Event × Metadata → Bool) :
    g.Follows { R with skip } :=
  ⟨⟨h.demux, h.recorder, h.genesis, h.rejected, h.calm, h.committedOnce⟩, h.closed, h.depths⟩

section

variable {R : Rules} {g : Ingestor}

theorem recordAll_of_calm (events : List (Event × Metadata)) {b : Books} {s : Store}
    (hopen : b.inserter.Open) (hs : s.CalmFor b.inserter.strategy)
    (hrejected : s.rejectedTables = R.rejectedTables) :
    match R.recordAll b.inserter.pending b.totals.balances events with
    | .error o => ∃ b', R.recorder.recordAll s b events = (.error (.overflow o), b')
    | .ok (held, balances) =>
      ∃ b', R.recorder.recordAll s b events = (.ok (), b') ∧ b'.inserter.Open ∧
        b'.inserter.strategy = b.inserter.strategy ∧ b'.inserter.pending = held ∧
        b'.totals.balances = balances := by
  have hrejects : s.rejects = R.rejects := by
    funext rows
    unfold Store.rejects Rules.rejects
    rw [hrejected]
  induction events generalizing b with
  | nil => exact ⟨b, rfl, hopen, rfl, rfl, rfl⟩
  | cons p rest ih =>
    obtain ⟨e, m⟩ := p
    have hrecord := Recorder.record_of_calm (r := R.recorder) (e := e) (m := m) hopen hs
    unfold Rules.recordAll Recorder.recordAll
    rw [hrejects] at hrecord
    cases hposted : R.recorder.posted R.rejects b.inserter.pending b.totals.balances e m with
    | error o =>
      rw [hposted] at hrecord
      obtain ⟨b', hb'⟩ := hrecord
      simp only [hb']
      exact ⟨b', rfl⟩
    | ok posted =>
      obtain ⟨held, balances⟩ := posted
      rw [hposted] at hrecord
      obtain ⟨b', hb', hopen', hstrategy, rfl, rfl⟩ := hrecord
      simp only [hb']
      have hrest := ih (b := b') hopen' (hstrategy ▸ hs)
      cases hall : R.recordAll b'.inserter.pending b'.totals.balances rest with
      | error o =>
        rw [hall] at hrest
        exact hrest
      | ok after =>
        rw [hall] at hrest
        obtain ⟨b'', hb'', hopen'', hstrategy', hpending, hbalances⟩ := hrest
        exact ⟨b'', hb'', hopen'', hstrategy'.trans hstrategy, hpending, hbalances⟩

theorem Obeys.withInserter (h : g.Obeys R) {i : Inserter} (hi : i.strategy = g.books.inserter.strategy) :
    (g.withInserter i).Obeys R :=
  { h with calm := show g.store.CalmFor i.strategy from hi ▸ h.calm }

theorem commits_eq (h : g.Obeys R) {J : Journal} (hcommitted : g.published.map Track.height = J.committed)
    (b : Block) (batchEnd : Bool) : g.commits b batchEnd = R.commits J b batchEnd := by
  unfold commits Rules.commits
  rw [h.genesis, h.committedOnce, ← hcommitted]
  cases g.published <;> rfl

/-- The stamp has the snapshot of the journal. -/
theorem stamp?_eq (h : g.Obeys R) {J : Journal} (hcommitted : g.published.map Track.height = J.committed)
    (b : Block) (batchEnd : Bool) :
    g.stamp? b batchEnd =
      (R.state? J b batchEnd g.balances).map (Option.map (Stamp.mk (Track.ofBlock b g.books.totals))) := by
  have hcommits := commits_eq h hcommitted b batchEnd
  have hwrite : Snapshot.write g.balances.totals = Snapshot.write g.books.totals :=
    Snapshot.write_congr rfl rfl rfl
  unfold stamp? Rules.state?
  rw [hcommits, hwrite]
  cases R.commits J b batchEnd with
  | false => rfl
  | true =>
    have hstate : (Track.ofBlock b g.books.totals).state = Snapshot.write g.books.totals := rfl
    simp only [if_true, hstate]
    cases Snapshot.write g.books.totals <;> rfl

theorem recordBlock_of_calm (h : g.Obeys R) (hlog : "block_log" ∉ R.rejectedTables)
    (hopen : g.books.inserter.Open) (b : Block) (state : Option (List UInt8)) :
    ∃ i, g.recordBlock b state = (.ok (), g.withInserter i) ∧ i.Closed ∧ i.block.ended ≠ 0 ∧
      i.strategy = g.books.inserter.strategy ∧ i.pending = g.books.inserter.pending ++ [b.row state] := by
  have htaken : g.store.rejects [b.row state] = false := by
    show (g.store.rejectedTables.contains "block_log" || false) = false
    rw [h.rejected, Bool.or_false]
    simpa using hlog
  obtain ⟨i, hopen', hstrategy, hi⟩ := Inserter.insertRows_of_calm hopen h.calm [b.row state]
  rw [htaken] at hi
  obtain ⟨hi, hpending⟩ := hi
  obtain ⟨i', hend, hclosed, hended, hpending', hstrategy'⟩ := Inserter.endBlock_eq_ok hopen'
  refine ⟨i', ?_, hclosed, hended, hstrategy'.trans hstrategy, hpending'.trans hpending⟩
  unfold recordBlock
  rw [Inserter.insert_eq_insertRows (b.check_row state), hi]
  simp only [hend]

/-- Everything but the next height after a commit, if there is one. -/
theorem commitTrack_of_calm (h : g.Obeys R) (hclosed : g.books.inserter.Closed)
    (hended : g.books.inserter.block.ended ≠ 0) (track : Option Track) :
    ∃ flush g', g.commitTrack track = (.ok flush, g') ∧ g'.Obeys R ∧ g'.books.inserter.Closed ∧
      g'.depths = g.depths ∧ g'.nextHeight = g.nextHeight ∧
      g'.journal =
        match track with
        | some t => { g.journal with stored := g.rows, held := [], committed := some t.height }
        | none => g.journal := by
  cases track with
  | none => exact ⟨none, g, rfl, h, hclosed, rfl, rfl, rfl⟩
  | some t =>
    obtain ⟨stats, i, hflush, hclosed', hpending, hstrategy⟩ := Inserter.flush_of_calm hclosed hended h.calm
    unfold commitTrack commit
    rw [hflush]
    refine ⟨_, _, rfl, ⟨h.demux, h.recorder, h.genesis, h.rejected, ?_, rfl⟩, hclosed', rfl, rfl, ?_⟩
    · exact ⟨h.calm.outage, fun hbatch => h.calm.rejected (hstrategy ▸ hbatch)⟩
    · exact show Journal.mk _ i.pending _ _ _ = _ from hpending ▸ rfl

/-- The ledger row, the commit and the next height. -/
theorem close_of_calm (h : g.Obeys R) (hlog : "block_log" ∉ R.rejectedTables)
    (hopen : g.books.inserter.Open)
    (hdepths : R.rejectsDepths = false → ∀ pool, g.depths.last.get pool = g.balances.get pool)
    {J : Journal} (hstored : g.store.rows = J.stored) (hnext : g.nextHeight = J.nextHeight)
    (hcommitted : g.published.map Track.height = J.committed) (b : Block) (state : Option (List UInt8))
    (demux : DemuxStats) (record : RecordStats) (depthRows : Nat) :
    match Checked.add J.nextHeight 1 with
    | .error o =>
      ∃ g', g.close b (state.map (Stamp.mk (Track.ofBlock b g.books.totals))) demux record depthRows =
        (.error (.overflow o), g')
    | .ok next =>
      ∃ o g', g.close b (state.map (Stamp.mk (Track.ofBlock b g.books.totals))) demux record depthRows =
          (.ok o, g') ∧ g'.Follows R ∧
        g'.journal = J.close b g.books.inserter.pending g.balances state next := by
  obtain ⟨i, hrow, hclosed, hended, hstrategy, hpending⟩ := recordBlock_of_calm h hlog hopen b state
  obtain ⟨flush, g', hcommit, hobeys, hclosed', hdepths', hnext', hjournal⟩ :=
    commitTrack_of_calm (h.withInserter hstrategy) hclosed hended
      ((state.map (Stamp.mk (Track.ofBlock b g.books.totals))).map Stamp.track)
  have hstate : (state.map (Stamp.mk (Track.ofBlock b g.books.totals))).map Stamp.state = state := by
    cases state <;> rfl
  have hbalances : g'.balances = g.balances := by
    show g'.journal.balances = g.balances
    rw [hjournal]
    cases state <;> rfl
  have hheight : g'.nextHeight = J.nextHeight := hnext'.trans hnext
  unfold close
  rw [hstate, hrow]
  simp only [hcommit]
  unfold advance
  rw [hheight]
  cases Checked.add J.nextHeight 1 with
  | error o => exact ⟨_, rfl⟩
  | ok next =>
    refine ⟨_, _, rfl, ⟨⟨hobeys.demux, hobeys.recorder, hobeys.genesis, hobeys.rejected, hobeys.calm,
      hobeys.committedOnce⟩, hclosed', fun hd pool => ?_⟩, ?_⟩
    · show g'.depths.last.get pool = g'.balances.get pool
      rw [hdepths', hbalances]
      exact hdepths hd pool
    · show { g'.journal with nextHeight := next } = _
      rw [hjournal]
      cases state with
      | none =>
        show Journal.mk g.store.rows i.pending g.balances next (g.published.map Track.height) = _
        rw [hpending, hstored, hcommitted]
        rfl
      | some bytes =>
        show Journal.mk (g.store.rows ++ i.pending) [] g.balances next (some b.height) = _
        rw [hpending, hstored]
        rfl

theorem recordEvents_of_calm (h : g.Obeys R) (hopen : g.books.inserter.Open)
    (events : List (Event × Metadata)) :
    match R.recordAll g.books.inserter.pending g.balances events with
    | .error o => ∃ g', g.recordEvents events = (.error (.overflow o), g')
    | .ok (held, balances) =>
      ∃ stats books, g.recordEvents events = (.ok stats, { g with books }) ∧
        ({ g with books } : Ingestor).Obeys R ∧ books.inserter.Open ∧ books.inserter.pending = held ∧
        books.totals.balances = balances := by
  have hall := recordAll_of_calm events hopen h.calm h.rejected
  rw [← h.recorder] at hall
  unfold recordEvents
  change match R.recordAll g.books.inserter.pending g.books.totals.balances events with
    | .error o => _
    | .ok (held, balances) => _
  cases hrecord : R.recordAll g.books.inserter.pending g.books.totals.balances events with
  | error o =>
    rw [hrecord] at hall
    obtain ⟨b', hb'⟩ := hall
    simp only [hb']
    exact ⟨_, rfl⟩
  | ok after =>
    rw [hrecord] at hall
    obtain ⟨b', hb', hopen', hstrategy, hpending, hbalances⟩ := hall
    simp only [hb']
    refine ⟨b'.stats, { b' with stats := .zero }, rfl, ?_, hopen', hpending, hbalances⟩
    exact { h with calm := show g.store.CalmFor b'.inserter.strategy from hstrategy ▸ h.calm }

theorem recordDepths_of_calm (h : g.Obeys R) (hopen : g.books.inserter.Open) {before : Balances}
    (hdepths : R.rejectsDepths = false → ∀ pool, g.depths.last.get pool = before.get pool)
    (hgrows : ∀ pool ∈ before.pools, pool ∈ g.balances.pools) (timestamp : Int64) :
    ∃ written i last, g.recordDepths timestamp =
        (.ok written, { g.withInserter i with depths := ⟨last⟩ }) ∧ i.Open ∧
      i.strategy = g.books.inserter.strategy ∧
      i.pending = g.books.inserter.pending ++ R.depthRows before g.balances timestamp ∧
      (R.rejectsDepths = false → ∀ pool, last.get pool = g.balances.get pool) := by
  have hrejected : DepthHistory.rejected g.store = R.rejectsDepths := by
    unfold DepthHistory.rejected Rules.rejectsDepths
    rw [h.rejected]
  have hrecord := DepthHistory.record_of_calm g.books.totals timestamp hopen h.calm
    (hrejected ▸ hdepths) hgrows
  rw [hrejected] at hrecord
  obtain ⟨p, hp, hopen', hstrategy, hpending, hlast⟩ := hrecord
  unfold recordDepths
  rw [hp]
  exact ⟨p.written, p.inserter, p.history.last, rfl, hopen', hstrategy, hpending, hlast⟩

/-- The depths and the block, once the events of the block are recorded. -/
theorem finish_of_calm (h : g.Obeys R) (hlog : "block_log" ∉ R.rejectedTables)
    (hopen : g.books.inserter.Open) {J : Journal} (hstored : g.store.rows = J.stored)
    (hnext : g.nextHeight = J.nextHeight) (hcommitted : g.published.map Track.height = J.committed)
    (hdepths : R.rejectsDepths = false → ∀ pool, g.depths.last.get pool = J.balances.get pool)
    (hgrows : ∀ pool ∈ J.balances.pools, pool ∈ g.balances.pools) (b : Block) (batchEnd : Bool)
    (demux : DemuxStats) (record : RecordStats) :
    match R.finish J b batchEnd g.books.inserter.pending g.balances with
    | .error o => ∃ g', g.finish b batchEnd demux record = (.error (.overflow o), g')
    | .ok J' =>
      ∃ o g', g.finish b batchEnd demux record = (.ok o, g') ∧ g'.Follows R ∧ g'.journal = J' := by
  obtain ⟨written, i, last, hwritten, hopen', hstrategy, hpending, hlast⟩ :=
    recordDepths_of_calm h hopen hdepths hgrows b.nanos
  have hobeys : ({ g.withInserter i with depths := ⟨last⟩ } : Ingestor).Obeys R :=
    ⟨h.demux, h.recorder, h.genesis, h.rejected, (h.withInserter hstrategy).calm, h.committedOnce⟩
  have hstamp : ({ g.withInserter i with depths := ⟨last⟩ } : Ingestor).stamp? b batchEnd =
      (R.state? J b batchEnd g.balances).map (Option.map (Stamp.mk (Track.ofBlock b g.books.totals))) :=
    stamp?_eq hobeys hcommitted b batchEnd
  unfold finish Rules.finish
  simp only [hwritten, hstamp]
  cases R.state? J b batchEnd g.balances with
  | error o => exact ⟨_, rfl⟩
  | ok state =>
    have hclose := close_of_calm hobeys hlog hopen' hlast hstored hnext hcommitted b state demux record written
    cases hadd : Checked.add J.nextHeight 1 with
    | error o =>
      rw [hadd] at hclose
      exact hclose
    | ok next =>
      rw [hadd] at hclose
      obtain ⟨o, g', hg', hfollows, hjournal⟩ := hclose
      refine ⟨o, g', hg', hfollows, hjournal.trans ?_⟩
      rw [← hpending]
      rfl

/-- The events of a block and all that follows from them. -/
theorem fill_of_calm (h : g.Obeys R) (hlog : "block_log" ∉ R.rejectedTables)
    (hopen : g.books.inserter.Open)
    (hdepths : R.rejectsDepths = false → ∀ pool, g.depths.last.get pool = g.balances.get pool)
    (b : Block) (batchEnd : Bool) (run : DemuxRun) :
    match R.recordAll g.journal.held g.journal.balances run.delivered with
    | .error o => ∃ g', g.fill b batchEnd run = (.error (.overflow o), g')
    | .ok (held, balances) =>
      match R.finish g.journal b batchEnd held balances with
      | .error o => ∃ g', g.fill b batchEnd run = (.error (.overflow o), g')
      | .ok J => ∃ o g', g.fill b batchEnd run = (.ok o, g') ∧ g'.Follows R ∧ g'.journal = J := by
  have hevents : match R.recordAll g.journal.held g.journal.balances run.delivered with
      | .error o => _
      | .ok (held, balances) => _ := recordEvents_of_calm h hopen run.delivered
  unfold fill
  cases hrecord : R.recordAll g.journal.held g.journal.balances run.delivered with
  | error o =>
    rw [hrecord] at hevents
    obtain ⟨g', hg'⟩ := hevents
    simp only [hg']
    exact ⟨g', rfl⟩
  | ok after =>
    obtain ⟨held, balances⟩ := after
    rw [hrecord] at hevents
    obtain ⟨stats, books, hbooks, hobeys, hopen', rfl, rfl⟩ := hevents
    rw [hbooks]
    exact finish_of_calm hobeys hlog hopen' (J := g.journal) rfl rfl rfl hdepths
      (Rules.recordAll_eq_ok hrecord).2 b batchEnd run.stats stats

/-- **Rules**: on a calm store that takes the ledger, an ingestor does what the rules say. -/
theorem processWithout_eq (h : g.Follows R) (hlog : "block_log" ∉ R.rejectedTables) (b : Block)
    (batchEnd : Bool) :
    match R.process g.journal b batchEnd with
    | .error stop => ∃ g', g.processWithout R.skip b batchEnd = (.error stop, g')
    | .ok J =>
      ∃ o g', g.processWithout R.skip b batchEnd = (.ok o, g') ∧ g'.Follows R ∧ g'.journal = J := by
  unfold processWithout Rules.process
  by_cases hheight : b.height = g.journal.nextHeight
  · rw [if_neg (fun hne => hne hheight), if_neg (fun hne => hne hheight), ← h.demux]
    dsimp only
    cases (g.demux.run b).fault with
    | some o => exact ⟨_, rfl⟩
    | none =>
      obtain ⟨i, hstart, hopen, hpending, hstrategy⟩ := Inserter.startBlock_eq_ok h.closed
      have hobeys : ((g.report (g.demux.run b).log).withInserter i).Obeys R :=
        ⟨h.demux, h.recorder, h.genesis, h.rejected, (h.withInserter hstrategy).calm, h.committedOnce⟩
      have hjournal : ((g.report (g.demux.run b).log).withInserter i).journal = g.journal :=
        show Journal.mk _ i.pending _ _ _ = _ from hpending ▸ rfl
      have hfill := fill_of_calm hobeys hlog hopen h.depths b batchEnd
        { g.demux.run b with delivered := (g.demux.run b).delivered.filter fun p => !R.skip p }
      rw [hjournal] at hfill
      rw [show (g.report (g.demux.run b).log).books.inserter.startBlock = .ok i from hstart]
      dsimp only at hfill ⊢
      cases hrecord : R.recordAll g.journal.held g.journal.balances
          ((g.demux.run b).delivered.filter fun p => !R.skip p) with
      | error o =>
        rw [hrecord] at hfill
        exact hfill
      | ok after =>
        rw [hrecord] at hfill
        dsimp only at hfill ⊢
        cases hfinish : R.finish g.journal b batchEnd after.1 after.2 with
        | error o =>
          rw [hfinish] at hfill
          exact hfill
        | ok J =>
          rw [hfinish] at hfill
          exact hfill
  · rw [if_pos hheight]
    exact ⟨g, if_pos hheight⟩

theorem consumeWithout_eq (hlog : "block_log" ∉ R.rejectedTables) (queue : List BlockMessage)
    {g : Ingestor} (h : g.Follows R) :
    match R.consume g.journal queue with
    | .error stop => ∃ g', g.consumeWithout R.skip queue = (.error stop, g')
    | .ok J =>
      ∃ g', g.consumeWithout R.skip queue = (.ok (), g') ∧ g'.Follows R ∧ g'.journal = J := by
  induction queue generalizing g with
  | nil => exact ⟨g, rfl, h, rfl⟩
  | cons m rest ih =>
    have hprocess := processWithout_eq h hlog m.block m.batchEnd
    unfold Rules.consume consumeWithout
    cases hstep : R.process g.journal m.block m.batchEnd with
    | error stop =>
      rw [hstep] at hprocess
      obtain ⟨g', hg'⟩ := hprocess
      rw [hg']
      exact ⟨g', rfl⟩
    | ok J =>
      rw [hstep] at hprocess
      obtain ⟨o, g', hg', hfollows, rfl⟩ := hprocess
      rw [hg']
      exact ih hfollows

end

end Ingestor

/-! ### A new start -/

section

variable {setup : Setup} {s : Store} {r : Recovered}

/-- The rules of a setup over a store. -/
def Setup.rules (setup : Setup) (s : Store) : Rules :=
  ⟨setup.demux, setup.recorder, setup.genesisHeight, s.rejectedTables, fun _ => false⟩

/-- The journal that a new ingestor begins with. -/
def Recovered.journal (r : Recovered) (stored : List Row) : Journal :=
  ⟨stored, [], r.totals.balances, r.nextHeight, r.track.map Track.height⟩

theorem Setup.obeys_ingestor (hs : s.CalmFor setup.strategy) :
    (setup.ingestor s r).Obeys (setup.rules s) where
  demux := rfl
  recorder := rfl
  genesis := rfl
  rejected := rfl
  calm := show s.CalmFor (Inserter.ofStrategy setup.strategy).strategy from
    (Inserter.strategy_ofStrategy setup.strategy).symm ▸ hs
  committedOnce := rfl

theorem Setup.follows_ingestor (hs : s.CalmFor setup.strategy) :
    (setup.ingestor s r).Follows (setup.rules s) where
  toObeys := obeys_ingestor hs
  closed := Inserter.closed_ofStrategy setup.strategy
  depths := fun _ _ => rfl

theorem Setup.journal_ingestor : (setup.ingestor s r).journal = r.journal s.rows :=
  show Journal.mk _ (Inserter.ofStrategy setup.strategy).pending _ _ _ = _ from
    (Inserter.pending_ofStrategy setup.strategy).symm ▸ rfl

end

/-! ### Blocks in a row -/

/-- The heights count up from `start`. -/
def Consecutive (start : Int) : List BlockMessage → Prop
  | [] => True
  | m :: rest => m.block.height.toInt = start ∧ Consecutive (start + 1) rest

namespace Rules

variable {R : Rules} {J J' : Journal} {b : Block} {batchEnd : Bool}

theorem blockRows_depthRows (before after : Balances) (timestamp : Int64) :
    blockRows (R.depthRows before after timestamp) = [] := by
  unfold depthRows
  cases R.rejectsDepths with
  | true => rfl
  | false =>
    refine List.filter_eq_nil_iff.2 fun r hr => ?_
    obtain ⟨pool, -, rfl⟩ := List.mem_map.1 hr
    exact Bool.false_ne_true

theorem write_of_state? {balances : Balances} {bytes : List UInt8}
    (h : R.state? J b batchEnd balances = .ok (some bytes)) :
    Snapshot.write balances.totals = .ok bytes := by
  unfold state? at h
  split at h
  · cases hwrite : Snapshot.write balances.totals with
    | error o =>
      rw [hwrite] at h
      cases h
    | ok bytes' =>
      rw [hwrite] at h
      cases h
      rfl
  · cases h

theorem finish_eq_ok {held : List Row} {balances : Balances}
    (h : R.finish J b batchEnd held balances = .ok J') :
    ∃ state next, R.state? J b batchEnd balances = .ok state ∧ Checked.add J.nextHeight 1 = .ok next ∧
      J' = J.close b (held ++ R.depthRows J.balances balances b.nanos) balances state next := by
  unfold finish at h
  cases hstate : R.state? J b batchEnd balances with
  | error o =>
    simp only [hstate] at h
    cases h
  | ok state =>
    simp only [hstate] at h
    cases hnext : Checked.add J.nextHeight 1 with
    | error o =>
      rw [hnext] at h
      cases h
    | ok next =>
      rw [hnext] at h
      cases h
      exact ⟨state, next, rfl, rfl, rfl⟩

/-- What a block that goes through does to the journal. -/
theorem process_eq_ok (h : R.process J b batchEnd = .ok J') :
    b.height = J.nextHeight ∧
      ∃ added balances state next, blockRows added = [] ∧
        R.state? J b batchEnd balances = .ok state ∧ Checked.add J.nextHeight 1 = .ok next ∧
        J' = J.close b (J.held ++ added) balances state next := by
  unfold process at h
  by_cases hheight : b.height = J.nextHeight
  · rw [if_neg (fun hne => hne hheight)] at h
    refine ⟨hheight, ?_⟩
    cases hfault : (R.demux.run b).fault with
    | some o =>
      rw [hfault] at h
      cases h
    | none =>
      rw [hfault] at h
      dsimp only at h
      cases hrecord : R.recordAll J.held J.balances ((R.demux.run b).delivered.filter fun p => !R.skip p) with
      | error o =>
        rw [hrecord] at h
        cases h
      | ok after =>
        obtain ⟨held, balances⟩ := after
        rw [hrecord] at h
        obtain ⟨⟨added, rfl, hadded⟩, -⟩ := recordAll_eq_ok hrecord
        cases hfinish : R.finish J b batchEnd (J.held ++ added) balances with
        | error o =>
          dsimp only at h
          rw [hfinish] at h
          cases h
        | ok J'' =>
          dsimp only at h
          rw [hfinish] at h
          cases h
          obtain ⟨state, next, hstate, hnext, hclose⟩ := finish_eq_ok hfinish
          refine ⟨added ++ R.depthRows J.balances balances b.nanos, balances, state, next, ?_, hstate, hnext, ?_⟩
          · rw [blockRows_append, hadded, blockRows_depthRows]
            rfl
          · rw [hclose, List.append_assoc]
  · rw [if_pos hheight] at h
    cases h

/-- The next block in the row is stopped by an overflow only. -/
theorem process_eq_error (hheight : b.height = J.nextHeight) {stop : Stop IndexerError}
    (h : R.process J b batchEnd = .error stop) : ∃ o, stop = .overflow o := by
  unfold process at h
  rw [if_neg (fun hne => hne hheight)] at h
  split at h
  · cases h
    exact ⟨_, rfl⟩
  · split at h
    · cases h
      exact ⟨_, rfl⟩
    · rename_i held balances _
      cases hfinish : R.finish J b batchEnd held balances with
      | error o =>
        rw [hfinish] at h
        cases h
        exact ⟨o, rfl⟩
      | ok J' =>
        rw [hfinish] at h
        cases h

theorem nextHeight_process (h : R.process J b batchEnd = .ok J') :
    J'.nextHeight.toInt = J.nextHeight.toInt + 1 := by
  obtain ⟨-, added, balances, state, next, -, -, hnext, rfl⟩ := process_eq_ok h
  rw [← show next.toInt = J.nextHeight.toInt + 1 from Checked.add_eq_ok_iff.1 hnext]
  cases state <;> rfl

theorem consume_eq_error {queue : List BlockMessage} (hqueue : Consecutive J.nextHeight.toInt queue)
    {stop : Stop IndexerError} (h : R.consume J queue = .error stop) : ∃ o, stop = .overflow o := by
  induction queue generalizing J with
  | nil => cases h
  | cons m rest ih =>
    unfold consume at h
    cases hstep : R.process J m.block m.batchEnd with
    | error stop' =>
      rw [hstep] at h
      cases h
      exact process_eq_error (Int64.toInt_inj.1 hqueue.1) hstep
    | ok J' =>
      rw [hstep] at h
      exact ih (nextHeight_process hstep ▸ hqueue.2) h

end Rules

end PoolIndexer
