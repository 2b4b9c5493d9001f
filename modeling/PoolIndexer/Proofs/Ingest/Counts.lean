import Mathlib.Data.List.DropRight
import PoolIndexer.Proofs.Demux.Lots
import PoolIndexer.Proofs.Ingest.Published
import PoolIndexer.Proofs.Store.Groups

/-!
# Proofs.Ingest.Counts — what an ingestor reports and what the store got

* `Turn`: a block that went through, with the ingestor before and after it, and `Ingestor.Lasts`: such blocks one
  after another, while the store fails and recovers between them.
* `Turn.groups`: the groups of rows of the events and of the depths of a block, and `Turn.rejected`: those that the
  store rejects.
* `Ingestor.Reckons`: between two blocks the inserter has counted the blocks that it holds, and the rows turned away
  since the last commit.
* `Setup.counts_exact`: every report of a lifetime is what the store shows.
-/

namespace PoolIndexer

/-! ### Groups of rows -/

/-- The groups of the events that have rows. -/
def Recorder.groups (r : Recorder) (events : List (Event × Metadata)) : List (List Row) :=
  events.filterMap fun p => (p.1.rows r.natives p.2).toOption

theorem Recorder.groups_cons (r : Recorder) (p : Event × Metadata) (rest : List (Event × Metadata)) :
    r.groups (p :: rest) = r.groups [p] ++ r.groups rest := by
  unfold groups
  rw [← List.filterMap_append, List.singleton_append]

/-- The groups of the pools whose depths differ from the last ones, of one row each. -/
def DepthHistory.groups (last current : String → Depths) (timestamp : Int64) (pools : List String) : List (List Row) :=
  (dueRows last current timestamp pools).map fun row => [row]

/-- Groups of which none has a row of the ledger. -/
def OffLedger (groups : List (List Row)) : Prop := ∀ group ∈ groups, blockRows group = []

theorem offLedger_events (r : Recorder) (events : List (Event × Metadata)) : OffLedger (r.groups events) := by
  intro group hgroup
  obtain ⟨p, -, hrows⟩ := List.mem_filterMap.1 hgroup
  cases hp : p.1.rows r.natives p.2 with
  | error fault =>
    rw [hp] at hrows
    cases hrows
  | ok rows =>
    rw [hp] at hrows
    cases hrows
    exact Event.blockRows_rows hp

theorem offLedger_depths (last current : String → Depths) (timestamp : Int64) (pools : List String) :
    OffLedger (DepthHistory.groups last current timestamp pools) := by
  intro group hgroup
  obtain ⟨row, hrow, rfl⟩ := List.mem_map.1 hgroup
  obtain ⟨pool, -, rfl⟩ := List.mem_map.1 hrow
  exact blockRows_depthRow _ _ _

theorem OffLedger.blockRows_filter {groups : List (List Row)} (h : OffLedger groups) (p : List Row → Bool) :
    blockRows (groups.filter p).flatten = [] := by
  refine List.filter_eq_nil_iff.2 fun row hrow htable => ?_
  obtain ⟨group, hgroup, hmem⟩ := List.mem_flatten.1 hrow
  have hblock : row ∈ blockRows group := List.mem_filter.2 ⟨hmem, htable⟩
  rw [h group (List.mem_filter.1 hgroup).1] at hblock
  cases hblock

/-- The rows of these groups that are turned away. -/
def Strategy.awayRows (strategy : Strategy) (s : Store) (groups : List (List Row)) : Nat :=
  (groups.filter (s.turnsAway strategy)).flatten.length

theorem Strategy.awayRows_append (strategy : Strategy) (s : Store) (groups more : List (List Row)) :
    strategy.awayRows s (groups ++ more) = strategy.awayRows s groups + strategy.awayRows s more := by
  unfold awayRows
  rw [List.filter_append, List.flatten_append, List.length_append]

/-! ### The counts of an inserter -/

/-- What the inserter of an ingestor has counted, where so many rows were turned away since the last commit: the blocks
that it holds, and these rows. -/
structure Inserter.Counts (strategy : Strategy) (skipped : Nat) (i : Inserter) : Prop where
  strategy : i.strategy = strategy
  blocks : i.block.ended = (blockRows i.pending).length
  skipped : i.skipped = skipped

namespace Inserter

variable {strategy : Strategy} {skipped : Nat} {i i' : Inserter}

theorem counts_ofStrategy (strategy : Strategy) : (ofStrategy strategy).Counts strategy 0 := by
  cases strategy <;> exact ⟨rfl, rfl, rfl⟩

theorem Counts.start (h : i.Counts strategy skipped) (hstart : i.startBlock = .ok i') : i'.Counts strategy skipped := by
  obtain ⟨-, hended, hpending, hskipped, hstrategy⟩ := startBlock_counts hstart
  exact ⟨hstrategy.trans h.strategy, by rw [hended, hpending, h.blocks], hskipped.trans h.skipped⟩

/-- Groups that are not of the ledger. -/
theorem Counts.took {s : Store} {groups : List (List Row)} (h : i.Counts strategy skipped) (htook : Took s i i' groups)
    (hgroups : OffLedger groups) :
    i'.Counts strategy (skipped + strategy.awayRows s groups) := by
  refine ⟨htook.strategy.trans h.strategy, ?_, ?_⟩
  · rw [htook.block, h.blocks, htook.pending, blockRows_append, hgroups.blockRows_filter, List.append_nil]
  · rw [htook.skipped, h.skipped, h.strategy]
    rfl

/-- A block that ends with its row of the ledger. -/
theorem Counts.block {s : Store} {i₁ : Inserter} {b : Block} {state : Option (List UInt8)}
    (h : i.Counts strategy skipped) (htook : Took s i i₁ [[b.row state]])
    (htaken : s.turnsAway i.strategy [b.row state] = false) (hend : i₁.endBlock = .ok i') :
    i'.Counts strategy skipped := by
  obtain ⟨-, hended, hpending, hskipped, hstrategy⟩ := endBlock_counts hend
  refine ⟨hstrategy.trans (htook.strategy.trans h.strategy), ?_, ?_⟩
  · rw [hended, htook.block, h.blocks, hpending, htook.pending, List.filter_cons_of_pos (by rw [htaken]; rfl),
      List.filter_nil, List.flatten_singleton, blockRows_append, blockRows_row, List.length_append]
    rfl
  · rw [hskipped, htook.skipped, h.skipped, List.filter_cons_of_neg (by rw [htaken]; exact Bool.false_ne_true)]
    rfl

end Inserter

/-! ### Events -/

namespace Recorder

variable {r : Recorder} {s : Store} {b b' : Books}

/-- An event that goes through is counted once, and the store is asked about its rows if it has any. -/
theorem record_counts {e : Event} {m : Metadata} (hopen : b.inserter.Open) (h : r.record s b e m = (.ok (), b')) :
    b'.stats.recorded + b'.stats.rejected = b.stats.recorded + b.stats.rejected + 1 ∧
      b.inserter.Took s b'.inserter (r.groups [(e, m)]) := by
  unfold Recorder.record Recorder.insert at h
  unfold Recorder.groups
  cases hrows : e.rows r.natives m with
  | error stop =>
    rw [hrows] at h
    rw [List.filterMap_cons_none (by rw [hrows]; rfl)]
    cases stop with
    | overflow o => cases h
    | error fault =>
      cases h
      exact ⟨rfl, .none s b.inserter⟩
  | ok rows =>
    rw [hrows] at h
    rw [List.filterMap_cons_some (by rw [hrows]; rfl)]
    dsimp only at h
    cases hinsert : b.inserter.insertRows s rows with
    | mk result i =>
      rw [hinsert] at h
      cases result with
      | ok _ =>
        have htook := (Inserter.took_of_ok hopen hinsert).1
        dsimp only at h
        split at h
        · cases h
        · cases h
          exact ⟨Nat.add_right_comm _ _ _, htook⟩
      | error fault =>
        dsimp only at h
        split at h
        · rename_i hrefusal
          have htook := Inserter.took_of_refused hopen hinsert hrefusal
          cases h
          exact ⟨rfl, htook⟩
        · cases h

theorem recordAll_counts {events : List (Event × Metadata)} (hopen : b.inserter.Open)
    (h : r.recordAll s b events = (.ok (), b')) :
    b'.stats.recorded + b'.stats.rejected = b.stats.recorded + b.stats.rejected + events.length ∧
      b.inserter.Took s b'.inserter (r.groups events) := by
  induction events generalizing b with
  | nil =>
    cases h
    exact ⟨rfl, .none s _⟩
  | cons p rest ih =>
    unfold recordAll at h
    cases hrecord : r.record s b p.1 p.2 with
    | mk result b₁ =>
      rw [hrecord] at h
      cases result with
      | error stop => cases h
      | ok _ =>
        obtain ⟨hstats, htook⟩ := record_counts hopen hrecord
        obtain ⟨hstats', htook'⟩ := ih (htook.opened hopen) h
        rw [groups_cons, hstats', hstats, List.length_cons]
        exact ⟨by omega, htook.append htook'⟩

end Recorder

/-! ### Depths -/

namespace DepthHistory

variable {t : Totals} {timestamp : Int64} {s : Store} {p p' : Progress}

theorem recordPool_counts {pool : String} (hopen : p.inserter.Open)
    (h : recordPool t timestamp s p pool = (.ok (), p')) :
    p.inserter.Took s p'.inserter (groups p.history.last.get t.get timestamp [pool]) ∧
      ∀ q, q ≠ pool → p'.history.last.get q = p.history.last.get q := by
  unfold recordPool at h
  unfold groups dueRows
  by_cases hmoved : t.get pool = p.history.last.get pool
  · simp only [if_pos hmoved] at h
    cases h
    rw [List.filter_cons_of_neg (by simpa using hmoved)]
    exact ⟨.none s p.inserter, fun _ _ => rfl⟩
  · simp only [if_neg hmoved, insertRow_eq] at h
    rw [List.filter_cons_of_pos (by simpa using hmoved)]
    cases hinsert : p.inserter.insertRows s [row pool (t.get pool) timestamp] with
    | mk result i =>
      rw [hinsert] at h
      cases result with
      | ok _ =>
        have htook := (Inserter.took_of_ok hopen hinsert).1
        cases h
        refine ⟨htook, fun q hq => ?_⟩
        rw [Totals.get_set, if_neg hq]
      | error fault =>
        dsimp only at h
        split at h
        · rename_i hrefusal
          have htook := Inserter.took_of_refused hopen hinsert hrefusal
          cases h
          exact ⟨htook, fun _ _ => rfl⟩
        · cases h

theorem recordPools_counts {last : String → Depths} {pools : List String} (hopen : p.inserter.Open)
    (hnodup : pools.Nodup) (hlast : ∀ pool ∈ pools, p.history.last.get pool = last pool)
    (h : recordPools t timestamp s p pools = (.ok (), p')) :
    p.inserter.Took s p'.inserter (groups last t.get timestamp pools) := by
  induction pools generalizing p with
  | nil =>
    cases h
    exact .none s _
  | cons pool rest ih =>
    obtain ⟨hpool, hrest⟩ := List.nodup_cons.1 hnodup
    unfold recordPools at h
    cases hrecord : recordPool t timestamp s p pool with
    | mk result p₁ =>
      rw [hrecord] at h
      cases result with
      | error e => cases h
      | ok _ =>
        obtain ⟨htook, hothers⟩ := recordPool_counts hopen hrecord
        have htook' := ih (htook.opened hopen) hrest (fun q hq => by
          rw [hothers q (ne_of_mem_of_not_mem hq hpool)]
          exact hlast q (List.mem_cons_of_mem _ hq)) h
        have hfirst : groups p.history.last.get t.get timestamp [pool] = groups last t.get timestamp [pool] := by
          unfold groups dueRows
          simp only [List.filter_cons, List.filter_nil, hlast pool List.mem_cons_self]
        have hsplit : groups last t.get timestamp (pool :: rest) =
            groups last t.get timestamp [pool] ++ groups last t.get timestamp rest := by
          unfold groups dueRows
          rw [← List.map_append, ← List.map_append, ← List.filter_append]
          rfl
        rw [hsplit, ← hfirst]
        exact htook.append htook'

end DepthHistory

/-! ### Blocks that went through -/

structure Turn where
  before : Ingestor
  message : BlockMessage
  outcome : BlockOutcome
  after : Ingestor

namespace Turn

/-- The groups of rows of a block, those of its events and then those of its depths.  The row of the ledger is not
among them: if the store rejects it the block does not go through. -/
def groups (t : Turn) : List (List Row) :=
  t.before.recorder.groups (t.before.demux.run t.message.block).delivered ++
    DepthHistory.groups t.before.depths.last.get t.after.books.totals.get t.message.block.nanos
      t.after.books.totals.pools

def rejected (t : Turn) : List (List Row) := t.groups.filter t.before.store.rejects

end Turn

/-- The blocks behind the last commit. -/
def sinceCommit (turns : List Turn) : List Turn := turns.rtakeWhile fun t => t.outcome.flush.isNone

/-- The rows of the groups that the store rejected in some blocks.  The batch strategy offers it no groups. -/
def skippedRows : Strategy → List Turn → Nat
  | .batch, _ => 0
  | .tolerant, turns => (turns.flatMap Turn.rejected).flatten.length

theorem skippedRows_concat (strategy : Strategy) (turns : List Turn) (t : Turn) :
    skippedRows strategy (turns ++ [t]) = skippedRows strategy turns + strategy.awayRows t.before.store t.groups := by
  cases strategy with
  | batch =>
    have hnone : t.groups.filter (t.before.store.turnsAway .batch) = [] := List.filter_false _
    rw [Strategy.awayRows, hnone]
    rfl
  | tolerant =>
    show ((turns ++ [t]).flatMap Turn.rejected).flatten.length = _
    rw [List.flatMap_append, List.flatten_append, List.length_append, List.flatMap_singleton]
    rfl

/-- The rows that a flush has added, and its report of them. -/
def Flushed (before after : Store) (skipped : Nat) : Option FlushStats → Prop
  | none => after.rows = before.rows
  | some stats => ∃ added, after.rows = before.rows ++ added ∧ stats = ⟨(blockRows added).length, added.length, skipped⟩

/-- What a block reports is what it did, after the blocks of the past. -/
structure Turn.Exact (strategy : Strategy) (past : List Turn) (t : Turn) : Prop where
  events : t.outcome.record.recorded + t.outcome.record.rejected = t.outcome.demux.delivered + t.outcome.demux.injected
  flush : Flushed t.before.store t.after.store (skippedRows strategy (sinceCommit past ++ [t])) t.outcome.flush

namespace Ingestor

/-- Where an ingestor gets by blocks that go through.  Between them an outage begins or ends, and tables start or stop
to reject rows. -/
inductive Lasts (g₀ : Ingestor) : Ingestor → List Turn → Prop
  | start : Lasts g₀ g₀ []
  | refuse {g : Ingestor} {turns : List Turn} (outage : Bool) (tables : List String) (h : Lasts g₀ g turns) :
      Lasts g₀ (g.refusing outage tables) turns
  | process {g : Ingestor} {turns : List Turn} (message : BlockMessage) (o : BlockOutcome) (h : Lasts g₀ g turns)
      (hresult : (g.process message.block message.batchEnd).1 = .ok o) :
      Lasts g₀ (g.process message.block message.batchEnd).2
        (turns ++ [⟨g, message, o, (g.process message.block message.batchEnd).2⟩])

/-- The counts between two blocks. -/
structure Reckons (strategy : Strategy) (skipped : Nat) (g : Ingestor) : Prop where
  closed : g.books.inserter.Closed
  counts : g.books.inserter.Counts strategy skipped
  stats : g.books.stats = .zero

/-- The counts within a block whose row of the ledger is to come. -/
structure Fills (strategy : Strategy) (skipped : Nat) (g : Ingestor) : Prop where
  opened : g.books.inserter.Open
  counts : g.books.inserter.Counts strategy skipped
  stats : g.books.stats = .zero

section

variable {g g' : Ingestor} {strategy : Strategy} {skipped : Nat} {b : Block} {batchEnd : Bool} {o : BlockOutcome}

theorem recordEvents_counts {events : List (Event × Metadata)} {record : RecordStats} (hg : g.Fills strategy skipped)
    (h : g.recordEvents events = (.ok record, g')) :
    record.recorded + record.rejected = events.length ∧ g'.store = g.store ∧ g'.depths = g.depths ∧
      g'.Fills strategy (skipped + strategy.awayRows g.store (g.recorder.groups events)) := by
  unfold recordEvents at h
  cases hrecord : g.recorder.recordAll g.store g.books events with
  | mk result books =>
    rw [hrecord] at h
    cases result with
    | error stop => cases h
    | ok _ =>
      obtain ⟨hcount, htook⟩ := Recorder.recordAll_counts hg.opened hrecord
      cases h
      rw [hg.stats] at hcount
      exact ⟨hcount.trans (Nat.zero_add _), rfl, rfl, htook.opened hg.opened,
        hg.counts.took htook (offLedger_events _ _), rfl⟩

theorem recordDepths_counts {timestamp : Int64} {depthRows : Nat} (hg : g.Fills strategy skipped)
    (h : g.recordDepths timestamp = (.ok depthRows, g')) :
    g'.store = g.store ∧ g'.books.totals = g.books.totals ∧
      g'.Fills strategy (skipped + strategy.awayRows g.store
        (DepthHistory.groups g.depths.last.get g.books.totals.get timestamp g.books.totals.pools)) := by
  unfold recordDepths DepthHistory.record at h
  cases hrecord : DepthHistory.recordPools g.books.totals timestamp g.store ⟨g.depths, g.books.inserter, 0⟩
      g.books.totals.pools with
  | mk result p =>
    rw [hrecord] at h
    cases result with
    | error e => cases h
    | ok _ =>
      have htook := DepthHistory.recordPools_counts hg.opened (Totals.nodup_pools _) (fun _ _ => rfl) hrecord
      cases h
      exact ⟨rfl, rfl, htook.opened hg.opened, hg.counts.took htook (offLedger_depths _ _ _ _), hg.stats⟩

theorem recordBlock_counts {state : Option (List UInt8)} (hg : g.Fills strategy skipped)
    (h : g.recordBlock b state = (.ok (), g')) :
    g'.store = g.store ∧ g'.books.totals = g.books.totals ∧ g'.Reckons strategy skipped ∧
      g'.books.inserter.block.ended ≠ 0 := by
  unfold recordBlock at h
  rw [Inserter.insert_eq_insertRows (b.check_row state)] at h
  cases hinsert : g.books.inserter.insertRows g.store [b.row state] with
  | mk result i =>
    rw [hinsert] at h
    cases result with
    | error e => cases h
    | ok _ =>
      obtain ⟨htook, htaken⟩ := Inserter.took_of_ok hg.opened hinsert
      cases hend : i.endBlock with
      | error e =>
        simp only [hend] at h
        cases h
      | ok i' =>
        obtain ⟨hclosed, hended, -⟩ := Inserter.endBlock_counts hend
        have hcounts := hg.counts.block htook htaken hend
        simp only [hend] at h
        cases h
        exact ⟨rfl, rfl, ⟨hclosed, hcounts, hg.stats⟩, hended ▸ Nat.succ_ne_zero _⟩

/-- A commit reports what it stores, and the counts begin anew. -/
theorem commitTrack_counts {track : Option Track} {flush : Option FlushStats} (hg : g.Reckons strategy skipped)
    (hended : g.books.inserter.block.ended ≠ 0) (h : g.commitTrack track = (.ok flush, g')) :
    g'.Reckons strategy (if flush.isNone then skipped else 0) ∧ g'.books.totals = g.books.totals ∧
      Flushed g.store g'.store skipped flush := by
  cases track with
  | none =>
    cases h
    exact ⟨hg, rfl, rfl⟩
  | some t =>
    unfold commitTrack commit at h
    cases hflush : g.books.inserter.flush g.store with
    | mk result rest =>
      obtain ⟨i, s⟩ := rest
      rw [hflush] at h
      cases result with
      | error e => cases h
      | ok stats =>
        obtain ⟨rfl, rfl, rfl⟩ := Inserter.flush_counts hg.closed hended hflush
        cases h
        refine ⟨⟨Inserter.closed_ofStrategy _, ?_, hg.stats⟩, rfl, g.books.inserter.pending, rfl, ?_⟩
        · exact hg.counts.strategy ▸ Inserter.counts_ofStrategy _
        · rw [hg.counts.blocks, hg.counts.skipped]

theorem advance_counts {height : Int64} {o' : BlockOutcome} (h : g.advance height o = (.ok o', g')) :
    o' = o ∧ g'.books = g.books ∧ g'.store = g.store := by
  unfold advance at h
  split at h
  · cases h
  · cases h
    exact ⟨rfl, rfl, rfl⟩

/-- The row of the ledger and the commit. -/
theorem close_counts {stamp : Option Stamp} {demux : DemuxStats} {record : RecordStats} {depthRows : Nat}
    (hg : g.Fills strategy skipped) (h : g.close b stamp demux record depthRows = (.ok o, g')) :
    o.demux = demux ∧ o.record = record ∧ g'.books.totals = g.books.totals ∧
      g'.Reckons strategy (if o.flush.isNone then skipped else 0) ∧ Flushed g.store g'.store skipped o.flush := by
  unfold close at h
  cases hblock : g.recordBlock b (stamp.map Stamp.state) with
  | mk result g₁ =>
    rw [hblock] at h
    cases result with
    | error stop => cases h
    | ok _ =>
      obtain ⟨hstore₁, htotals₁, hg₁, hended⟩ := recordBlock_counts hg hblock
      dsimp only at h
      cases hcommit : g₁.commitTrack (stamp.map Stamp.track) with
      | mk result g₂ =>
        rw [hcommit] at h
        cases result with
        | error stop => cases h
        | ok flush =>
          obtain ⟨hg₂, htotals₂, hflushed⟩ := commitTrack_counts hg₁ hended hcommit
          obtain ⟨rfl, hbooks, hstore⟩ := advance_counts h
          rw [hstore, ← hstore₁]
          exact ⟨rfl, rfl, (congrArg Books.totals hbooks).trans (htotals₂.trans htotals₁),
            ⟨hbooks ▸ hg₂.closed, hbooks ▸ hg₂.counts, hbooks ▸ hg₂.stats⟩, hflushed⟩

/-- The depths of a block, and all that follows. -/
theorem finish_counts {demux : DemuxStats} {record : RecordStats} (hg : g.Fills strategy skipped)
    (h : g.finish b batchEnd demux record = (.ok o, g')) :
    let groups := DepthHistory.groups g.depths.last.get g'.books.totals.get b.nanos g'.books.totals.pools
    let skipped := skipped + strategy.awayRows g.store groups
    o.demux = demux ∧ o.record = record ∧ g'.Reckons strategy (if o.flush.isNone then skipped else 0) ∧
      Flushed g.store g'.store skipped o.flush := by
  unfold finish at h
  cases hdepths : g.recordDepths b.nanos with
  | mk result g₁ =>
    rw [hdepths] at h
    cases result with
    | error stop => cases h
    | ok depthRows =>
      obtain ⟨hstore, htotals, hg₁⟩ := recordDepths_counts hg hdepths
      dsimp only at h
      split at h
      · cases h
      · obtain ⟨hdemux, hrecord, htotals', hreckons, hflushed⟩ := close_counts hg₁ h
        dsimp only
        rw [htotals', htotals]
        exact ⟨hdemux, hrecord, hreckons, hstore ▸ hflushed⟩

/-- **One block**: it is counted with its events, its groups and what it commits. -/
theorem process_counts (hg : g.Reckons strategy skipped) (h : g.process b batchEnd = (.ok o, g')) :
    let skipped := skipped + strategy.awayRows g.store (Turn.groups ⟨g, ⟨b, batchEnd⟩, o, g'⟩)
    o.record.recorded + o.record.rejected = o.demux.delivered + o.demux.injected ∧
      g'.Reckons strategy (if o.flush.isNone then skipped else 0) ∧ Flushed g.store g'.store skipped o.flush := by
  unfold process at h
  split at h
  · cases h
  · dsimp only at h
    split at h
    · cases h
    · split at h
      · cases h
      · rename_i i hstart
        have hstart : g.books.inserter.startBlock = .ok i := hstart
        have hg₀ : ((g.report (g.demux.run b).log).withInserter i).Fills strategy skipped :=
          ⟨(Inserter.startBlock_counts hstart).1, hg.counts.start hstart, hg.stats⟩
        unfold fill at h
        cases hevents : ((g.report (g.demux.run b).log).withInserter i).recordEvents (g.demux.run b).delivered with
        | mk result g₁ =>
          rw [hevents] at h
          cases result with
          | error stop => cases h
          | ok record =>
            obtain ⟨hcount, hstore, hdepths, hg₁⟩ := recordEvents_counts hg₀ hevents
            obtain ⟨hdemux, hrecord, hreckons, hflushed⟩ := finish_counts hg₁ h
            have hstore : g₁.store = g.store := hstore
            have hdepths : g₁.depths = g.depths := hdepths
            rw [hstore, hdepths] at hreckons hflushed
            dsimp only
            rw [Turn.groups, Strategy.awayRows_append, ← Nat.add_assoc, hrecord, hdemux, hcount]
            exact ⟨g.demux.counted_run b, hreckons, hflushed⟩

/-! ### Any number of blocks -/

theorem lasts_exact {g₀ : Ingestor} {turns : List Turn} (hstart : g₀.Reckons strategy 0) (h : g₀.Lasts g turns) :
    g.Reckons strategy (skippedRows strategy (sinceCommit turns)) ∧
      ∀ past t rest, turns = past ++ t :: rest → t.Exact strategy past := by
  induction h with
  | start =>
    refine ⟨?_, fun past t rest hturns => ?_⟩
    · cases strategy <;> exact hstart
    · cases past <;> cases hturns
  | refuse outage tables _ ih => exact ⟨⟨ih.1.closed, ih.1.counts, ih.1.stats⟩, ih.2⟩
  | @process g turns message o _ hresult ih =>
    obtain ⟨hg, hexact⟩ := ih
    obtain ⟨hevents, hreckons, hflushed⟩ := process_counts hg (Prod.ext hresult rfl)
    rw [← skippedRows_concat strategy (sinceCommit turns) ⟨g, message, o, _⟩] at hreckons hflushed
    refine ⟨?_, fun past t rest hturns => ?_⟩
    · unfold sinceCommit at hreckons ⊢
      rw [List.rtakeWhile_concat]
      cases hflush : o.flush with
      | none =>
        rw [hflush] at hreckons
        exact hreckons
      | some stats =>
        rw [hflush] at hreckons
        cases strategy <;> exact hreckons
    · cases rest using List.reverseRecOn with
      | nil =>
        obtain ⟨rfl, ht⟩ := List.append_inj' hturns rfl
        cases ht
        exact ⟨hevents, hflushed⟩
      | append_singleton rest last _ =>
        have hsplit : turns ++ [⟨g, message, o, _⟩] = (past ++ t :: rest) ++ [last] :=
          hturns.trans (List.append_assoc past (t :: rest) [last]).symm
        exact hexact past t rest (List.append_inj' hsplit rfl).1

end

end Ingestor

/-- **Reports**: each block of a lifetime counts all its events as recorded or rejected.  Each commit reports as many
rows and blocks as the store got, and as many rows skipped as the store rejected since the commit before. -/
theorem Setup.counts_exact (setup : Setup) (s : Store) (r : Recovered) {g : Ingestor} {turns past rest : List Turn}
    {t : Turn} (h : (setup.ingestor s r).Lasts g turns) (hturn : turns = past ++ t :: rest) :
    t.Exact setup.strategy past :=
  (Ingestor.lasts_exact ⟨Inserter.closed_ofStrategy _, Inserter.counts_ofStrategy _, rfl⟩ h).2 past t rest hturn

/-- The row of depths is rejected after each of three blocks, and the first and the last block commit. -/
theorem Setup.counts_exact_rejecting :
    let setup := Setup.seeded .tolerant 5
    let s : Store := { Store.empty with rejectedTables := ["block_pool_depths"] }
    ∃ (g : Ingestor) (turns : List Turn), (setup.ingestor s (.fresh 5)).Lasts g turns ∧
      turns.map (fun t => t.outcome.flush) = [some ⟨1, 2, 1⟩, none, some ⟨2, 2, 2⟩] ∧
      ∀ past t rest, turns = past ++ t :: rest → t.Exact .tolerant past := by
  intro setup s
  have hfirst : (setup.ingestor s (.fresh 5)).Lasts _ _ :=
    .process ⟨.bare 5, false⟩ ⟨true, ⟨0, 0, 0, 0, 0, 1, 0⟩, ⟨1, 0⟩, 0, some ⟨1, 2, 1⟩⟩ .start (by decide +kernel)
  have hsecond : (setup.ingestor s (.fresh 5)).Lasts _ _ :=
    .process ⟨.bare 6, false⟩ ⟨false, .zero, .zero, 0, none⟩ hfirst (by decide +kernel)
  have hthird : (setup.ingestor s (.fresh 5)).Lasts _ _ :=
    .process ⟨.bare 7, true⟩ ⟨true, .zero, .zero, 0, some ⟨2, 2, 2⟩⟩ hsecond (by decide +kernel)
  exact ⟨_, _, hthird, rfl, fun past t rest hturn => setup.counts_exact s (.fresh 5) hthird hturn⟩

end PoolIndexer
