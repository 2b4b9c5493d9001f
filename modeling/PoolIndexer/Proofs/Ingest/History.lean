import PoolIndexer.Proofs.Ingest.Pieces
import PoolIndexer.Proofs.Record.DepthRows

/-!
# Proofs.Ingest.History — what an ingestor remembers of the rows of depths

* `Ingestor.Recalls`: the depths that an ingestor remembers are those of the rows since it began, on
  top of those it began with.  Refused rows and failures change nothing about it.
* `World.CaughtUp`: at each point of a block, the pools that have had their turn are remembered with
  the depths they have.  It takes a block in which no row of depths is refused.
-/

namespace PoolIndexer

section

variable (base : String → Depths) (stored : List Row)

structure Ingestor.Recalls (g : Ingestor) : Prop where
  since : ∃ since, g.rows = stored ++ since ∧
    ∀ pool, lastDepths (base pool) pool since = g.depths.last.get pool
  /-- A pool that no ledger has seen has no depths to remember. -/
  grounded : ∀ pool, pool ∉ g.books.totals.pools → g.depths.last.get pool = .zero

def World.Recalls : World → Prop
  | .down _ => True
  | .idle g => g.Recalls base stored ∧ g.books.inserter.Closed
  | .busy g job => g.Recalls base stored ∧ job.task.Ready g

end

/-- The pools that have had their turn at this point of a block are remembered as they are. -/
def World.CaughtUp : World → Prop
  | .down _ => True
  | .idle g => ∀ pool, g.depths.last.get pool = g.books.totals.get pool
  | .busy g job =>
    match job.task with
    | .events _ => True
    | .depths _ _ rest => ∀ pool, pool ∉ rest → g.depths.last.get pool = g.books.totals.get pool
    | .ledger _ _ | .commit _ _ _ => ∀ pool, g.depths.last.get pool = g.books.totals.get pool

section

variable {base : String → Depths} {stored : List Row}

/-! ### What the ingestor remembers -/

namespace Ingestor

theorem Recalls.of_eq {g g' : Ingestor} (h : g.Recalls base stored) (hrows : g'.rows = g.rows)
    (htotals : g'.books.totals = g.books.totals) (hdepths : g'.depths = g.depths) :
    g'.Recalls base stored := by
  obtain ⟨⟨since, hsince, hlast⟩, hgrounded⟩ := h
  refine ⟨⟨since, hrows.trans hsince, fun pool => ?_⟩, fun pool hpool => ?_⟩
  · rw [hdepths]
    exact hlast pool
  · rw [htotals] at hpool
    rw [hdepths]
    exact hgrounded pool hpool

/-- Rows that give no depths. -/
theorem Recalls.append {g g' : Ingestor} (h : g.Recalls base stored) (added : List Row)
    (hrows : g'.rows = g.rows ++ added)
    (hadded : ∀ base pool rows, lastDepths base pool (rows ++ added) = lastDepths base pool rows)
    (hpools : ∀ pool, pool ∈ g.books.totals.pools → pool ∈ g'.books.totals.pools)
    (hdepths : g'.depths = g.depths) : g'.Recalls base stored := by
  obtain ⟨⟨since, hsince, hlast⟩, hgrounded⟩ := h
  refine ⟨⟨since ++ added, ?_, fun pool => ?_⟩, fun pool hpool => ?_⟩
  · rw [hrows, hsince, List.append_assoc]
  · rw [hadded, hdepths]
    exact hlast pool
  · rw [hdepths]
    exact hgrounded pool fun hmem => hpool (hpools pool hmem)

/-- The row of a pool that is then remembered. -/
theorem Recalls.append_depthRow {g g' : Ingestor} (h : g.Recalls base stored) (pool : String)
    (timestamp : Int64)
    (hrows : g'.rows = g.rows ++ [DepthHistory.row pool (g.books.totals.get pool) timestamp])
    (htotals : g'.books.totals = g.books.totals)
    (hdepths : g'.depths = ⟨g.depths.last.set pool (g.books.totals.get pool)⟩) :
    g'.Recalls base stored := by
  obtain ⟨⟨since, hsince, hlast⟩, hgrounded⟩ := h
  have hget : ∀ p, g'.depths.last.get p =
      if p = pool then g.books.totals.get pool else g.depths.last.get p := by
    intro p
    rw [hdepths]
    exact Totals.get_set _ _ _ _
  refine ⟨⟨since ++ [DepthHistory.row pool (g.books.totals.get pool) timestamp], ?_, fun p => ?_⟩,
    fun p hp => ?_⟩
  · rw [hrows, hsince, List.append_assoc]
  · rw [lastDepths_append_depthRow, hget, hlast p]
    by_cases hpool : p = pool
    · rw [if_pos hpool, if_pos hpool.symm]
    · rw [if_neg hpool, if_neg (Ne.symm hpool)]
  · rw [htotals] at hp
    rw [hget]
    by_cases hpool : p = pool
    · rw [if_pos hpool, ← hpool]
      exact Totals.get_eq_zero hp
    · rw [if_neg hpool]
      exact hgrounded p hp

end Ingestor

theorem Totals.mem_pools_of_applyAll {t : Totals} {planned : List PlannedChange}
    (hfault : (t.applyAll planned).fault = none) {pool : String} (h : pool ∈ t.pools) :
    pool ∈ (t.applyAll planned).totals.pools := by
  have happly := Totals.applyAll_balances planned t
  rw [hfault] at happly
  exact Balances.mem_pools_applyAll happly h

namespace World

theorem Recalls.ready {w : World} (h : w.Recalls base stored) : w.Ready := by
  cases w with
  | down s => trivial
  | idle g => exact h.2
  | busy g job => exact h.2

theorem Recalls.withStore {w : World} {s : Store} (h : w.Recalls base stored)
    (hs : s.rows = w.store.rows) : (w.withStore s).Recalls base stored := by
  cases w with
  | down s' => trivial
  | idle g =>
    have hrows : ({ g with store := s } : Ingestor).rows = g.rows := congrArg (· ++ _) hs
    exact ⟨h.1.of_eq hrows rfl rfl, h.2⟩
  | busy g job =>
    have hrows : ({ g with store := s } : Ingestor).rows = g.rows := congrArg (· ++ _) hs
    refine ⟨h.1.of_eq hrows rfl rfl, ?_⟩
    obtain ⟨b, batchEnd, demux, task⟩ := job
    cases task <;> exact h.2

theorem recalls_offer {g : Ingestor} (h : (World.idle g).Recalls base stored) (b : Block) (batchEnd : Bool) :
    (g.offer b batchEnd).Recalls base stored := by
  obtain ⟨hrecalls, hclosed⟩ := h
  rcases Ingestor.offer_cases hclosed b batchEnd with hdown | ⟨i, log, -, hopen, hrows, hbusy⟩
  · rw [hdown]
    trivial
  · rw [hbusy]
    exact ⟨hrecalls.of_eq hrows rfl rfl, hopen⟩

theorem recalls_worked {w v : World} (hworked : w.Worked v) (h : w.Recalls base stored) :
    v.Recalls base stored := by
  cases hworked with
  | down s => trivial
  | idle g => exact h
  | gone g job constants => trivial
  | event hopen hrows hadded hfault htotals =>
    refine ⟨h.1.append _ hadded ?_ (fun pool hpool => ?_) rfl, hopen⟩
    · exact fun base pool rows => lastDepths_append_events base (Event.isTable_rows hrows)
    · rw [htotals]
      exact Totals.mem_pools_of_applyAll hfault hpool
  | leaveOut hopen hrows htotals => exact ⟨h.1.of_eq hrows htotals rfl, hopen⟩
  | eventsDone g job => exact ⟨h.1.of_eq rfl rfl rfl, h.2⟩
  | depthRow hopen hmoved hadded => exact ⟨h.1.append_depthRow _ _ hadded rfl rfl, hopen⟩
  | passOver hopen hrows => exact ⟨h.1.of_eq hrows rfl rfl, hopen⟩
  | depthsDone => exact h
  | ledger hclosed hended hadded =>
    refine ⟨h.1.append _ hadded ?_ (fun _ hpool => hpool) rfl, hclosed, hended⟩
    exact fun base pool rows => lastDepths_append_block base pool rows _ _
  | lastBlock => trivial
  | commit hstore hrows hclosed hnext htotals hdepths => exact ⟨h.1.of_eq hrows htotals hdepths, hclosed⟩

/-! ### Tables that reject rows -/

/-- A row of depths is refused only where its table rejects rows. -/
theorem not_refuses_of_taken {w : World} (hready : w.Ready)
    (htaken : "block_pool_depths" ∉ w.store.rejectedTables) : ¬ w.RefusesDepthRow := by
  cases w with
  | down s => exact id
  | idle g => exact id
  | busy g job =>
    obtain ⟨b, batchEnd, demux, task⟩ := job
    cases task with
    | events rest => exact id
    | ledger record depthRows => exact id
    | commit stamp record depthRows => exact id
    | depths record written rest =>
      cases rest with
      | nil => exact id
      | cons pool rest =>
        rintro ⟨-, e, i, hinsert, hrefusal⟩
        rw [DepthHistory.insertRow_eq] at hinsert
        rcases Inserter.insertRows_cases hready g.store
            [DepthHistory.row pool (g.books.totals.get pool) b.nanos] with
          ⟨i', hi, -⟩ | ⟨e', i', -, -, hrejects, -⟩ | ⟨e', i', hi, hfailure, -⟩
        · cases hi.symm.trans hinsert
        · rw [DepthHistory.rejects_row] at hrejects
          exact htaken (List.contains_iff_mem.1 hrejects)
        · cases hi.symm.trans hinsert
          rw [hrefusal] at hfailure
          cases hfailure

theorem rejectedTables_offer {g : Ingestor} (hclosed : g.books.inserter.Closed) (b : Block) (batchEnd : Bool) :
    (g.offer b batchEnd).store.rejectedTables = g.store.rejectedTables := by
  rcases Ingestor.offer_cases hclosed b batchEnd with hdown | ⟨i, log, -, -, -, hbusy⟩
  · rw [hdown]
    rfl
  · rw [hbusy]
    rfl

/-- No piece of a block changes which tables reject rows. -/
theorem rejectedTables_worked {w v : World} (hworked : w.Worked v) :
    v.store.rejectedTables = w.store.rejectedTables := by
  cases hworked with
  | commit hstore =>
    refine (congrArg Store.rejectedTables hstore).trans ?_
    split <;> rfl
  | _ => rfl

/-! ### A block that is not refused -/

theorem CaughtUp.withStore {w : World} (h : w.CaughtUp) (s : Store) : (w.withStore s).CaughtUp := by
  cases w with
  | down s' => trivial
  | idle g => exact h
  | busy g job => exact h

theorem caughtUp_offer {g : Ingestor} (hclosed : g.books.inserter.Closed) (b : Block) (batchEnd : Bool) :
    (g.offer b batchEnd).CaughtUp := by
  rcases Ingestor.offer_cases hclosed b batchEnd with hdown | ⟨i, log, -, -, -, hbusy⟩
  · rw [hdown]
    trivial
  · rw [hbusy]
    trivial

theorem caughtUp_worked {w v : World} (hworked : w.Worked v) (hrecalls : w.Recalls base stored)
    (hrefuses : ¬ w.RefusesDepthRow) (h : w.CaughtUp) : v.CaughtUp := by
  cases hworked with
  | eventsDone g job =>
    -- a pool that no ledger has seen is remembered as empty, and is empty
    intro pool hpool
    show g.depths.last.get pool = g.books.totals.get pool
    rw [hrecalls.1.grounded pool hpool, Totals.get_eq_zero hpool]
  | @depthRow g job record written pool rest i hopen hmoved hadded =>
    intro p hp
    show (g.depths.last.set pool (g.books.totals.get pool)).get p = g.books.totals.get p
    rw [Totals.get_set]
    by_cases hpool : p = pool
    · rw [if_pos hpool, hpool]
    · rw [if_neg hpool]
      exact h p fun hmem => (List.mem_cons.1 hmem).elim hpool hp
  | @passOver g job record written pool rest i hopen hrows hstill =>
    intro p hp
    show g.depths.last.get p = g.books.totals.get p
    by_cases hpool : p = pool
    · rw [hpool]
      exact (hstill.resolve_right hrefuses).symm
    · exact h p fun hmem => (List.mem_cons.1 hmem).elim hpool hp
  | depthsDone => exact fun pool => h pool List.not_mem_nil
  | commit hstore hrows hclosed hnext htotals hdepths =>
    intro pool
    rw [htotals, hdepths]
    exact h pool
  | idle g => exact h
  | ledger => exact h
  | down | gone | event | leaveOut | lastBlock => trivial

end World

end

end PoolIndexer
