import PoolIndexer.Proofs.Ingest.Attempts

/-!
# Proofs.Ingest.Retry — a block that is offered again after an error

* `Ingestor.Retries`: any calls one after another, also after errors, while the store fails and recovers
  between them.
* `Ingestor.Tidy`: the heights that are stored and held increase up to the next one.
* `Ingestor.Once`: so do the heights of the blocks that the totals have counted.
* `Setup.retries_once`: no block is counted or stored twice, under the batch strategy as long as no call
  follows a failed commit.  Under the tolerant strategy no commit fails: its rows were taken in the same call.
* `Setup.retries_repeat`: under the batch strategy a block whose commit failed can be stored twice.
-/

namespace PoolIndexer

/-! ### Calls one after another -/

/-- An overflow ends the program; the call never comes back. -/
def overflowed (result : Except (Stop IndexerError) BlockOutcome) : Bool :=
  match result with
  | .error (.overflow _) => true
  | _ => false

theorem ne_overflow {result : Except (Stop IndexerError) BlockOutcome} (h : overflowed result = false)
    (o : Overflow) : result ≠ .error (.overflow o) := by
  rintro rfl
  cases h

/-- The store failed after the block had ended, which is in the commit. -/
def commitFailed (result : Except (Stop IndexerError) BlockOutcome) (g : Ingestor) : Bool :=
  match result with
  | .error (.error (.store _)) => !g.books.inserter.block.isOpen
  | _ => false

/-- One call and what came of it. -/
structure Attempt where
  block : Block
  /-- The events of the call that the totals count. -/
  counted : List (Event × Metadata)
  commitFailed : Bool

def Ingestor.attempt (g : Ingestor) (b : Block) (batchEnd : Bool) : Attempt :=
  ⟨b, g.counted b, PoolIndexer.commitFailed (g.process b batchEnd).1 (g.process b batchEnd).2⟩

/-- The heights of the attempts that have counted something. -/
def countedHeights (as : List Attempt) : List Int64 :=
  (as.filter fun a => !a.counted.isEmpty).map fun a => a.block.height

theorem countedHeights_append (as as' : List Attempt) :
    countedHeights (as ++ as') = countedHeights as ++ countedHeights as' := by
  unfold countedHeights
  rw [List.filter_append, List.map_append]

/-- Where an ingestor gets by calls that come back, whatever they come back with. -/
inductive Ingestor.Retries (g₀ : Ingestor) : Ingestor → List Attempt → Prop
  | start : Retries g₀ g₀ []
  /-- An outage begins or ends, and tables start or stop to reject rows. -/
  | refuse {g : Ingestor} {as : List Attempt} (outage : Bool) (tables : List String) (h : Retries g₀ g as) :
      Retries g₀ (g.refusing outage tables) as
  | process {g : Ingestor} {as : List Attempt} (b : Block) (batchEnd : Bool) (h : Retries g₀ g as)
      (hreturns : overflowed (g.process b batchEnd).1 = false) :
      Retries g₀ (g.process b batchEnd).2 (as ++ [g.attempt b batchEnd])

/-! ### What calls keep -/

namespace Inserter

theorem isOpen_of_closed {i : Inserter} (h : i.Closed) : i.block.isOpen = false := by
  cases i with
  | batch b => exact h.1
  | tolerant w => exact h

theorem not_closed_of_open {i : Inserter} (h : i.Open) : ¬ i.Closed := by
  intro hclosed
  have hopen : i.block.isOpen = true := h
  rw [isOpen_of_closed hclosed] at hopen
  cases hopen

end Inserter

namespace Ingestor

/-- On top of the heights `base`, those stored and those held increase from `low` up to the next one.  What an
open block holds does not matter, for it is never stored. -/
structure Tidy (base : List Int64) (low : Int) (g : Ingestor) : Prop where
  le : low ≤ g.nextHeight.toInt
  ready : g.books.inserter.Open ∨ g.books.inserter.Closed
  heights : ∃ stored, g.store.heights = base ++ stored ∧ Ascends low stored g.nextHeight.toInt ∧
    (g.books.inserter.Closed → Ascends low (stored ++ heightsIn g.books.inserter.pending) g.nextHeight.toInt)

/-- The same of what is stored alone. -/
def Stored (base : List Int64) (low : Int) (g : Ingestor) : Prop :=
  ∃ stored, g.store.heights = base ++ stored ∧ Ascends low stored g.nextHeight.toInt

/-- The heights of the blocks that are counted increase; the last one may be that of a block still open. -/
structure Once (low : Int) (as : List Attempt) (g : Ingestor) : Prop where
  opened : Ascends low (countedHeights as) (g.nextHeight.toInt + 1)
  closed : g.books.inserter.Closed → Ascends low (countedHeights as) g.nextHeight.toInt

variable {base : List Int64} {low : Int} {g g' : Ingestor} {as : List Attempt} {b : Block}
  {result : Except (Stop IndexerError) BlockOutcome}

theorem Tidy.stored (h : g.Tidy base low) : g.Stored base low := by
  obtain ⟨stored, hheights, hascends, -⟩ := h.heights
  exact ⟨stored, hheights, hascends⟩

theorem commitFailed_of_refused {e : IndexerError} (h : ∀ f, e ≠ .store f) :
    commitFailed (.error (.error e)) g' = false := by
  cases e with
  | store f => exact absurd rfl (h f)
  | _ => rfl

theorem commitFailed_of_open {e : IndexerError} (h : g'.books.inserter.Open) :
    commitFailed (.error (.error e)) g' = false := by
  have hopen : g'.books.inserter.block.isOpen = true := h
  cases e with
  | store f =>
    unfold commitFailed
    rw [hopen]
    rfl
  | _ => rfl

theorem commitFailed_of_closed {f : StoreError} (h : g'.books.inserter.Closed) :
    commitFailed (.error (.error (.store f))) g' = true := by
  unfold commitFailed
  rw [Inserter.isOpen_of_closed h]
  rfl

theorem heights_eq (s : Store) : s.heights = heightsIn s.rows := rfl

/-- After a call that leaves no failed commit behind all is as tidy as before. -/
theorem Attempted.tidy (h : g.Attempted b result g') (hg : g.Tidy base low)
    (hcommit : commitFailed result g' = false) : g'.Tidy base low := by
  obtain ⟨hle, hready, stored, hheights, hascends, hheld⟩ := hg
  rw [heights_eq] at hheights
  cases h with
  | refused hstore hcounted hrows hinserter hnext =>
    refine ⟨hnext ▸ hle, hinserter ▸ hready, stored, ?_, hnext ▸ hascends, ?_⟩
    · rw [heights_eq, hrows, hheights]
    · rw [hinserter, hnext]
      exact hheld
  | begun hclosed hheight hends =>
    cases hends with
    | stuck hopen hrows hnext =>
      refine ⟨hnext ▸ hle, .inl hopen, stored, ?_, hnext ▸ hascends, fun hclosed' => ?_⟩
      · rw [heights_eq, hrows, hheights]
      · exact absurd hclosed' (Inserter.not_closed_of_open hopen)
    | uncommitted hclosed' =>
      rw [commitFailed_of_closed hclosed'] at hcommit
      cases hcommit
    | through hclosed' hadded hrows hnext =>
      -- the block stands behind all that was stored and held
      have hall : Ascends low (stored ++ heightsIn g.books.inserter.pending ++ [b.height]) g'.nextHeight.toInt := by
        rw [hnext]
        exact (hheld hclosed).snoc hle (congrArg Int64.toInt hheight)
      have hheights' : heightsIn g'.rows = base ++ (stored ++ heightsIn g.books.inserter.pending ++ [b.height]) := by
        rw [hadded, rows, heightsIn_append, hheights]
        simp only [List.append_assoc]
      rw [rows, heightsIn_append] at hheights'
      rcases hrows with hrows | hpending
      · rw [hrows, hheights, List.append_assoc] at hheights'
        have hsame := List.append_cancel_left hheights'
        refine ⟨by omega, .inr hclosed', stored, ?_, hall.left.left, fun _ => ?_⟩
        · rw [heights_eq, hrows, hheights]
        · rw [hsame]
          exact hall
      · rw [hpending, show heightsIn [] = [] from rfl, List.append_nil] at hheights'
        refine ⟨by omega, .inr hclosed', _, hheights', hall, fun _ => ?_⟩
        rw [hpending]
        exact (List.append_nil _).symm ▸ hall

/-- Whatever a call comes back with, the heights stored stay in order. -/
theorem Attempted.stored (h : g.Attempted b result g') (hg : g.Tidy base low) : g'.Stored base low := by
  cases hcommit : commitFailed result g' with
  | false => exact (h.tidy hg hcommit).stored
  | true =>
    obtain ⟨stored, hheights, hascends⟩ := hg.stored
    cases h with
    | refused hstore =>
      rw [commitFailed_of_refused hstore] at hcommit
      cases hcommit
    | begun hclosed hheight hends =>
      cases hends with
      | stuck hopen =>
        rw [commitFailed_of_open hopen] at hcommit
        cases hcommit
      | through => cases hcommit
      | uncommitted hclosed' hrows hnext =>
        refine ⟨stored, ?_, hnext ▸ hascends⟩
        rw [heights_eq, hrows]
        exact hheights

/-- The height of a call that has counted something comes behind those counted before. -/
theorem countedHeights_process (hheight : b.height = g.nextHeight) (hle : low ≤ g.nextHeight.toInt)
    (has : Ascends low (countedHeights as) g.nextHeight.toInt) (failed : Bool) :
    Ascends low (countedHeights (as ++ [⟨b, g.counted b, failed⟩])) (g.nextHeight.toInt + 1) := by
  rw [countedHeights_append]
  cases hcounted : (g.counted b).isEmpty with
  | true =>
    have hnone : countedHeights [⟨b, g.counted b, failed⟩] = [] := by
      simp [countedHeights, hcounted]
    rw [hnone, List.append_nil]
    exact has.mono (by omega)
  | false =>
    have hone : countedHeights [⟨b, g.counted b, failed⟩] = [b.height] := by
      simp [countedHeights, hcounted]
    rw [hone]
    exact has.snoc hle (congrArg Int64.toInt hheight)

theorem countedHeights_refused (hcounted : g.counted b = []) (failed : Bool) :
    countedHeights (as ++ [⟨b, g.counted b, failed⟩]) = countedHeights as := by
  rw [countedHeights_append, hcounted]
  exact List.append_nil _

/-- Whatever a call comes back with, no height is counted twice. -/
theorem Attempted.opened (h : g.Attempted b result g') (hle : low ≤ g.nextHeight.toInt) (hg : g.Once low as)
    (failed : Bool) :
    Ascends low (countedHeights (as ++ [⟨b, g.counted b, failed⟩])) (g'.nextHeight.toInt + 1) := by
  cases h with
  | refused hstore hcounted hrows hinserter hnext =>
    rw [countedHeights_refused hcounted, hnext]
    exact hg.opened
  | begun hclosed hheight hends =>
    have hall := countedHeights_process hheight hle (hg.closed hclosed) failed
    cases hends with
    | stuck hopen hrows hnext => exact hnext ▸ hall
    | uncommitted hclosed' hrows hnext => exact hnext ▸ hall
    | through hclosed' hadded hrows hnext => exact hall.mono (by omega)

theorem Attempted.once (h : g.Attempted b result g') (hle : low ≤ g.nextHeight.toInt) (hg : g.Once low as)
    (hcommit : commitFailed result g' = false) (failed : Bool) :
    g'.Once low (as ++ [⟨b, g.counted b, failed⟩]) := by
  refine ⟨h.opened hle hg failed, fun hclosed' => ?_⟩
  cases h with
  | refused hstore hcounted hrows hinserter hnext =>
    rw [countedHeights_refused hcounted, hnext]
    exact hg.closed (hinserter ▸ hclosed')
  | begun hclosed hheight hends =>
    cases hends with
    | stuck hopen => exact absurd hclosed' (Inserter.not_closed_of_open hopen)
    | uncommitted =>
      rw [commitFailed_of_closed hclosed'] at hcommit
      cases hcommit
    | through _ hadded hrows hnext =>
      rw [hnext]
      exact countedHeights_process hheight hle (hg.closed hclosed) failed

theorem Attempted.ready (h : g.Attempted b result g')
    (hready : g.books.inserter.Open ∨ g.books.inserter.Closed) :
    g'.books.inserter.Open ∨ g'.books.inserter.Closed := by
  cases h with
  | refused hstore hcounted hrows hinserter => exact hinserter ▸ hready
  | begun hclosed hheight hends =>
    cases hends with
    | stuck hopen => exact .inl hopen
    | uncommitted hclosed' => exact .inr hclosed'
    | through hclosed' => exact .inr hclosed'

/-! ### Any calls -/

theorem Counts.append {g₀ : Ingestor} {a : Attempt} (h : g₀.Counts (as.flatMap Attempt.counted) g)
    (h' : g.Counts a.counted g') : g₀.Counts ((as ++ [a]).flatMap Attempt.counted) g' := by
  refine ⟨h'.demux.trans h.demux, h'.recorder.trans h.recorder, h'.strategy.trans h.strategy, ?_⟩
  rw [List.flatMap_append, List.flatMap_singleton, Recorder.planned_append]
  exact h.totals.trans (h.recorder ▸ h'.totals)

/-- The tolerant strategy never fails to commit. -/
theorem Attempted.not_commitFailed (h : g.Attempted b result g') (htolerant : g.books.inserter.strategy = .tolerant) :
    commitFailed result g' = false := by
  cases h with
  | refused hstore => exact commitFailed_of_refused hstore
  | begun hclosed hheight hends =>
    cases hends with
    | stuck hopen => exact commitFailed_of_open hopen
    | uncommitted _ _ _ hbatch => cases hbatch.symm.trans htolerant
    | through => rfl

/-- No commit has failed. -/
def NoneFailed (as : List Attempt) : Prop := ∀ a ∈ as, a.commitFailed = false

/-- What holds after any calls. -/
structure Retried (base : List Int64) (low : Int) (g₀ g : Ingestor) (as : List Attempt) : Prop where
  counts : g₀.Counts (as.flatMap Attempt.counted) g
  sublist : ∀ a ∈ as, a.counted.Sublist (g₀.demux.run a.block).delivered
  ready : g.books.inserter.Open ∨ g.books.inserter.Closed
  tolerant : g₀.books.inserter.strategy = .tolerant → NoneFailed as
  tidy : NoneFailed as → g.Tidy base low ∧ g.Once low as
  stored : NoneFailed as.dropLast → g.Stored base low ∧ Ascends low (countedHeights as) (g.nextHeight.toInt + 1)

theorem Retries.retried {g₀ : Ingestor} (hg₀ : g₀.Tidy base low) (hclosed₀ : g₀.books.inserter.Closed)
    (h : g₀.Retries g as) : Retried base low g₀ g as := by
  induction h with
  | start =>
    exact ⟨⟨rfl, rfl, rfl, .refl _⟩, nofun, .inr hclosed₀, fun _ => nofun,
      fun _ => ⟨hg₀, .nil _ _, fun _ => .nil _ _⟩, fun _ => ⟨hg₀.stored, .nil _ _⟩⟩
  | refuse outage tables _ ih =>
    obtain ⟨hcounts, hsublist, hready, htolerant, htidy, hstored⟩ := ih
    refine ⟨⟨hcounts.demux, hcounts.recorder, hcounts.strategy, hcounts.totals⟩, hsublist, hready, htolerant,
      fun hnone => ?_, hstored⟩
    obtain ⟨htidy, honce⟩ := htidy hnone
    exact ⟨⟨htidy.le, htidy.ready, htidy.heights⟩, honce.opened, honce.closed⟩
  | @process g as b batchEnd _ hreturns ih =>
    obtain ⟨hcounts, hsublist, hready, htolerant, htidy, -⟩ := ih
    obtain ⟨hcounts', hattempted⟩ := attempted_process hready rfl (ne_overflow hreturns)
    refine ⟨hcounts.append hcounts', ?_, hattempted.ready hready, fun hkind => ?_, fun hnone => ?_, fun hnone => ?_⟩
    · refine List.forall_mem_append.2 ⟨hsublist, List.forall_mem_singleton.2 ?_⟩
      exact hcounts.demux ▸ g.counted_sublist b
    · refine List.forall_mem_append.2 ⟨htolerant hkind, List.forall_mem_singleton.2 ?_⟩
      exact hattempted.not_commitFailed (hcounts.strategy.trans hkind)
    · obtain ⟨hbefore, hlast⟩ := List.forall_mem_append.1 hnone
      have hcommit : (g.attempt b batchEnd).commitFailed = false := hlast _ (List.mem_singleton.2 rfl)
      obtain ⟨htidy, honce⟩ := htidy hbefore
      exact ⟨hattempted.tidy htidy hcommit, hattempted.once htidy.le honce hcommit _⟩
    · rw [List.dropLast_concat] at hnone
      obtain ⟨htidy, honce⟩ := htidy hnone
      exact ⟨hattempted.stored htidy, hattempted.opened htidy.le honce _⟩

end Ingestor

open Ingestor in
/-- **Retries**: calls follow one another, also after errors, on a store that fails and recovers between them.
The totals count the events whose rows were taken and no others, each call counting an event of its block at most
once.  The blocks counted have different heights, and so have the blocks stored, which increase from the first
height on; under the batch strategy this takes that no call follows a failed commit. -/
theorem Setup.retries_once (setup : Setup) (s : Store) (r : Recovered) {g : Ingestor} {as : List Attempt}
    (h : (setup.ingestor s r).Retries g as) :
    r.totals.Leads (setup.recorder.planned (as.flatMap Attempt.counted)) g.books.totals ∧
      (∀ a ∈ as, a.counted.Sublist (setup.demux.run a.block).delivered) ∧
      (setup.strategy = .tolerant ∨ NoneFailed as.dropLast →
        (countedHeights as).Nodup ∧
        ∃ stored, g.store.heights = s.heights ++ stored ∧ Ascends r.nextHeight.toInt stored g.nextHeight.toInt ∧
          (s.heights.Nodup → (∀ x ∈ s.heights, x.toInt < r.nextHeight.toInt) → g.store.heights.Nodup)) := by
  have hclosed : (setup.ingestor s r).books.inserter.Closed := Inserter.closed_ofStrategy setup.strategy
  have hstrategy : (setup.ingestor s r).books.inserter.strategy = setup.strategy :=
    Inserter.strategy_ofStrategy setup.strategy
  have htidy : (setup.ingestor s r).Tidy s.heights r.nextHeight.toInt := by
    refine ⟨Int.le_refl _, .inr hclosed, [], (List.append_nil _).symm, .nil _ _, fun _ => ?_⟩
    have hpending : (setup.ingestor s r).books.inserter.pending = [] := Inserter.pending_ofStrategy setup.strategy
    rw [hpending]
    exact .nil _ _
  obtain ⟨hcounts, hsublist, -, htolerant, -, hstored⟩ := h.retried htidy hclosed
  refine ⟨hcounts.totals, hsublist, fun hmode => ?_⟩
  have hnone : NoneFailed as.dropLast := by
    rcases hmode with hkind | hnone
    · exact fun a ha => htolerant (hstrategy.trans hkind) a (List.dropLast_subset as ha)
    · exact hnone
  obtain ⟨⟨stored, hheights, hascends⟩, hcounted⟩ := hstored hnone
  refine ⟨hcounted.nodup, stored, hheights, hascends, fun hnodup hbelow => ?_⟩
  rw [hheights]
  exact hascends.nodup_append hnodup hbelow

/-- A block offered while the store refuses, and once more when it does not. -/
def Ingestor.offeredTwice (g : Ingestor) (outage : Bool) (tables : List String) (b : Block) : Ingestor :=
  (((g.refusing outage tables).process b true).2.refusing false []).process b true |>.2

/-- Under the tolerant strategy a block whose ledger row is refused stays open: it is counted once, and when it is
offered again it is not taken in. -/
theorem Setup.retries_once_refusedBlock :
    let g₀ := (Setup.seeded .tolerant 5).ingestor .empty (.fresh 5)
    let g := g₀.offeredTwice false ["block_log"] (.bare 5)
    ∃ as, g₀.Retries g as ∧ countedHeights as = [5] ∧ g.books.totals.get "BTC.BTC" = ⟨7, 9, 0⟩ ∧
      (countedHeights as).Nodup ∧ g.store.heights.Nodup := by
  intro g₀ g
  have hfirst : g₀.Retries ((g₀.refusing false ["block_log"]).process (.bare 5) true).2 _ :=
    .process (.bare 5) true (.refuse false ["block_log"] .start) (by decide +kernel)
  have hall : g₀.Retries g _ := .process (.bare 5) true (.refuse false [] hfirst) (by decide +kernel)
  refine ⟨_, hall, by decide +kernel, by decide +kernel, ?_⟩
  obtain ⟨-, -, honce⟩ := retries_once (.seeded .tolerant 5) .empty (.fresh 5) hall
  obtain ⟨hcounted, stored, -, -, hnodup⟩ := honce (.inl rfl)
  exact ⟨hcounted, hnodup List.nodup_nil nofun⟩

/-- Under the batch strategy a block whose commit fails during an outage and which is offered again after it is
counted twice, and stored twice. -/
theorem Setup.retries_repeat :
    let g₀ := (Setup.seeded .batch 5).ingestor .empty (.fresh 5)
    let g := g₀.offeredTwice true [] (.bare 5)
    ∃ as, g₀.Retries g as ∧ as.map Attempt.commitFailed = [true, false] ∧ g.store.heights = [5, 5] ∧
      countedHeights as = [5, 5] ∧ g.books.totals.get "BTC.BTC" = ⟨14, 18, 0⟩ := by
  intro g₀ g
  have hfirst : g₀.Retries ((g₀.refusing true []).process (.bare 5) true).2 _ :=
    .process (.bare 5) true (.refuse true [] .start) (by decide +kernel)
  have hall : g₀.Retries g _ := .process (.bare 5) true (.refuse false [] hfirst) (by decide +kernel)
  exact ⟨_, hall, by decide +kernel, by decide +kernel, by decide +kernel, by decide +kernel⟩

end PoolIndexer
