import PoolIndexer.Proofs.Ingest.History

/-!
# Proofs.Ingest.Pending — a refused row of depths is due until the ingestor is gone

* `World.recalls_life`: within one life, whatever is refused, an ingestor remembers just the rows of
  depths that were taken.
* `depthRow_pending`: so the first committed block whose rows of depths are taken writes all that is
  due, and the rows since the start end with the totals, on top of the totals of the start.
* `depthRow_lost`: those need not have been written.  A new ingestor remembers the totals of the last
  checkpoint as if each pool had its row, so a row refused before is due no more.
-/

namespace PoolIndexer

/-! ### A block that commits -/

namespace Inserter

theorem closed_of_endBlock {i i' : Inserter} (h : i.endBlock = .ok i') : i'.Closed ∧ i'.block.ended ≠ 0 := by
  have hopen : i.Open := by
    cases i with
    | batch b =>
      cases hopen : b.block.isOpen with
      | true => exact hopen
      | false =>
        simp only [endBlock, RowBuffer.endBlock, BlockState.finish, hopen] at h
        cases h
    | tolerant w =>
      cases hopen : w.block.isOpen with
      | true => exact hopen
      | false =>
        simp only [endBlock, BlockState.finish, hopen] at h
        cases h
  obtain ⟨i₀, hend, hclosed, hended, -⟩ := endBlock_eq_ok hopen
  cases hend.symm.trans h
  exact ⟨hclosed, hended⟩

end Inserter

namespace Ingestor

variable {g g' : Ingestor} {b : Block} {batchEnd : Bool} {o : BlockOutcome}

theorem closed_of_recordBlock {state : Option (List UInt8)} (h : g.recordBlock b state = (.ok (), g')) :
    g'.books.inserter.Closed ∧ g'.books.inserter.block.ended ≠ 0 := by
  unfold recordBlock at h
  cases hinsert : g.books.inserter.insert g.store "block_log" ledgerColumns (ledgerValues b state) with
  | mk result i =>
    rw [hinsert] at h
    cases result with
    | error e => cases h
    | ok _ =>
      cases hend : i.endBlock with
      | error e =>
        simp only [hend] at h
        cases h
      | ok i' =>
        simp only [hend] at h
        cases h
        exact Inserter.closed_of_endBlock hend

/-- After a block that commits nothing is held. -/
theorem pending_of_close {stamp : Option Stamp} {demux : DemuxStats} {record : RecordStats} {depthRows : Nat}
    (h : g.close b stamp demux record depthRows = (.ok o, g')) (hcommitted : o.committed = true) :
    g'.books.inserter.pending = [] := by
  unfold close at h
  cases hrow : g.recordBlock b (stamp.map Stamp.state) with
  | mk result g₁ =>
    rw [hrow] at h
    cases result with
    | error stop => cases h
    | ok _ =>
      obtain ⟨hclosed, hended⟩ := closed_of_recordBlock hrow
      cases stamp with
      | none =>
        simp only [commitTrack, Option.map_none, advance] at h
        split at h <;> cases h
        cases hcommitted
      | some s =>
        simp only [commitTrack, Option.map_some] at h
        rcases commit_cases hclosed hended s.track with
          ⟨stats, i, log, hcommit, -, hpending, -⟩ | ⟨e, i, hcommit, -⟩
        · rw [hcommit] at h
          simp only [Except.map, advance] at h
          split at h <;> cases h
          exact hpending
        · rw [hcommit] at h
          cases h

/-- A block that went through has been closed. -/
theorem close_of_process (h : g.process b batchEnd = (.ok o, g')) :
    ∃ (g₀ : Ingestor) (stamp : Option Stamp) (demux : DemuxStats) (record : RecordStats) (depthRows : Nat),
      g₀.close b stamp demux record depthRows = (.ok o, g') := by
  unfold process fill finish at h
  split at h
  · cases h
  · dsimp only at h
    split at h
    · cases h
    · split at h
      · cases h
      · split at h
        · cases h
        · split at h
          · cases h
          · split at h
            · cases h
            · exact ⟨_, _, _, _, _, h⟩

end Ingestor

/-! ### One life -/

/-- Neither ends the ingestor nor begins another. -/
def Action.Lasts : Action → Prop
  | .start _ | .drop => False
  | .disturb _ | .process _ _ | .offer _ _ | .work => True

namespace World

section

variable {base : String → Depths} {stored : List Row}

theorem recalls_works {w v : World} (hworks : w.Works v) (h : w.Recalls base stored) : v.Recalls base stored := by
  induction hworks with
  | refl => exact h
  | tail _ hstep ih => exact hstep ▸ recalls_worked (worked_work ih.ready) ih

theorem recalls_step {w : World} {a : Action} (ha : a.Lasts) (h : w.Recalls base stored) :
    (w.step a).Recalls base stored := by
  cases a with
  | start setup => exact ha.elim
  | drop => exact ha.elim
  | disturb s => exact h.withStore rfl
  | work => exact recalls_worked (worked_work h.ready) h
  | offer b batchEnd =>
    cases w with
    | idle g => exact recalls_offer h b batchEnd
    | down s => exact h
    | busy g job => exact h
  | process b batchEnd =>
    cases w with
    | idle g => exact recalls_works (g.works_process b batchEnd) (recalls_offer h b batchEnd)
    | down s => exact h
    | busy g job => exact h

theorem recalls_life {w : World} {actions : List Action} (hlife : ∀ a ∈ actions, a.Lasts)
    (h : w.Recalls base stored) : (w.run actions).Recalls base stored := by
  induction actions generalizing w with
  | nil => exact h
  | cons a rest ih =>
    obtain ⟨ha, hrest⟩ := List.forall_mem_cons.1 hlife
    exact ih hrest (recalls_step ha h)

/-- A block whose rows of depths are taken leaves no pool behind. -/
theorem caughtUp_works {w v : World} (hworks : w.Works v) (hrecalls : w.Recalls base stored)
    (htaken : "block_pool_depths" ∉ w.store.rejectedTables) (h : w.CaughtUp) :
    v.CaughtUp ∧ "block_pool_depths" ∉ v.store.rejectedTables := by
  induction hworks with
  | refl => exact ⟨h, htaken⟩
  | tail hbefore hstep ih =>
    obtain ⟨hcaught, htaken'⟩ := ih
    have hrecalls' := recalls_works hbefore hrecalls
    have hworked := worked_work hrecalls'.ready
    rw [hstep]
    refine ⟨?_, ?_⟩
    · exact caughtUp_worked hworked hrecalls' (not_refuses_of_taken hrecalls'.ready htaken') hcaught
    · rw [rejectedTables_worked hworked]
      exact htaken'

end

end World

theorem Setup.recalls_ingestor (setup : Setup) (s : Store) (r : Recovered) :
    (World.idle (setup.ingestor s r)).Recalls r.totals.get s.rows := by
  refine ⟨⟨⟨[], ?_, fun _ => rfl⟩, fun pool hpool => Totals.get_eq_zero hpool⟩, Inserter.closed_ofStrategy _⟩
  show s.rows ++ (Inserter.ofStrategy setup.strategy).pending = s.rows ++ []
  rw [Inserter.pending_ofStrategy]

/-- **Pending rows**: in one life of an ingestor, rows of depths may be refused at any time.  After a
committed block whose rows of depths are taken, the rows since the start of that life end with the
totals of each pool, where a pool without a row has those of the start.  If the rows stored before end
with the totals of the start, the last row of each pool has its totals. -/
theorem Setup.depthRow_pending (setup : Setup) (s : Store) (r : Recovered) {actions : List Action}
    (hlife : ∀ a ∈ actions, a.Lasts) {g : Ingestor}
    (hg : (World.idle (setup.ingestor s r)).run actions = .idle g)
    (htaken : "block_pool_depths" ∉ g.store.rejectedTables) {b : Block} {batchEnd : Bool} {o : BlockOutcome}
    {g' : Ingestor} (hprocess : g.process b batchEnd = (.ok o, g')) (hcommitted : o.committed = true) :
    (∃ since, g'.store.rows = s.rows ++ since ∧
      ∀ pool, lastDepths (r.totals.get pool) pool since = g'.books.totals.get pool) ∧
    ((∀ pool, lastDepths .zero pool s.rows = r.totals.get pool) →
      ∀ pool, lastDepths .zero pool g'.store.rows = g'.books.totals.get pool) := by
  have hrecalls : (World.idle g).Recalls r.totals.get s.rows :=
    hg ▸ World.recalls_life hlife (setup.recalls_ingestor s r)
  have hworks := g.works_process b batchEnd
  rw [hprocess] at hworks
  have hoffer := World.recalls_offer hrecalls b batchEnd
  have htaken' : "block_pool_depths" ∉ (g.offer b batchEnd).store.rejectedTables := by
    rw [World.rejectedTables_offer hrecalls.2]
    exact htaken
  obtain ⟨hcaught, -⟩ :=
    World.caughtUp_works hworks hoffer htaken' (World.caughtUp_offer hrecalls.2 b batchEnd)
  obtain ⟨⟨⟨since, hsince, hlast⟩, -⟩, -⟩ : (World.idle g').Recalls r.totals.get s.rows :=
    World.recalls_works hworks hoffer
  -- a block that commits leaves nothing behind in the inserter
  obtain ⟨g₀, stamp, demux, record, depthRows, hclose⟩ := Ingestor.close_of_process hprocess
  have hstored : g'.store.rows = s.rows ++ since := by
    rw [← hsince]
    unfold Ingestor.rows
    rw [Ingestor.pending_of_close hclose hcommitted, List.append_nil]
  have hend : ∀ pool, lastDepths (r.totals.get pool) pool since = g'.books.totals.get pool :=
    fun pool => (hlast pool).trans (hcaught pool)
  refine ⟨⟨since, hstored, hend⟩, fun hstart pool => ?_⟩
  rw [hstored, lastDepths_append, hstart]
  exact hend pool

/-! ### Refused rows -/

/-- The ingestor that waits for a block, if there is one. -/
def World.waiting? : World → Option Ingestor
  | .idle g => some g
  | _ => none

theorem World.eq_idle {w : World} {g : Ingestor} (h : w.waiting? = some g) : w = .idle g := by
  cases w with
  | idle g' => exact congrArg World.idle (Option.some.inj h)
  | down s => cases h
  | busy g' job => cases h

/-- A store that takes no rows of depths. -/
def Store.withoutDepths : Store := { Store.empty with rejectedTables := ["block_pool_depths"] }

/-- What a block does to an ingestor that waits: which tables reject rows before it, whether it commits,
the depths that the rows then give for a pool, and those of the totals. -/
def World.processed? (w : World) (b : Block) (pool : String) :
    Option (List String × Option Bool × List Depths × Depths) :=
  w.waiting?.map fun g =>
    let (result, g') := g.process b true
    (g.store.rejectedTables, result.toOption.map BlockOutcome.committed, depthsOf pool g'.store.rows,
      g'.books.totals.get pool)

theorem World.processed?_eq_some {w : World} {b : Block} {pool : String} {tables : List String}
    {rows : List Depths} {d : Depths} (h : w.processed? b pool = some (tables, some true, rows, d)) :
    ∃ g o g', w = .idle g ∧ g.store.rejectedTables = tables ∧ g.process b true = (.ok o, g') ∧
      o.committed = true ∧ depthsOf pool g'.store.rows = rows ∧ g'.books.totals.get pool = d := by
  unfold processed? at h
  cases hwaiting : w.waiting? with
  | none =>
    rw [hwaiting] at h
    cases h
  | some g =>
    rw [hwaiting] at h
    cases hprocess : g.process b true with
    | mk result g' =>
      simp only [hprocess, Option.map_some, Option.some.injEq, Prod.mk.injEq] at h
      obtain ⟨htables, hcommitted, hrows, hd⟩ := h
      cases result with
      | error stop => cases hcommitted
      | ok o => exact ⟨g, o, g', World.eq_idle hwaiting, htables, hprocess, Option.some.inj hcommitted, hrows, hd⟩

/-- The row of the first block is refused, and that of the second is taken in its place. -/
theorem Setup.depthRow_pendingTwoBlocks :
    let setup := Setup.seeded .tolerant 5
    ∃ g o g', (World.idle (setup.ingestor .withoutDepths (.fresh 5))).run
        [.process (.bare 5) true, .disturb .empty] = .idle g ∧
      "block_pool_depths" ∉ g.store.rejectedTables ∧ g.process (.bare 6) true = (.ok o, g') ∧
      o.committed = true ∧ depthsOf "BTC.BTC" g'.store.rows = [⟨7, 9, 0⟩] ∧
      (∃ since, g'.store.rows = [] ++ since ∧
        ∀ pool, lastDepths .zero pool since = g'.books.totals.get pool) ∧
      ((∀ pool, lastDepths .zero pool [] = .zero) →
        ∀ pool, lastDepths .zero pool g'.store.rows = g'.books.totals.get pool) := by
  have hrun : ((World.idle ((Setup.seeded .tolerant 5).ingestor .withoutDepths (.fresh 5))).run
      [.process (.bare 5) true, .disturb .empty]).processed? (.bare 6) "BTC.BTC" =
        some ([], some true, [⟨7, 9, 0⟩], ⟨7, 9, 0⟩) := by
    decide +kernel
  obtain ⟨g, o, g', hg, htables, hprocess, hcommitted, hrows, -⟩ := World.processed?_eq_some hrun
  have htaken : "block_pool_depths" ∉ g.store.rejectedTables := by
    rw [htables]
    exact List.not_mem_nil
  have hlife : ∀ a ∈ [Action.process (.bare 5) true, .disturb .empty], a.Lasts := by
    intro a ha
    rcases List.mem_cons.1 ha with rfl | ha
    · trivial
    · rw [List.mem_singleton.1 ha]
      trivial
  exact ⟨g, o, g', hg, htaken, hprocess, hcommitted, hrows,
    Setup.depthRow_pending (.seeded .tolerant 5) .withoutDepths (.fresh 5) hlife hg htaken hprocess hcommitted⟩

/-- **Lost rows**: the row that is refused is not written by the ingestor of a new start, although it
commits a block and its rows of depths are taken. -/
theorem World.depthRow_lost :
    ¬ ∀ (actions : List Action) (g g' : Ingestor) (b : Block) (batchEnd : Bool) (o : BlockOutcome),
      (∀ setup, Action.start setup ∈ actions → setup.strategy = .tolerant) →
      (∀ s, Action.disturb s ∈ actions → "block_log" ∉ s.rejectedTables) →
      (World.down .empty).run actions = .idle g → "block_pool_depths" ∉ g.store.rejectedTables →
      g.process b batchEnd = (.ok o, g') → o.committed = true →
      ∀ pool ∈ g'.books.totals.pools, lastDepths .zero pool g'.store.rows = g'.books.totals.get pool := by
  intro hclaim
  have hrun : ((World.down .empty).run [.disturb .withoutDepths, .start (.seeded .tolerant 5),
      .process (.bare 5) true, .disturb .empty, .start (.seeded .tolerant 5)]).processed? (.bare 6) "BTC.BTC" =
        some ([], some true, [], ⟨7, 9, 0⟩) := by
    decide +kernel
  obtain ⟨g, o, g', hg, htables, hprocess, hcommitted, hrows, htotals⟩ := World.processed?_eq_some hrun
  have hpool : "BTC.BTC" ∈ g'.books.totals.pools := by
    by_contra hnone
    rw [Totals.get_eq_zero hnone] at htotals
    cases htotals
  have hlast := hclaim _ g g' (.bare 6) true o (fun setup hsetup => ?_) (fun s hs => ?_) hg
    (htables ▸ List.not_mem_nil) hprocess hcommitted "BTC.BTC" hpool
  · rw [htotals, lastDepths, hrows] at hlast
    exact absurd hlast (by decide)
  · simp only [List.mem_cons, reduceCtorEq, Action.start.injEq, List.not_mem_nil, or_false, false_or, or_self]
      at hsetup
    rw [hsetup]
    rfl
  · simp only [List.mem_cons, reduceCtorEq, Action.disturb.injEq, List.not_mem_nil, or_false, false_or] at hs
    rcases hs with rfl | rfl
    · decide
    · exact List.not_mem_nil

end PoolIndexer
