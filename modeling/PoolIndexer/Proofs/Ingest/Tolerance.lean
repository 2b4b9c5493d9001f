import PoolIndexer.Proofs.Ingest.Journal

/-!
# Proofs.Ingest.Tolerance — a tolerant ingestor gets past all rows that tables reject

* `BlockMessage.isBoundary`: at these blocks an ingestor commits.
* `Ingestor.processAll`: blocks one after the other, whatever comes of those before.
* `Rules.ledger_process` and `Rules.ledger_consume`: what one block adds to the ledger, and blocks in a row.
* `Setup.tolerant_commits`: without an outage and with the ledger writable, a tolerant ingestor takes all
  blocks in a row, commits at every boundary, and stores the ledger up to the last one.
-/

namespace PoolIndexer

/-- At the end of a batch, at the genesis height, and at the first height if nothing has been committed before. -/
def BlockMessage.isBoundary (genesis first : Option Int64) (m : BlockMessage) : Bool :=
  m.batchEnd || genesis = some m.block.height || first = some m.block.height

/-- The height that a new ingestor begins at, if nothing has been committed before. -/
def Recovered.first? (r : Recovered) : Option Int64 := if r.track.isNone then some r.nextHeight else none

def Journal.first? (J : Journal) : Option Int64 := if J.committed.isNone then some J.nextHeight else none

theorem Consecutive.le_of_mem {start : Int} {queue : List BlockMessage} (h : Consecutive start queue) :
    ∀ m ∈ queue, start ≤ m.block.height.toInt := by
  induction queue generalizing start with
  | nil => simp
  | cons m rest ih =>
    intro m' hm'
    rcases List.mem_cons.1 hm' with rfl | hm'
    · exact h.1 ▸ Int.le_refl _
    · have hle := ih h.2 m' hm'
      omega

/-! ### Outcomes -/

namespace Ingestor

/-- What every message in order leads to, also those after a failure. -/
def processAll (g : Ingestor) : List BlockMessage → List (Except (Stop IndexerError) BlockOutcome) × Ingestor
  | [] => ([], g)
  | m :: rest =>
    let (result, g) := g.process m.block m.batchEnd
    let (results, g) := g.processAll rest
    (result :: results, g)

variable {g g' : Ingestor} {b : Block} {batchEnd : Bool} {o : BlockOutcome}

theorem isSome_of_stamp? {stamp : Option Stamp} (h : g.stamp? b batchEnd = .ok stamp) :
    stamp.isSome = g.commits b batchEnd := by
  unfold stamp? at h
  cases hcommits : g.commits b batchEnd with
  | true =>
    rw [hcommits, if_pos rfl] at h
    dsimp only at h
    cases hstate : (Track.ofBlock b g.books.totals).state with
    | error fault =>
      rw [hstate] at h
      cases h
    | ok state =>
      rw [hstate] at h
      cases h
      rfl
  | false =>
    rw [hcommits, if_neg Bool.false_ne_true] at h
    cases h
    rfl

theorem committed_of_close {stamp : Option Stamp} {demux : DemuxStats} {record : RecordStats} {depthRows : Nat}
    (h : g.close b stamp demux record depthRows = (.ok o, g')) : o.committed = stamp.isSome := by
  unfold close at h
  split at h
  · cases h
  · split at h
    · cases h
    · unfold advance at h
      split at h <;> cases h
      rfl

theorem commits_recordEvents (g : Ingestor) (batchEnd : Bool) (events : List (Event × Metadata)) :
    (g.recordEvents events).2.commits b batchEnd = g.commits b batchEnd := by
  unfold recordEvents
  split <;> rfl

theorem commits_recordDepths (g : Ingestor) (batchEnd : Bool) (timestamp : Int64) :
    (g.recordDepths timestamp).2.commits b batchEnd = g.commits b batchEnd := by
  unfold recordDepths
  dsimp only
  split <;> rfl

theorem committed_of_finish {demux : DemuxStats} {record : RecordStats}
    (h : g.finish b batchEnd demux record = (.ok o, g')) : o.committed = g.commits b batchEnd := by
  have hdepths := commits_recordDepths (b := b) g batchEnd b.nanos
  unfold finish at h
  cases hrecord : g.recordDepths b.nanos with
  | mk result g₁ =>
    rw [hrecord] at h hdepths
    cases result with
    | error stop => cases h
    | ok depthRows =>
      cases hstamp : g₁.stamp? b batchEnd with
      | error fault =>
        simp only [hstamp] at h
        cases h
      | ok stamp =>
        simp only [hstamp] at h
        rw [committed_of_close h, isSome_of_stamp? hstamp]
        exact hdepths

theorem committed_of_fill {run : DemuxRun} (h : g.fill b batchEnd run = (.ok o, g')) :
    o.committed = g.commits b batchEnd := by
  have hevents := commits_recordEvents (b := b) g batchEnd run.delivered
  unfold fill at h
  cases hrecord : g.recordEvents run.delivered with
  | mk result g₁ =>
    rw [hrecord] at h hevents
    cases result with
    | error stop => cases h
    | ok record => exact (committed_of_finish h).trans hevents

/-- A block that goes through says whether it has committed. -/
theorem committed_of_process (h : g.process b batchEnd = (.ok o, g')) : o.committed = g.commits b batchEnd := by
  unfold process at h
  split at h
  · cases h
  · dsimp only at h
    split at h
    · cases h
    · split at h
      · cases h
      · rename_i i _
        have hfill : o.committed = ((g.report (g.demux.run b).log).withInserter i).commits b batchEnd :=
          committed_of_fill h
        exact hfill

end Ingestor

/-! ### The ledger -/

namespace Rules

variable {R : Rules} {J J' : Journal}

theorem commits_eq_isBoundary {m : BlockMessage} (hheight : m.block.height = J.nextHeight) :
    R.commits J m.block m.batchEnd = m.isBoundary R.genesisHeight J.first? := by
  unfold commits BlockMessage.isBoundary Journal.first?
  rw [hheight, Bool.or_right_comm]
  cases J.committed <;> simp

/-- **One block**: at a boundary the ledger gets its row and all that are held, and elsewhere its row is held. -/
theorem ledger_process {b : Block} {batchEnd : Bool} (h : R.process J b batchEnd = .ok J') :
    (∃ bytes, R.commits J b batchEnd = true ∧ J'.committed = some b.height ∧ blockRows J'.held = [] ∧
      blockRows J'.stored = blockRows J.stored ++ (blockRows J.held ++ [b.row (some bytes)])) ∨
    (R.commits J b batchEnd = false ∧ J'.committed = J.committed ∧
      blockRows J'.held = blockRows J.held ++ [b.row none] ∧ blockRows J'.stored = blockRows J.stored) := by
  obtain ⟨-, added, balances, state, next, hadded, hstate, -, rfl⟩ := process_eq_ok h
  unfold state? at hstate
  cases hcommits : R.commits J b batchEnd with
  | true =>
    rw [hcommits, if_pos rfl] at hstate
    cases hwrite : Snapshot.write balances.totals with
    | error fault =>
      rw [hwrite] at hstate
      cases hstate
    | ok bytes =>
      rw [hwrite] at hstate
      cases hstate
      exact .inl ⟨bytes, rfl, rfl, rfl, by simp [Journal.close, hadded]⟩
  | false =>
    rw [hcommits, if_neg Bool.false_ne_true] at hstate
    cases hstate
    exact .inr ⟨rfl, rfl, by simp [Journal.close, hadded], rfl⟩

/-- After a block something has been committed. -/
theorem first?_process {b : Block} {batchEnd : Bool} (h : R.process J b batchEnd = .ok J') : J'.first? = none := by
  unfold Journal.first?
  rcases ledger_process h with ⟨bytes, -, hcommitted, -⟩ | ⟨hcommits, hcommitted, -⟩
  · simp [hcommitted]
  · have hsome : J.committed.isNone = false := by
      unfold commits at hcommits
      simp only [Bool.or_eq_false_iff] at hcommits
      exact hcommits.1.2
    simp [hcommitted, hsome]

/-- So the boundaries stay where they are. -/
theorem isBoundary_process {p : BlockMessage → Bool} {m : BlockMessage} {rest : List BlockMessage}
    (hp : ∀ m' ∈ m :: rest, p m' = m'.isBoundary R.genesisHeight J.first?)
    (hqueue : Consecutive J.nextHeight.toInt (m :: rest)) (h : R.process J m.block m.batchEnd = .ok J') :
    ∀ m' ∈ rest, p m' = m'.isBoundary R.genesisHeight J'.first? := by
  intro m' hm'
  have hother : J.nextHeight ≠ m'.block.height := by
    intro heq
    have hle := hqueue.2.le_of_mem m' hm'
    rw [← heq] at hle
    omega
  rw [hp m' (List.mem_cons_of_mem m hm'), first?_process h]
  unfold BlockMessage.isBoundary Journal.first?
  cases J.committed <;> simp [hother]

/-- **Blocks in a row**: what is stored ends with the row of the last boundary, and the rows behind it are held. -/
theorem ledger_consume {p : BlockMessage → Bool} {queue : List BlockMessage}
    (hp : ∀ m ∈ queue, p m = m.isBoundary R.genesisHeight J.first?)
    (hqueue : Consecutive J.nextHeight.toInt queue) (h : R.consume J queue = .ok J') :
    ∃ upTo rest states, queue = upTo ++ rest ∧ (∀ m ∈ rest, p m = false) ∧ (∀ m ∈ upTo.getLast?, p m = true) ∧
      states.map Option.isSome = upTo.map p ∧
      J'.committed = (upTo.getLast?.map fun m => m.block.height).or J.committed ∧
      blockRows J'.stored = blockRows J.stored ++
        if upTo = [] then [] else blockRows J.held ++ List.zipWith Block.row (upTo.map BlockMessage.block) states := by
  induction queue generalizing J with
  | nil =>
    cases h
    exact ⟨[], [], [], rfl, by simp, by simp, rfl, rfl, by simp⟩
  | cons m rest ih =>
    have hheight : m.block.height = J.nextHeight := Int64.toInt_inj.1 hqueue.1
    have hhead : p m = R.commits J m.block m.batchEnd :=
      (hp m List.mem_cons_self).trans (commits_eq_isBoundary hheight).symm
    rw [consume_cons] at h
    cases hstep : R.process J m.block m.batchEnd with
    | error stop =>
      rw [hstep] at h
      cases h
    | ok J₁ =>
      rw [hstep] at h
      have hqueue₁ : Consecutive J₁.nextHeight.toInt rest := nextHeight_process hstep ▸ hqueue.2
      have hp₁ := isBoundary_process hp hqueue hstep
      obtain ⟨upTo, after, states, rfl, hafter, hlast, hstates, hcommitted, hstored⟩ := ih hp₁ hqueue₁ h
      rcases ledger_process hstep with
        ⟨bytes, hcommits, hcommitted₁, hheld₁, hstored₁⟩ | ⟨hcommits, hcommitted₁, hheld₁, hstored₁⟩
      · refine ⟨m :: upTo, after, some bytes :: states, rfl, hafter, ?_, ?_, ?_, ?_⟩
        · rw [List.getLast?_cons]
          cases hend : upTo.getLast? with
          | none => simpa [hhead] using hcommits
          | some last => simpa using hlast last hend
        · simp [hstates, hhead, hcommits]
        · rw [hcommitted, hcommitted₁, List.getLast?_cons]
          cases upTo.getLast? <;> rfl
        · rw [hstored, hstored₁, hheld₁]
          by_cases hnone : upTo = [] <;> simp [hnone]
      · have hquiet : p m = false := hhead.trans hcommits
        by_cases hnone : upTo = []
        · subst hnone
          refine ⟨[], m :: after, [], rfl, List.forall_mem_cons.2 ⟨hquiet, hafter⟩, by simp, rfl, ?_, ?_⟩
          · rw [hcommitted, hcommitted₁]
          · rw [hstored, hstored₁]
            rfl
        · have hend := List.getLast?_eq_some_getLast hnone
          have hlast' := hlast _ hend
          refine ⟨m :: upTo, after, none :: states, rfl, hafter, ?_, ?_, ?_, ?_⟩
          · rw [List.getLast?_cons, hend]
            simpa using hlast'
          · simp [hstates, hquiet]
          · rw [hcommitted, hcommitted₁, List.getLast?_cons, hend]
            rfl
          · rw [hstored, hstored₁, hheld₁]
            simp [hnone]

end Rules

/-! ### A tolerant ingestor -/

namespace Ingestor

/-- On a calm store blocks in a row go through as the rules say, unless there is an overflow. -/
theorem processAll_of_calm {R : Rules} (hskip : R.skip = fun _ => false) (hlog : "block_log" ∉ R.rejectedTables)
    {p : BlockMessage → Bool} {queue : List BlockMessage} {g : Ingestor} (h : g.Follows R)
    (hp : ∀ m ∈ queue, p m = m.isBoundary R.genesisHeight g.journal.first?)
    (hqueue : Consecutive g.nextHeight.toInt queue)
    (hcalm : ∀ o, .error (.overflow o) ∉ (g.processAll queue).1) :
    ∃ (outcomes : List BlockOutcome) (g' : Ingestor), g.processAll queue = (outcomes.map .ok, g') ∧
      outcomes.map BlockOutcome.committed = queue.map p ∧
      R.consume g.journal queue = .ok g'.journal := by
  induction queue generalizing g with
  | nil => exact ⟨[], g, rfl, rfl, rfl⟩
  | cons m rest ih =>
    have hheight : m.block.height = g.journal.nextHeight := Int64.toInt_inj.1 hqueue.1
    have hprocess := processWithout_eq h hlog m.block m.batchEnd
    rw [hskip, processWithout_none] at hprocess
    unfold processAll at hcalm
    cases hstep : R.process g.journal m.block m.batchEnd with
    | error stop =>
      rw [hstep] at hprocess
      obtain ⟨g₁, hg₁⟩ := hprocess
      obtain ⟨o, rfl⟩ := Rules.process_eq_error hheight hstep
      rw [hg₁] at hcalm
      exact absurd List.mem_cons_self (hcalm o)
    | ok J =>
      rw [hstep] at hprocess
      obtain ⟨o, g₁, hg₁, hfollows, rfl⟩ := hprocess
      rw [hg₁] at hcalm
      have hcommitted : o.committed = p m := by
        rw [committed_of_process hg₁, commits_eq h.toObeys (J := g.journal) rfl, Rules.commits_eq_isBoundary hheight]
        exact (hp m List.mem_cons_self).symm
      obtain ⟨outcomes, g', hg', houtcomes, hconsume⟩ := ih hfollows (Rules.isBoundary_process hp hqueue hstep)
        (Rules.nextHeight_process hstep ▸ hqueue.2) fun o ho => hcalm o (List.mem_cons_of_mem _ ho)
      refine ⟨o :: outcomes, g', ?_, ?_, ?_⟩
      · unfold processAll
        rw [hg₁]
        simp only [hg', List.map_cons]
      · rw [List.map_cons, List.map_cons, hcommitted, houtcomes]
      · rw [Rules.consume_cons, hstep]
        exact hconsume

end Ingestor

/-- **Tolerance**: over a store without an outage that takes the ledger, whatever other tables reject rows, blocks
in a row that meet no overflow all go through under the tolerant strategy.  They commit at the boundaries and
nowhere else; the ledger gets the rows of the blocks up to the last boundary, with the totals at boundaries; and
the block of the last boundary is published. -/
theorem Setup.tolerant_commits (setup : Setup) (s : Store) (r : Recovered) (queue : List BlockMessage)
    (hstrategy : setup.strategy = .tolerant) (houtage : s.outage = false) (hlog : "block_log" ∉ s.rejectedTables)
    (hqueue : Consecutive r.nextHeight.toInt queue)
    (hcalm : ∀ o, .error (.overflow o) ∉ ((setup.ingestor s r).processAll queue).1) :
    let boundary := BlockMessage.isBoundary setup.genesisHeight r.first?
    ∃ (outcomes : List BlockOutcome) (g : Ingestor) (upTo rest : List BlockMessage)
      (states : List (Option (List UInt8))),
      (setup.ingestor s r).processAll queue = (outcomes.map .ok, g) ∧
      outcomes.map BlockOutcome.committed = queue.map boundary ∧
      queue = upTo ++ rest ∧ (∀ m ∈ rest, boundary m = false) ∧ (∀ m ∈ upTo.getLast?, boundary m = true) ∧
      states.map Option.isSome = upTo.map boundary ∧
      g.store.rowsOf "block_log" =
        s.rowsOf "block_log" ++ List.zipWith Block.row (upTo.map BlockMessage.block) states ∧
      g.published.map Track.height = (upTo.getLast?.map fun m => m.block.height).or (r.track.map Track.height) := by
  intro boundary
  have hfollows : (setup.ingestor s r).Follows (setup.rules s) :=
    Setup.follows_ingestor ⟨houtage, fun hbatch => by cases hstrategy.symm.trans hbatch⟩
  have hjournal : (setup.ingestor s r).journal = r.journal s.rows := Setup.journal_ingestor
  have hfirst : (r.journal s.rows).first? = r.first? := by
    unfold Journal.first? Recovered.first? Recovered.journal
    cases r.track <;> rfl
  have hboundary : ∀ m ∈ queue,
      boundary m = m.isBoundary (setup.rules s).genesisHeight (setup.ingestor s r).journal.first? := by
    rw [hjournal, hfirst]
    exact fun _ _ => rfl
  obtain ⟨outcomes, g, hg, houtcomes, hconsume⟩ :=
    Ingestor.processAll_of_calm rfl hlog hfollows hboundary hqueue hcalm
  obtain ⟨upTo, rest, states, hsplit, hrest, hlast, hstates, hcommitted, hstored⟩ :=
    Rules.ledger_consume hboundary hqueue hconsume
  rw [hjournal] at hcommitted hstored
  refine ⟨outcomes, g, upTo, rest, states, hg, houtcomes, hsplit, hrest, hlast, hstates, hstored.trans ?_, hcommitted⟩
  by_cases hnone : upTo = []
  · simp [hnone, Store.rowsOf, Recovered.journal, blockRows]
  · rw [if_neg hnone]
    rfl

/-- The seed and all rows of depths are rejected, and of four blocks the first and the third commit. -/
theorem Setup.tolerant_commits_seeded :
    let setup := Setup.seeded .tolerant 5
    let s : Store := { Store.empty with rejectedTables := ["add_events", "block_pool_depths"] }
    let queue : List BlockMessage := [⟨.bare 5, false⟩, ⟨.bare 6, false⟩, ⟨.bare 7, true⟩, ⟨.bare 8, false⟩]
    let boundary := BlockMessage.isBoundary setup.genesisHeight (some 5)
    setup.strategy = .tolerant ∧ s.outage = false ∧ "block_log" ∉ s.rejectedTables ∧
      Recovered.ofStore s setup.startHeight = .ok (.fresh 5) ∧ Consecutive (Recovered.fresh 5).nextHeight.toInt queue ∧
      (∀ o, .error (.overflow o) ∉ ((setup.ingestor s (.fresh 5)).processAll queue).1) ∧
      ∃ (outcomes : List BlockOutcome) (g : Ingestor) (upTo rest : List BlockMessage)
        (states : List (Option (List UInt8))),
        (setup.ingestor s (.fresh 5)).processAll queue = (outcomes.map .ok, g) ∧
        outcomes.map BlockOutcome.committed = [true, false, true, false] ∧
        queue = upTo ++ rest ∧ (∀ m ∈ rest, boundary m = false) ∧ (∀ m ∈ upTo.getLast?, boundary m = true) ∧
        states.map Option.isSome = upTo.map boundary ∧
        g.store.rowsOf "block_log" = List.zipWith Block.row (upTo.map BlockMessage.block) states ∧
        g.published.map Track.height = (upTo.getLast?.map fun m => m.block.height).or none := by
  intro setup s queue boundary
  have hqueue : Consecutive (Recovered.fresh 5).nextHeight.toInt queue := ⟨rfl, rfl, rfl, rfl, trivial⟩
  have hlog : "block_log" ∉ s.rejectedTables := by decide
  have hall : ((setup.ingestor s (.fresh 5)).processAll queue).1.all (fun result => result.toOption.isSome) = true := by
    decide +kernel
  have hcalm : ∀ o, .error (.overflow o) ∉ ((setup.ingestor s (.fresh 5)).processAll queue).1 := by
    intro o ho
    have hok := List.all_eq_true.1 hall _ ho
    cases hok
  exact ⟨rfl, rfl, hlog, rfl, hqueue, hcalm,
    Setup.tolerant_commits setup s (.fresh 5) queue rfl rfl hlog hqueue hcalm⟩

end PoolIndexer
