import PoolIndexer.Proofs.Ingest.Published
import PoolIndexer.Proofs.Record.Exactness

/-!
# Proofs.Ingest.Attempts — how a call comes back, and what the totals have counted by then

* `Totals.Leads`: changes that go through and lead from totals to totals.
* `Ingestor.counted`: the events of a call whose rows are taken.  The totals count these and no others,
  however the call comes back.
* `Ascends`: heights of the ledger that increase within bounds.
* `Ingestor.Attempted`: either nothing was begun, or the block stays open, or it has ended and only its
  commit failed, or it went through.  `attempted_process` says that there is nothing else.
-/

namespace PoolIndexer

/-! ### Totals that count events -/

namespace Totals

/-- The changes go through and lead to these totals. -/
def Leads (t : Totals) (planned : List PlannedChange) (t' : Totals) : Prop :=
  (t.applyAll planned).fault = none ∧ (t.applyAll planned).totals = t'

theorem Leads.refl (t : Totals) : t.Leads [] t := ⟨rfl, rfl⟩

theorem Leads.trans {t t' t'' : Totals} {ps qs : List PlannedChange} (h : t.Leads ps t')
    (h' : t'.Leads qs t'') : t.Leads (ps ++ qs) t'' := by
  induction ps generalizing t with
  | nil =>
    obtain ⟨-, rfl⟩ := h
    exact h'
  | cons p rest ih =>
    cases p with
    | error o => cases h.1
    | ok c => exact ih (t := t.apply c) h

end Totals

namespace Recorder

/-- The changes of events in order. -/
def planned (r : Recorder) (events : List (Event × Metadata)) : List PlannedChange :=
  events.flatMap fun p => p.1.changes r.natives r.coinKeptBelow p.2.height

theorem planned_append (r : Recorder) (xs ys : List (Event × Metadata)) :
    r.planned (xs ++ ys) = r.planned xs ++ r.planned ys :=
  List.flatMap_append

/-- The event, if its rows are taken. -/
def taken (r : Recorder) (s : Store) (b : Books) (e : Event) (m : Metadata) : List (Event × Metadata) :=
  if (r.insert s e m b.inserter).1.isOk then [(e, m)] else []

/-- The events whose rows are taken, up to the first failure. -/
def counted (r : Recorder) (s : Store) : Books → List (Event × Metadata) → List (Event × Metadata)
  | _, [] => []
  | b, (e, m) :: rest =>
    r.taken s b e m ++
      match r.record s b e m with
      | (.ok _, b) => r.counted s b rest
      | (.error _, _) => []

variable {r : Recorder} {s : Store} {b b' : Books} {result : Except (Stop IndexerError) Unit}

theorem counted_sublist (r : Recorder) (s : Store) (b : Books) (events : List (Event × Metadata)) :
    (r.counted s b events).Sublist events := by
  induction events generalizing b with
  | nil => exact List.Sublist.refl _
  | cons p rest ih =>
    obtain ⟨e, m⟩ := p
    have htaken : (r.taken s b e m).Sublist [(e, m)] := by
      unfold taken
      split
      · exact List.Sublist.refl _
      · exact List.nil_sublist _
    refine htaken.append ?_
    split
    · exact ih _
    · exact List.nil_sublist _

/-- The totals count an event if and only if its rows are taken. -/
theorem leads_record {e : Event} {m : Metadata} (h : r.record s b e m = (result, b'))
    (hreturns : ∀ o, result ≠ .error (.overflow o)) :
    b.totals.Leads (r.planned (r.taken s b e m)) b'.totals := by
  unfold taken
  cases hinsert : r.insert s e m b.inserter with
  | mk inserted i =>
    rcases inserted with (o | fault) | _
    · unfold Recorder.record at h
      rw [hinsert] at h
      cases h
      exact absurd rfl (hreturns o)
    · have htotals := (record_of_refused hinsert).2
      rw [h] at htotals
      exact htotals ▸ Totals.Leads.refl _
    · obtain ⟨hresult, htotals⟩ := record_of_taken hinsert
      rw [h] at hresult htotals
      have hfault : (b.totals.applyAll (e.changes r.natives r.coinKeptBelow m.height)).fault = none := by
        cases hfault : (b.totals.applyAll (e.changes r.natives r.coinKeptBelow m.height)).fault with
        | none => rfl
        | some o =>
          rw [hfault] at hresult
          exact absurd hresult (hreturns o)
      have hplanned : r.planned [(e, m)] = e.changes r.natives r.coinKeptBelow m.height :=
        List.append_nil _
      show b.totals.Leads (r.planned [(e, m)]) b'.totals
      rw [hplanned]
      exact ⟨hfault, htotals.symm⟩

/-- Events recorded in order: the totals count those whose rows are taken, and if none fails, the rows of the
ledger that are held stay. -/
theorem leads_recordAll (events : List (Event × Metadata)) (hopen : b.inserter.Open)
    (h : r.recordAll s b events = (result, b')) (hreturns : ∀ o, result ≠ .error (.overflow o)) :
    b'.inserter.Open ∧ b'.inserter.strategy = b.inserter.strategy ∧
      b.totals.Leads (r.planned (r.counted s b events)) b'.totals ∧
      (result = .ok () → blockRows b'.inserter.pending = blockRows b.inserter.pending) := by
  induction events generalizing b with
  | nil =>
    cases h
    exact ⟨hopen, rfl, .refl _, fun _ => rfl⟩
  | cons p rest ih =>
    obtain ⟨e, m⟩ := p
    unfold recordAll at h
    cases hrecord : r.record s b e m with
    | mk recorded b₁ =>
      have hopen₁ := (record_open (r := r) (s := s) (e := e) (m := m) hopen).1
      have hstrategy₁ := strategy_record r s b e m
      rw [hrecord] at h hopen₁ hstrategy₁
      unfold counted
      rw [hrecord]
      cases recorded with
      | error stop =>
        cases h
        rw [List.append_nil]
        exact ⟨hopen₁, hstrategy₁, leads_record hrecord hreturns, fun hok => by cases hok⟩
      | ok _ =>
        obtain ⟨hopen', hstrategy, hleads, hheld⟩ := ih hopen₁ h
        have hleads₁ := leads_record hrecord fun o ho => by cases ho
        have hheld₁ : blockRows b₁.inserter.pending = blockRows b.inserter.pending := by
          obtain ⟨-, ⟨rows, hrows, hpending, -⟩ | ⟨hpending, -⟩⟩ := record_eq_ok hopen hrecord
          · rw [hpending, blockRows_append, Event.blockRows_rows hrows, List.append_nil]
          · rw [hpending]
        refine ⟨hopen', hstrategy.trans hstrategy₁, ?_, fun hok => (hheld hok).trans hheld₁⟩
        rw [planned_append]
        exact hleads₁.trans hleads

end Recorder

namespace DepthHistory

/-- The rows of depths leave the ledger rows that are held, unless the store fails. -/
theorem blockRows_recordPools {t : Totals} {timestamp : Int64} {s : Store} (pools : List String) {p p' : Progress}
    {result : Except IndexerError Unit} (hopen : p.inserter.Open)
    (h : recordPools t timestamp s p pools = (result, p')) :
    p'.inserter.Open ∧ p'.inserter.strategy = p.inserter.strategy ∧
      (result = .ok () → blockRows p'.inserter.pending = blockRows p.inserter.pending) := by
  induction pools generalizing p with
  | nil =>
    cases h
    exact ⟨hopen, rfl, fun _ => rfl⟩
  | cons pool rest ih =>
    unfold recordPools at h
    have hopen₁ := (recordPool_open t timestamp s hopen pool).1
    have hstrategy₁ := strategy_recordPool t timestamp s p pool
    cases hpool : recordPool t timestamp s p pool with
    | mk recorded p₁ =>
      rw [hpool] at h hopen₁ hstrategy₁
      cases recorded with
      | error e =>
        cases h
        exact ⟨hopen₁, hstrategy₁, fun hok => by cases hok⟩
      | ok _ =>
        obtain ⟨hopen', hstrategy, hheld⟩ := ih hopen₁ h
        refine ⟨hopen', hstrategy.trans hstrategy₁, fun hok => (hheld hok).trans ?_⟩
        rcases recordPool_cases t timestamp s hopen pool with
          ⟨-, hp⟩ | ⟨-, ⟨i, hp, -, hpending⟩ | ⟨-, i, -, -, hp, -, hpending⟩ | ⟨e, i, hp, -⟩⟩
        · cases hpool.symm.trans hp
          rfl
        · cases hpool.symm.trans hp
          show blockRows i.pending = _
          rw [hpending, blockRows_append, blockRows_depthRow, List.append_nil]
        · cases hpool.symm.trans hp
          exact congrArg blockRows hpending
        · cases hpool.symm.trans hp

end DepthHistory

/-! ### Heights of the ledger -/

/-- The heights of the block ledger among rows. -/
def heightsIn (rows : List Row) : List Int64 :=
  (blockRows rows).filterMap fun r => (r.get? "height").bind Value.int64?

theorem heightsIn_append (xs ys : List Row) : heightsIn (xs ++ ys) = heightsIn xs ++ heightsIn ys := by
  unfold heightsIn
  rw [blockRows_append, List.filterMap_append]

theorem heightsIn_row (b : Block) (state : Option (List UInt8)) : heightsIn [b.row state] = [b.height] := rfl

theorem heightsIn_congr {xs ys : List Row} (h : blockRows xs = blockRows ys) : heightsIn xs = heightsIn ys := by
  unfold heightsIn
  rw [h]

/-- Heights that increase from `low` on and stay below `high`. -/
structure Ascends (low : Int) (heights : List Int64) (high : Int) : Prop where
  sorted : heights.Pairwise fun a b => a.toInt < b.toInt
  bounds : ∀ h ∈ heights, low ≤ h.toInt ∧ h.toInt < high

namespace Ascends

variable {low high : Int} {heights : List Int64}

theorem nil (low high : Int) : Ascends low [] high := ⟨List.Pairwise.nil, nofun⟩

theorem mono {high' : Int} (h : Ascends low heights high) (hle : high ≤ high') : Ascends low heights high' :=
  ⟨h.sorted, fun x hx => ⟨(h.bounds x hx).1, Int.lt_of_lt_of_le (h.bounds x hx).2 hle⟩⟩

theorem left {others : List Int64} (h : Ascends low (heights ++ others) high) : Ascends low heights high :=
  ⟨(List.pairwise_append.1 h.sorted).1, fun x hx => h.bounds x (List.mem_append_left _ hx)⟩

theorem snoc (h : Ascends low heights high) (hle : low ≤ high) {x : Int64} (hx : x.toInt = high) :
    Ascends low (heights ++ [x]) (high + 1) := by
  constructor
  · refine List.pairwise_append.2 ⟨h.sorted, List.pairwise_singleton _ _, fun a ha y hy => ?_⟩
    rw [List.mem_singleton.1 hy, hx]
    exact (h.bounds a ha).2
  · intro y hy
    rcases List.mem_append.1 hy with hy | hy
    · have hbounds := h.bounds y hy
      omega
    · rw [List.mem_singleton.1 hy]
      omega

theorem nodup (h : Ascends low heights high) : heights.Nodup :=
  h.sorted.imp fun hlt heq => by rw [heq] at hlt; omega

/-- Heights below `low` with heights from `low` on behind them. -/
theorem nodup_append {base : List Int64} (h : Ascends low heights high) (hbase : base.Nodup)
    (hbelow : ∀ x ∈ base, x.toInt < low) : (base ++ heights).Nodup := by
  refine List.nodup_append.2 ⟨hbase, h.nodup, fun a ha b hb hab => ?_⟩
  have hlow := (h.bounds b hb).1
  have hlt := hbelow a ha
  rw [hab] at hlt
  omega

end Ascends

/-! ### How a call comes back -/

namespace Inserter

variable {i i' : Inserter} {s s' : Store}

/-- The tolerant strategy takes no rows during an outage. -/
theorem outage_of_insertRows {group : List Row} (htolerant : i.strategy = .tolerant) (hgroup : group ≠ [])
    (h : i.insertRows s group = (.ok (), i')) : s.outage = false := by
  cases i with
  | batch b => cases htolerant
  | tolerant w =>
    have hpush : (w.push s group).1 = .ok () := congrArg Prod.fst h
    unfold StagedRows.push at hpush
    cases hopen : w.block.requireOpen with
    | error e =>
      rw [hopen] at hpush
      cases hpush
    | ok _ =>
      have hempty : group.isEmpty = false := List.isEmpty_eq_false_iff.2 hgroup
      simp only [hopen, hempty, Bool.false_eq_true, if_false] at hpush
      cases houtage : s.outage with
      | false => rfl
      | true =>
        have hrefusal : s.refusal? group = some Store.writeFailure := by
          unfold Store.refusal?
          rw [houtage]
          rfl
        simp only [Store.stage, hrefusal] at hpush
        cases hsession : w.sessionOn s with
        | error e =>
          rw [hsession] at hpush
          cases hpush
        | ok staged =>
          rw [hsession] at hpush
          cases hpush

/-- Only during an outage a flush of the tolerant strategy fails. -/
theorem outage_of_flush_error {e : IndexerError} (h : i.Closed) (htolerant : i.strategy = .tolerant)
    (he : i.flush s = (.error e, i', s')) : s.outage = true := by
  cases i with
  | batch b => cases htolerant
  | tolerant w =>
    have hopen : w.block.isOpen = false := h
    simp only [flush, StagedRows.flush, hopen, Bool.false_eq_true, if_false] at he
    cases hsession : w.session with
    | none =>
      rw [hsession] at he
      cases he
    | some staged =>
      rw [hsession] at he
      cases houtage : s.outage with
      | true => rfl
      | false =>
        simp only [Store.publish, houtage] at he
        cases he

end Inserter

namespace Ingestor

/-- The events of a call that the totals count. -/
def counted (g : Ingestor) (b : Block) : List (Event × Metadata) :=
  if b.height = g.nextHeight then
    match g.books.inserter.startBlock with
    | .ok i =>
      let run := g.demux.run b
      g.recorder.counted g.store ((g.report run.log).withInserter i).books run.delivered
    | .error _ => []
  else []

theorem counted_sublist (g : Ingestor) (b : Block) : (g.counted b).Sublist (g.demux.run b).delivered := by
  unfold counted
  split
  · split
    · exact Recorder.counted_sublist _ _ _ _
    · exact List.nil_sublist _
  · exact List.nil_sublist _

/-- What is as before once the events are recorded. -/
structure Kept (g g' : Ingestor) : Prop where
  demux : g'.demux = g.demux
  recorder : g'.recorder = g.recorder
  strategy : g'.books.inserter.strategy = g.books.inserter.strategy
  totals : g'.books.totals = g.books.totals

/-- How a block that was begun comes to an end. -/
inductive Ends (g : Ingestor) (b : Block) : Except (Stop IndexerError) BlockOutcome → Ingestor → Prop
  /-- The block stays open. -/
  | stuck {e : IndexerError} {g' : Ingestor} (hopen : g'.books.inserter.Open)
      (hrows : g'.store.rows = g.store.rows) (hnext : g'.nextHeight = g.nextHeight) :
      Ends g b (.error (.error e)) g'
  /-- The block has ended, and its commit failed. -/
  | uncommitted {f : StoreError} {g' : Ingestor} (hclosed : g'.books.inserter.Closed)
      (hrows : g'.store.rows = g.store.rows) (hnext : g'.nextHeight = g.nextHeight)
      (hbatch : g.books.inserter.strategy = .batch) : Ends g b (.error (.error (.store f))) g'
  /-- The block has its row in the ledger, with what is stored or with what is held. -/
  | through {o : BlockOutcome} {g' : Ingestor} (hclosed : g'.books.inserter.Closed)
      (hheights : heightsIn g'.rows = heightsIn g.rows ++ [b.height])
      (hrows : g'.store.rows = g.store.rows ∨ g'.books.inserter.pending = [])
      (hnext : g'.nextHeight.toInt = g.nextHeight.toInt + 1) :
      Ends g b (.ok o) g'

section

variable {g g' : Ingestor} {b : Block} {batchEnd : Bool} {result : Except (Stop IndexerError) BlockOutcome}

theorem outage_of_recordBlock {state : Option (List UInt8)} (htolerant : g.books.inserter.strategy = .tolerant)
    (h : g.recordBlock b state = (.ok (), g')) : g.store.outage = false := by
  unfold recordBlock at h
  rw [Inserter.insert_eq_insertRows (b.check_row state)] at h
  cases hinsert : g.books.inserter.insertRows g.store [b.row state] with
  | mk inserted i =>
    rw [hinsert] at h
    cases inserted with
    | error e => cases h
    | ok _ => exact Inserter.outage_of_insertRows htolerant (List.cons_ne_nil _ _) hinsert

theorem outage_of_commit_error {t : Track} {stop : Stop IndexerError} (hclosed : g.books.inserter.Closed)
    (htolerant : g.books.inserter.strategy = .tolerant) (h : g.commit t = (.error stop, g')) :
    g.store.outage = true := by
  unfold commit at h
  cases hflush : g.books.inserter.flush g.store with
  | mk flushed after =>
    obtain ⟨i, s⟩ := after
    rw [hflush] at h
    cases flushed with
    | ok stats => cases h
    | error e => exact Inserter.outage_of_flush_error hclosed htolerant hflush

theorem ends_advance {o : BlockOutcome} {height : Int64} (hclosed : g'.books.inserter.Closed)
    (hheights : heightsIn g'.rows = heightsIn g.rows ++ [b.height])
    (hrows : g'.store.rows = g.store.rows ∨ g'.books.inserter.pending = [])
    (hnext : g'.nextHeight = g.nextHeight) (hkept : g.Kept g') {g'' : Ingestor}
    (h : g'.advance height o = (result, g'')) (hreturns : ∀ o, result ≠ .error (.overflow o)) :
    g.Kept g'' ∧ g.Ends b result g'' := by
  unfold advance at h
  cases hadd : Checked.add g'.nextHeight 1 with
  | error f =>
    rw [hadd] at h
    cases h
    exact absurd rfl (hreturns f)
  | ok next =>
    rw [hadd] at h
    cases h
    have hsum : next.toInt = g.nextHeight.toInt + 1 := by
      rw [Checked.add_eq_ok_iff.1 hadd, hnext]
      rfl
    exact ⟨⟨hkept.demux, hkept.recorder, hkept.strategy, hkept.totals⟩, .through hclosed hheights hrows hsum⟩

theorem ends_close {stamp : Option Stamp} {demux : DemuxStats} {record : RecordStats} {depthRows : Nat}
    (hopen : g.books.inserter.Open) (h : g.close b stamp demux record depthRows = (result, g'))
    (hreturns : ∀ o, result ≠ .error (.overflow o)) : g.Kept g' ∧ g.Ends b result g' := by
  unfold close at h
  rcases recordBlock_cases hopen b (stamp.map Stamp.state) with
    ⟨i, hrow, hclosed, hended, hstrategy, hadded⟩ | ⟨f, i, hrow, hopen', hstrategy, -⟩
  · have hheights : heightsIn (g.withInserter i).rows = heightsIn g.rows ++ [b.height] := by
      rw [hadded, heightsIn_append, heightsIn_row]
    rw [hrow] at h
    cases stamp with
    | none => exact ends_advance hclosed hheights (.inl rfl) rfl ⟨rfl, rfl, hstrategy, rfl⟩ h hreturns
    | some s =>
      simp only [commitTrack, Option.map_some] at h
      rcases commit_cases (g := g.withInserter i) hclosed hended s.track with
        ⟨stats, i', log, hcommit, hclosed', hpending, hstrategy'⟩ | ⟨f, i', hcommit, hclosed', hstrategy', -⟩
      · let g₁ := (({ (g.withInserter i).withInserter i' with store := (g.withInserter i).flushed } :
          Ingestor).report log).publish s.track stats
        have hrows : g₁.rows = (g.withInserter i).rows := by
          show (g.withInserter i).rows ++ i'.pending = (g.withInserter i).rows
          rw [hpending, List.append_nil]
        have hheights₁ : heightsIn g₁.rows = heightsIn g.rows ++ [b.height] := by rw [hrows, hheights]
        have hkept : g.Kept g₁ := ⟨rfl, rfl, hstrategy'.trans hstrategy, rfl⟩
        rw [hcommit] at h
        exact ends_advance hclosed' hheights₁ (.inr hpending) rfl hkept h hreturns
      · -- the tolerant strategy took the row of the block just before, so the store does not fail
        have hbatch : g.books.inserter.strategy = .batch := by
          cases hkind : g.books.inserter.strategy with
          | batch => rfl
          | tolerant =>
            have htaken := outage_of_recordBlock hkind hrow
            have hfails := outage_of_commit_error (g := g.withInserter i) hclosed (hstrategy.trans hkind) hcommit
            exact absurd (htaken.symm.trans hfails) Bool.false_ne_true
        rw [hcommit] at h
        cases h
        exact ⟨⟨rfl, rfl, hstrategy'.trans hstrategy, rfl⟩, .uncommitted hclosed' rfl rfl hbatch⟩
  · rw [hrow] at h
    cases h
    exact ⟨⟨rfl, rfl, hstrategy, rfl⟩, .stuck hopen' rfl rfl⟩

/-- What was done before the block was closed changes nothing that counts for its end. -/
theorem Ends.of_kept {g₁ : Ingestor} (h : g₁.Ends b result g') (hstore : g₁.store = g.store)
    (hnext : g₁.nextHeight = g.nextHeight) (hstrategy : g₁.books.inserter.strategy = g.books.inserter.strategy)
    (hheld : blockRows g₁.books.inserter.pending = blockRows g.books.inserter.pending) : g.Ends b result g' := by
  have hheights : heightsIn g₁.rows = heightsIn g.rows := by
    unfold rows
    rw [heightsIn_append, heightsIn_append, hstore, heightsIn_congr hheld]
  cases h with
  | stuck hopen hrows hnext' => exact .stuck hopen (hstore ▸ hrows) (hnext'.trans hnext)
  | uncommitted hclosed hrows hnext' hbatch =>
    exact .uncommitted hclosed (hstore ▸ hrows) (hnext'.trans hnext) (hstrategy.symm.trans hbatch)
  | through hclosed hadded hrows hnext' =>
    exact .through hclosed (hheights ▸ hadded) (hstore ▸ hrows) (hnext ▸ hnext')

theorem ends_finish {demux : DemuxStats} {record : RecordStats} (hopen : g.books.inserter.Open)
    (h : g.finish b batchEnd demux record = (result, g')) (hreturns : ∀ o, result ≠ .error (.overflow o)) :
    g.Kept g' ∧ g.Ends b result g' := by
  unfold finish recordDepths at h
  cases hdepths : g.depths.record g.books.totals b.nanos g.store g.books.inserter with
  | mk written p =>
    obtain ⟨hopen', hstrategy, hheld⟩ := DepthHistory.blockRows_recordPools g.books.totals.pools hopen hdepths
    rw [hdepths] at h
    cases written with
    | error e =>
      cases h
      exact ⟨⟨rfl, rfl, hstrategy, rfl⟩, .stuck hopen' rfl rfl⟩
    | ok _ =>
      dsimp only at h
      cases hstamp : ({ g.withInserter p.inserter with depths := p.history } : Ingestor).stamp? b batchEnd with
      | error o =>
        rw [hstamp] at h
        cases h
        exact absurd rfl (hreturns o)
      | ok stamp =>
        rw [hstamp] at h
        obtain ⟨hkept, hends⟩ := ends_close
          (g := { g.withInserter p.inserter with depths := p.history }) hopen' h hreturns
        exact ⟨⟨hkept.demux, hkept.recorder, hkept.strategy.trans hstrategy, hkept.totals⟩,
          hends.of_kept rfl rfl hstrategy (hheld rfl)⟩

/-- The totals have gained what was counted. -/
structure Counts (g : Ingestor) (counted : List (Event × Metadata)) (g' : Ingestor) : Prop where
  demux : g'.demux = g.demux
  recorder : g'.recorder = g.recorder
  strategy : g'.books.inserter.strategy = g.books.inserter.strategy
  totals : g.books.totals.Leads (g.recorder.planned counted) g'.books.totals

theorem ends_fill {run : DemuxRun} (hopen : g.books.inserter.Open) (h : g.fill b batchEnd run = (result, g'))
    (hreturns : ∀ o, result ≠ .error (.overflow o)) :
    g.Counts (g.recorder.counted g.store g.books run.delivered) g' ∧ g.Ends b result g' := by
  unfold fill recordEvents at h
  cases hrecord : g.recorder.recordAll g.store g.books run.delivered with
  | mk recorded books =>
    rw [hrecord] at h
    have hall := Recorder.leads_recordAll run.delivered hopen hrecord
    cases recorded with
    | error stop =>
      cases h
      obtain ⟨hopen', hstrategy, hleads, -⟩ := hall fun o ho => hreturns o (by rw [Except.error.inj ho])
      cases stop with
      | overflow o => exact absurd rfl (hreturns o)
      | error e => exact ⟨⟨rfl, rfl, hstrategy, hleads⟩, .stuck hopen' rfl rfl⟩
    | ok _ =>
      obtain ⟨hopen', hstrategy, hleads, hheld⟩ := hall nofun
      obtain ⟨hkept, hends⟩ := ends_finish (g := { g with books := { books with stats := .zero } }) hopen' h hreturns
      have htotals : g'.books.totals = books.totals := hkept.totals
      exact ⟨⟨hkept.demux, hkept.recorder, hkept.strategy.trans hstrategy, htotals ▸ hleads⟩,
        hends.of_kept rfl rfl hstrategy (hheld rfl)⟩

end

/-- How a call comes back. -/
inductive Attempted (g : Ingestor) (b : Block) : Except (Stop IndexerError) BlockOutcome → Ingestor → Prop
  /-- Nothing was begun. -/
  | refused {e : IndexerError} {g' : Ingestor} (hstore : ∀ f, e ≠ .store f) (hcounted : g.counted b = [])
      (hrows : g'.store.rows = g.store.rows) (hinserter : g'.books.inserter = g.books.inserter)
      (hnext : g'.nextHeight = g.nextHeight) : Attempted g b (.error (.error e)) g'
  | begun {result : Except (Stop IndexerError) BlockOutcome} {g' : Ingestor}
      (hclosed : g.books.inserter.Closed) (hheight : b.height = g.nextHeight) (hends : g.Ends b result g') :
      Attempted g b result g'

section

variable {g g' : Ingestor} {b : Block} {batchEnd : Bool} {result : Except (Stop IndexerError) BlockOutcome}

theorem counts_nothing {log : Log} (hcounted : g.counted b = []) : g.Counts (g.counted b) (g.report log) := by
  rw [hcounted]
  exact ⟨rfl, rfl, rfl, .refl _⟩

/-- Every call that comes back has counted what the totals have gained, and comes back in one of these ways. -/
theorem attempted_process (hready : g.books.inserter.Open ∨ g.books.inserter.Closed)
    (h : g.process b batchEnd = (result, g')) (hreturns : ∀ o, result ≠ .error (.overflow o)) :
    g.Counts (g.counted b) g' ∧ g.Attempted b result g' := by
  unfold process at h
  by_cases hheight : b.height = g.nextHeight
  · rw [if_neg (fun hne => hne hheight)] at h
    dsimp only at h
    cases hfault : (g.demux.run b).fault with
    | some o =>
      rw [hfault] at h
      cases h
      exact absurd rfl (hreturns o)
    | none =>
      rw [hfault] at h
      have hstart : (g.report (g.demux.run b).log).books.inserter.startBlock = g.books.inserter.startBlock := rfl
      dsimp only at h
      rw [hstart] at h
      rcases hready with hopen | hclosed
      · obtain ⟨e, he⟩ := Inserter.startBlock_of_open hopen
        have hcounted : g.counted b = [] := by
          unfold counted
          rw [if_pos hheight, he]
        rw [he] at h
        cases h
        exact ⟨counts_nothing hcounted, .refused nofun hcounted rfl rfl rfl⟩
      · obtain ⟨i, hi, hopen, hpending, hstrategy⟩ := Inserter.startBlock_eq_ok hclosed
        have hcounted : g.counted b = g.recorder.counted g.store
            ((g.report (g.demux.run b).log).withInserter i).books (g.demux.run b).delivered := by
          unfold counted
          rw [if_pos hheight, hi]
        rw [hi] at h
        obtain ⟨hcounts, hends⟩ := ends_fill (g := (g.report (g.demux.run b).log).withInserter i) hopen h hreturns
        rw [hcounted]
        exact ⟨⟨hcounts.demux, hcounts.recorder, hcounts.strategy.trans hstrategy, hcounts.totals⟩,
          .begun hclosed hheight (hends.of_kept rfl rfl hstrategy (congrArg blockRows hpending))⟩
  · have hcounted : g.counted b = [] := if_neg hheight
    rw [if_pos hheight] at h
    cases h
    refine ⟨?_, .refused nofun hcounted rfl rfl rfl⟩
    rw [hcounted]
    exact ⟨rfl, rfl, rfl, .refl _⟩

end

end Ingestor

end PoolIndexer
