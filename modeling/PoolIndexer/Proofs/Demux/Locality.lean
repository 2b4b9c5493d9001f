import PoolIndexer.Proofs.Demux.Lots

/-!
# Proofs.Demux.Locality — one event changes nothing for the others

* `Block.replace`: another event at one site of the block.  `Block.events_replace`: at most one place of one
  phase holds another event after it, and no event has moved.
* `TxResult.Matches`: the two can only differ if both failed.  Blocks with such transactions have the same run.
* `Demux.eventwise`: delivery, counters and locality of a calm run in one statement.
-/

namespace PoolIndexer

/-! ### Replacing an event -/

theorem filterMap_set {α β : Type} {f : α → Option β} {i : Nat} {x : α} (hx : f x = none) :
    ∀ {xs : List α}, (∀ y, xs[i]? = some y → f y = none) → (xs.set i x).filterMap f = xs.filterMap f := by
  induction i with
  | zero =>
    intro xs hi
    cases xs with
    | nil => rfl
    | cons y rest =>
      rw [List.set_cons_zero, List.filterMap_cons_none hx, List.filterMap_cons_none (hi y rfl)]
  | succ i ih =>
    intro xs hi
    cases xs with
    | nil => rfl
    | cons y rest =>
      rw [List.set_cons_succ, List.filterMap_cons, List.filterMap_cons, ih hi]

theorem getElem?_placed (phase : Phase) (events : List RawEvent) (i : Nat) :
    (placed phase events)[i]? = events[i]?.map fun raw => ⟨phase, i, raw⟩ := by
  unfold placed
  rw [List.getElem?_map, List.getElem?_zipIdx, Option.map_map, Nat.zero_add]
  rfl

theorem placed_set (phase : Phase) (events : List RawEvent) (i : Nat) (raw : RawEvent) :
    placed phase (events.set i raw) = (placed phase events).set i ⟨phase, i, raw⟩ := by
  refine List.ext_getElem? fun k => ?_
  rw [getElem?_placed, List.getElem?_set, List.getElem?_set, getElem?_placed]
  by_cases hk : i = k
  · subst hk
    simp only [placed, List.length_map, List.length_zipIdx, if_true]
    split <;> rfl
  · rw [if_neg hk, if_neg hk]

namespace Block

/-- A place in a block as it is stored: the phase, in the middle one the transaction, and the event. -/
inductive Site where
  | begin (i : Nat)
  | tx (t i : Nat)
  | «end» (i : Nat)

/-- Puts another event at the site, if there is one. -/
def replace (b : Block) (raw : RawEvent) : Site → Block
  | .begin i => { b with beginEvents := b.beginEvents.set i raw }
  | .tx t i => { b with txs := b.txs.modify t fun tx => { tx with events := tx.events.set i raw } }
  | .end i => { b with endEvents := b.endEvents.set i raw }

/-- The phase of the site and its number there: in the middle phase the events of the transactions before it
that succeeded come first. -/
def place (b : Block) : Site → Phase × Nat
  | .begin i => (.begin, i)
  | .tx t i => (.tx, { b with txs := b.txs.take t }.txEvents.length + i)
  | .end i => (.end, i)

def idAt (b : Block) (site : Site) : EventId :=
  ⟨b.height, (b.place site).1, UInt32.ofNat (b.place site).2⟩

section

variable (b : Block) (raw : RawEvent) (site : Site)

theorem height_replace : (b.replace raw site).height = b.height := by
  cases site <;> rfl

theorem nanos_replace : (b.replace raw site).nanos = b.nanos := by
  cases site <;> rfl

theorem length_endEvents_replace : (b.replace raw site).endEvents.length = b.endEvents.length := by
  cases site with
  | «end» i => exact List.length_set
  | _ => rfl

end

theorem txEvents_of_split (b : Block) (front back : List TxResult) (tx : TxResult) :
    { b with txs := front ++ tx :: back }.txEvents =
      { b with txs := front }.txEvents ++
        ((if tx.succeeded then tx.events else []) ++ { b with txs := back }.txEvents) := by
  unfold txEvents
  rw [List.filter_append, List.flatMap_append, List.filter_cons]
  split <;> rfl

/-- The events of a transaction count only if it succeeded. -/
theorem txEvents_replace (b : Block) (raw : RawEvent) (t i : Nat) :
    (b.replace raw (.tx t i)).txEvents = b.txEvents ∨
      (b.replace raw (.tx t i)).txEvents = b.txEvents.set (b.place (.tx t i)).2 raw := by
  unfold replace place
  dsimp only
  rcases Nat.lt_or_ge t b.txs.length with ht | ht
  · have hbefore : b.txEvents = { b with txs := b.txs.take t ++ b.txs[t] :: b.txs.drop (t + 1) }.txEvents := by
      rw [← List.drop_eq_getElem_cons ht, List.take_append_drop]
    rw [List.modify_eq_take_cons_drop ht, hbefore, txEvents_of_split, txEvents_of_split]
    cases hsucceeded : b.txs[t].succeeded with
    | false =>
      have hstill : TxResult.succeeded { b.txs[t] with events := b.txs[t].events.set i raw } = false := hsucceeded
      rw [hstill]
      exact .inl rfl
    | true =>
      have hstill : TxResult.succeeded { b.txs[t] with events := b.txs[t].events.set i raw } = true := hsucceeded
      rw [hstill, if_pos rfl, if_pos rfl]
      rcases Nat.lt_or_ge i b.txs[t].events.length with hi | hi
      · rw [List.set_append_right _ _ (Nat.le_add_right _ _), Nat.add_sub_cancel_left, List.set_append_left _ _ hi]
        exact .inr rfl
      · rw [List.set_eq_of_length_le hi]
        exact .inl rfl
  · rw [List.modify_eq_self ht]
    exact .inl rfl

/-- **Replacement**: each phase holds the same events as before, up to the place of the site. -/
theorem events_replace (b : Block) (raw : RawEvent) (site : Site) (phase : Phase) :
    (b.replace raw site).events phase = b.events phase ∨
      phase = (b.place site).1 ∧ (b.replace raw site).events phase = (b.events phase).set (b.place site).2 raw := by
  cases site with
  | begin i =>
    cases phase with
    | begin => exact .inr ⟨rfl, rfl⟩
    | _ => exact .inl rfl
  | tx t i =>
    cases phase with
    | tx => exact (b.txEvents_replace raw t i).imp_right fun h => ⟨rfl, h⟩
    | _ => exact .inl rfl
  | «end» i =>
    cases phase with
    | «end» => exact .inr ⟨rfl, rfl⟩
    | _ => exact .inl rfl

theorem length_events_replace (b : Block) (raw : RawEvent) (site : Site) (phase : Phase) :
    ((b.replace raw site).events phase).length = (b.events phase).length := by
  rcases b.events_replace raw site phase with h | ⟨-, h⟩
  · rw [h]
  · rw [h, List.length_set]

theorem mem_placedEvents_replace {b : Block} {raw : RawEvent} {site : Site} {p : PlacedEvent}
    (hp : p ∈ (b.replace raw site).placedEvents) : p ∈ b.placedEvents ∨ p.raw = raw := by
  obtain ⟨phase, hp⟩ := (b.replace raw site).mem_placedEvents_iff.1 hp
  rcases b.events_replace raw site phase with h | ⟨-, h⟩
  · rw [h] at hp
    exact .inl (b.mem_placedEvents_iff.2 ⟨phase, hp⟩)
  · rw [h, placed_set] at hp
    rcases List.mem_or_eq_of_mem_set hp with hp | rfl
    · exact .inl (b.mem_placedEvents_iff.2 ⟨phase, hp⟩)
    · exact .inr rfl

/-- What is taken from the events of a block is the same after a replacement, but for what is taken from the
place of the site. -/
theorem filterMap_replace {β : Type} (b : Block) (raw : RawEvent) (site : Site) {f : PlacedEvent → Option β}
    (hplace : ∀ raw, f ⟨(b.place site).1, (b.place site).2, raw⟩ = none) :
    (b.replace raw site).placedEvents.filterMap f = b.placedEvents.filterMap f := by
  rw [placedEvents_eq, placedEvents_eq, List.filterMap_flatMap, List.filterMap_flatMap]
  refine List.flatMap_congr fun phase _ => ?_
  rcases b.events_replace raw site phase with h | ⟨hphase, h⟩
  · rw [h]
  · rw [h, placed_set, hphase]
    refine filterMap_set (hplace raw) fun p hp => ?_
    rw [getElem?_placed] at hp
    obtain ⟨event, -, rfl⟩ := Option.map_eq_some_iff.1 hp
    exact hplace event

end Block

/-! ### Failed transactions -/

/-- The two are the same, or both failed. -/
def TxResult.Matches (s t : TxResult) : Prop := s = t ∨ s.succeeded = false ∧ t.succeeded = false

theorem Block.failedTxs_eq (b : Block) : b.failedTxs = b.txs.countP fun t => t.code != 0 := by
  unfold failedTxs
  rw [← List.countP_eq_length_filter]
  rfl

theorem filter_succeeded_of_matches {txs txs' : List TxResult} (h : List.Forall₂ TxResult.Matches txs txs') :
    txs.filter TxResult.succeeded = txs'.filter TxResult.succeeded := by
  induction h with
  | nil => rfl
  | cons hmatches _ ih =>
    rcases hmatches with rfl | ⟨hs, ht⟩
    · rw [List.filter_cons, List.filter_cons, ih]
    · rw [List.filter_cons_of_neg (ne_true_of_eq_false hs), List.filter_cons_of_neg (ne_true_of_eq_false ht), ih]

theorem length_failed_of_matches {txs txs' : List TxResult} (h : List.Forall₂ TxResult.Matches txs txs') :
    (txs.filter fun t => !t.succeeded).length = (txs'.filter fun t => !t.succeeded).length := by
  rw [← List.countP_eq_length_filter, ← List.countP_eq_length_filter]
  induction h with
  | nil => rfl
  | cons hmatches _ ih =>
    rcases hmatches with rfl | ⟨hs, ht⟩
    · rw [List.countP_cons, List.countP_cons, ih]
    · rw [List.countP_cons, List.countP_cons, ih, hs, ht]

theorem Demux.run_of_matches (d : Demux) {b : Block} {txs : List TxResult}
    (h : List.Forall₂ TxResult.Matches b.txs txs) : d.run { b with txs := txs } = d.run b := by
  have htx : { b with txs := txs }.txEvents = b.txEvents :=
    congrArg (List.flatMap TxResult.events) (filter_succeeded_of_matches h).symm
  have hplaced : { b with txs := txs }.placedEvents = b.placedEvents := by
    unfold Block.placedEvents
    rw [htx]
  have hstart : DemuxRun.start { b with txs := txs } = DemuxRun.start b := by
    unfold DemuxRun.start Block.failedTxs
    rw [← length_failed_of_matches h]
  unfold Demux.run
  rw [hplaced, hstart]
  rfl

namespace Demux

/-! ### Locality -/

section

variable (d : Demux) (b : Block) (raw : RawEvent) (site : Block.Site)

/-- The other events keep their ids and their lots. -/
theorem lots_replace : (d.lots (b.replace raw site)).filter (fun l => l.1 ≠ b.idAt site) =
    (d.lots b).filter fun l => l.1 ≠ b.idAt site := by
  unfold lots
  rw [b.height_replace, b.nanos_replace, ← List.filterMap_eq_map, List.filter_filterMap, List.filter_filterMap]
  exact b.filterMap_replace raw site fun _ => if_neg fun h => absurd rfl (of_decide_eq_true h)

/-- What is kept of the other events is the same. -/
theorem kept_replace : (d.kept (b.replace raw site)).filter (fun out => out.2.id ≠ b.idAt site) =
    (d.kept b).filter fun out => out.2.id ≠ b.idAt site := by
  unfold kept
  rw [b.height_replace, b.nanos_replace, List.filter_filterMap, List.filter_filterMap]
  refine b.filterMap_replace raw site fun event => ?_
  dsimp only
  cases d.kept? b.height event with
  | none => rfl
  | some e => exact if_neg fun h => absurd rfl (of_decide_eq_true h)

theorem injections_replace : d.injections (b.replace raw site) = d.injections b := by
  unfold injections
  rw [b.height_replace, b.nanos_replace, b.length_endEvents_replace]

end

/-- **Event by event**: in a block whose phases have room and none of whose events ends the run, the run hands
on what is kept of each event under its own place, then the injections, and counts every event once.  Another
event at a site changes nothing for the others, and nothing depends on the events of failed transactions.
Nothing is said of what the run reports: above height 9223372036 ids have no code, and a report that names one
cannot be shown.  Where every id has a code (`Block.Fits`) all of it can (`Demux.shown_run`). -/
theorem eventwise (d : Demux) (b : Block) (hroom : ∀ phase, (b.events phase).length < EventId.phaseSpan)
    (hcalm : ∀ p ∈ b.placedEvents, d.faults b.height p.raw = false) :
    let run := d.run b
    run.fault = none ∧
      run.delivered = d.kept b ++ d.injections b ∧
      (∀ raw e, d.kept? b.height raw = some e ↔ d.ignoredKinds.contains raw.kind = false ∧
        ∃ as loaded, Attributes.ofRaw raw d.base64 = .ok as ∧ Event.load d.natives as = .ok (some loaded) ∧
          d.corrections.apply b.height loaded = .ok (e, .keep)) ∧
      (∀ p ∈ b.placedEvents, let id := (p.metadata b.height b.nanos).id
        id.height = b.height ∧ id.phase = p.phase ∧ id.index.toNat = p.index) ∧
      run.stats = .tally ((d.lots b).map (·.2)) (d.corrections.injected b.height).length
        (b.txs.countP fun t => t.code != 0) ∧
      run.stats.delivered + run.stats.ignored + run.stats.unknown + run.stats.parseFailed +
        run.stats.discarded = b.placedEvents.length ∧
      (∀ raw site, d.faults b.height raw = false →
        let other := d.run (b.replace raw site)
        other.fault = none ∧
          (d.lots (b.replace raw site)).filter (fun l => l.1 ≠ b.idAt site) =
            (d.lots b).filter (fun l => l.1 ≠ b.idAt site) ∧
          other.delivered.filter (fun out => out.2.id ≠ b.idAt site) =
            run.delivered.filter fun out => out.2.id ≠ b.idAt site) ∧
      ∀ txs, List.Forall₂ TxResult.Matches b.txs txs → d.run { b with txs := txs } = run := by
  intro run
  obtain ⟨hfault, hdelivered, hstats⟩ := run_of_lots hroom hcalm
  refine ⟨hfault, hdelivered, fun _ _ => kept?_eq_some_iff,
    fun p hp => ⟨rfl, rfl, p.toNat_index (Block.index_lt hroom hp) _ _⟩, ?_, ?_, ?_,
    fun txs htxs => d.run_of_matches htxs⟩
  · rw [← Block.failedTxs_eq]
    exact hstats
  · show (d.run b).stats.delivered + _ + _ + _ + _ = _
    rw [hstats, DemuxStats.tally_total, lots, List.length_map, List.length_map]
  · intro raw site hraw
    have hroom' : ∀ phase, ((b.replace raw site).events phase).length < EventId.phaseSpan := fun phase =>
      b.length_events_replace raw site phase ▸ hroom phase
    have hcalm' : ∀ p ∈ (b.replace raw site).placedEvents,
        d.faults (b.replace raw site).height p.raw = false := by
      intro p hp
      rw [b.height_replace]
      rcases Block.mem_placedEvents_replace hp with hp | rfl
      · exact hcalm p hp
      · exact hraw
    obtain ⟨hfault', hdelivered', -⟩ := run_of_lots hroom' hcalm'
    refine ⟨hfault', d.lots_replace b raw site, ?_⟩
    show (d.run _).delivered.filter _ = (d.run b).delivered.filter _
    rw [hdelivered', hdelivered, List.filter_append, List.filter_append, d.kept_replace, d.injections_replace]

/-- A demultiplexer that passes over messages and puts a pool right at the end of block 5. -/
def sorting : Demux := { correcting with ignoredKinds := ["message"] }

/-- A block with an event of each lot, and one in a transaction that failed. -/
def mixedBlock : Block where
  height := 5
  timestamp := .ofSeconds 0
  hash := []
  beginEvents := [⟨"message", []⟩, ⟨"set_mimir", [⟨"key", "A"⟩, ⟨"value", "1"⟩]⟩]
  txs :=
    [⟨0, [⟨"pool", []⟩, ⟨"tx", []⟩]⟩,
      ⟨7, [⟨"set_mimir", [⟨"key", "B"⟩, ⟨"value", "1"⟩]⟩]⟩,
      ⟨0, [⟨"set_mimir", [⟨"key", "C"⟩, ⟨"value", "1"⟩]⟩]⟩]
  endEvents := [⟨"swap", [⟨"coin", "1 BTC.BTC"⟩, ⟨"emit_asset", "1 ETH.ETH"⟩, ⟨"pool", "BTC.BTC"⟩]⟩]

/-- Another event in the place of the unreadable pool leaves the number of the last transaction's event as it
was.  The failed transaction could as well hold an event that ends a run. -/
theorem eventwise_mixedBlock :
    let pool : RawEvent := ⟨"pool", [⟨"pool", "BTC.BTC"⟩, ⟨"pool_status", "Available"⟩]⟩
    let oversized : RawEvent :=
      ⟨"add", [⟨"coin", "9223372036854775807 BTC.BTC,1 BTC.BTC"⟩, ⟨"pool", "BTC.BTC"⟩]⟩
    let txs := mixedBlock.txs.modify 1 fun tx => { tx with events := [oversized] }
    (∀ phase, (mixedBlock.events phase).length < EventId.phaseSpan) ∧
      (∀ p ∈ mixedBlock.placedEvents, sorting.faults mixedBlock.height p.raw = false) ∧
      (sorting.run mixedBlock).delivered.map (fun out => (out.1.kind, out.2.id)) =
        [("set_mimir", ⟨5, .begin, 1⟩), ("set_mimir", ⟨5, .tx, 2⟩), ("errata", ⟨5, .end, 1⟩)] ∧
      (sorting.run mixedBlock).stats = ⟨2, 1, 1, 1, 1, 1, 1⟩ ∧
      ((sorting.run (mixedBlock.replace pool (.tx 0 0))).delivered.filter fun out => out.2.id ≠ ⟨5, .tx, 0⟩) =
        (sorting.run mixedBlock).delivered.filter (fun out => out.2.id ≠ ⟨5, .tx, 0⟩) ∧
      List.Forall₂ TxResult.Matches mixedBlock.txs txs ∧
      sorting.run { mixedBlock with txs := txs } = sorting.run mixedBlock := by
  intro pool oversized txs
  have hroom : ∀ phase, (mixedBlock.events phase).length < EventId.phaseSpan := by
    intro phase
    cases phase <;> decide
  have hcalm : ∀ p ∈ mixedBlock.placedEvents, sorting.faults mixedBlock.height p.raw = false := by
    decide +kernel
  obtain ⟨-, hdelivered, -, -, hstats, -, hlocal, hfailed⟩ := eventwise sorting mixedBlock hroom hcalm
  have hmatches : List.Forall₂ TxResult.Matches mixedBlock.txs txs :=
    .cons (.inl rfl) (.cons (.inr ⟨rfl, rfl⟩) (.cons (.inl rfl) .nil))
  refine ⟨hroom, hcalm, ?_, ?_, ?_, hmatches, hfailed txs hmatches⟩
  · rw [hdelivered]
    decide +kernel
  · rw [hstats]
    decide +kernel
  · exact (hlocal pool (.tx 0 0) (by decide +kernel)).2.2

end Demux

end PoolIndexer
