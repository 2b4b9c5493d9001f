import PoolIndexer.Demux
import PoolIndexer.Proofs.Correction.Config
import PoolIndexer.Proofs.Event.Id
import PoolIndexer.Proofs.Event.Load

/-!
# Proofs.Demux.Fates — each event of a block settles for itself

* `Demux.Strains`: the event asks for an amount that has no word.  Nothing else ends a run.
* `Demux.delivery?` and `Demux.isMalformed`: what becomes of one event, whatever stands beside it.
* `Demux.shown_run`: what the run over a block reports can be shown if every id of the block has a code.
* `Demux.run_settles`: a run that is not ended hands on what each event comes to and counts the malformed ones.
-/

namespace PoolIndexer

/-! ### One event -/

/-- The fate counts as a failure to parse. -/
def Fate.isParseFailure : Fate → Bool
  | .indexTooLarge | .malformed _ => true
  | _ => false

def PlacedEvent.metadata (p : PlacedEvent) (height timestamp : Int64) : Metadata :=
  .of height timestamp p.phase (UInt32.ofNat p.index)

namespace Demux

/-- The event is read, and it asks for an amount that has no word. -/
def Strains (d : Demux) (raw : RawEvent) : Prop :=
  d.ignoredKinds.contains raw.kind = false ∧
    ∃ as, Attributes.ofRaw raw d.base64 = .ok as ∧ Event.Strained d.natives as

/-- The event is read, and some attribute is missing or not what it should be. -/
def isMalformed (d : Demux) (raw : RawEvent) : Bool :=
  !d.ignoredKinds.contains raw.kind &&
    match Attributes.ofRaw raw d.base64 with
    | .error _ => true
    | .ok as =>
      match Event.load d.natives as with
      | .error (.attribute _) => true
      | _ => false

/-- What is handed on for the event, if anything is. -/
def delivery? (d : Demux) (height timestamp : Int64) (p : PlacedEvent) : Option (Event × Metadata) :=
  match d.fate (p.metadata height timestamp) p.raw with
  | .ok (.delivered e) => some (e, p.metadata height timestamp)
  | _ => none

section

variable {d : Demux} {m : Metadata} {raw : RawEvent}

theorem strains_iff {as : Attributes} (hkind : d.ignoredKinds.contains raw.kind = false)
    (has : Attributes.ofRaw raw d.base64 = .ok as) : d.Strains raw ↔ Overflows (Event.load d.natives as) := by
  rw [Event.overflows_load]
  unfold Strains
  rw [has]
  constructor
  · rintro ⟨-, _, ⟨⟩, h⟩
    exact h
  · exact fun h => ⟨hkind, as, rfl, h⟩

/-- **One event**: an event whose index fits strains or meets a fate, and it is malformed exactly if that
fate is a failure to parse. -/
theorem fate_cases (hindex : m.id.index.toNat ≤ EventId.maxIndex)
    (hcorrections : d.corrections.OverridesOnly) :
    ((∃ o, d.fate m raw = .error o) ∧ d.Strains raw) ∨
      ∃ f, d.fate m raw = .ok f ∧ ¬ d.Strains raw ∧ f.isParseFailure = d.isMalformed raw := by
  unfold fate isMalformed
  rw [if_neg (Nat.not_lt.2 hindex)]
  cases hkind : d.ignoredKinds.contains raw.kind with
  | true => exact .inr ⟨.ignored, rfl, fun h => (nomatch hkind.symm.trans h.1), rfl⟩
  | false =>
    rw [if_neg Bool.false_ne_true]
    cases has : Attributes.ofRaw raw d.base64 with
    | error e =>
      refine .inr ⟨.malformed e, rfl, ?_, rfl⟩
      rintro ⟨-, as, h, -⟩
      cases has.symm.trans h
    | ok as =>
      rw [strains_iff hkind has]
      dsimp only
      cases hload : Event.load d.natives as with
      | error fault =>
        rcases fault with e | o
        · exact .inr ⟨.malformed e, rfl, fun ⟨_, h⟩ => (nomatch h), rfl⟩
        · exact .inl ⟨⟨o, rfl⟩, o, rfl⟩
      | ok loaded =>
        have hcalm : ¬ Overflows (Except.ok loaded) := fun ⟨_, h⟩ => (nomatch h)
        cases loaded with
        | none => exact .inr ⟨.unknown, rfl, hcalm, rfl⟩
        | some e =>
          obtain ⟨overrides, verdict, happly⟩ := hcorrections.apply m.height e
          dsimp only
          rw [happly]
          cases verdict with
          | keep => exact .inr ⟨.delivered (e.amended overrides), rfl, hcalm, rfl⟩
          | discard reason => exact .inr ⟨.discarded _ reason, rfl, hcalm, rfl⟩

end

end Demux

/-! ### All events of a block -/

theorem mem_placed {phase : Phase} {events : List RawEvent} {p : PlacedEvent} (h : p ∈ placed phase events) :
    p.phase = phase ∧ p.index < events.length := by
  obtain ⟨⟨e, i⟩, he, rfl⟩ := List.mem_map.1 h
  exact ⟨rfl, List.snd_lt_of_mem_zipIdx he⟩

namespace Block

/-- The events of the block itself, by phase.  Each has its place in this list for a number. -/
def events (b : Block) : Phase → List RawEvent
  | .begin => b.beginEvents
  | .tx => b.txEvents
  | .end => b.endEvents

theorem placedEvents_eq (b : Block) :
    b.placedEvents = [Phase.begin, .tx, .end].flatMap fun phase => placed phase (b.events phase) := by
  show _ = placed .begin b.beginEvents ++ (placed .tx b.txEvents ++ (placed .end b.endEvents ++ []))
  rw [List.append_nil, ← List.append_assoc]
  rfl

theorem mem_placedEvents_iff (b : Block) {p : PlacedEvent} :
    p ∈ b.placedEvents ↔ ∃ phase, p ∈ placed phase (b.events phase) := by
  rw [placedEvents_eq, List.mem_flatMap]
  constructor
  · rintro ⟨phase, -, hp⟩
    exact ⟨phase, hp⟩
  · rintro ⟨phase, hp⟩
    exact ⟨phase, by cases phase <;> decide, hp⟩

theorem index_lt {b : Block} (hroom : ∀ phase, (b.events phase).length < EventId.phaseSpan) {p : PlacedEvent}
    (hp : p ∈ b.placedEvents) : p.index < EventId.phaseSpan := by
  obtain ⟨phase, hp⟩ := b.mem_placedEvents_iff.1 hp
  exact Nat.lt_trans (mem_placed hp).2 (hroom phase)

end Block

theorem PlacedEvent.toNat_index {p : PlacedEvent} (h : p.index < EventId.phaseSpan) (height timestamp : Int64) :
    (p.metadata height timestamp).id.index.toNat = p.index := by
  simp only [EventId.phaseSpan] at h
  exact UInt32.toNat_ofNat_of_lt' (by simp only [UInt32.size]; omega)

theorem PlacedEvent.index_le {p : PlacedEvent} (h : p.index < EventId.phaseSpan) (height timestamp : Int64) :
    (p.metadata height timestamp).id.index.toNat ≤ EventId.maxIndex := by
  rw [p.toNat_index h]
  exact Nat.le_sub_one_of_lt h

/-- Every id of the block has a code: the height leaves room for it, and each phase for its events. -/
structure Block.Fits (b : Block) : Prop where
  low : 0 ≤ b.height.toInt
  high : b.height.toInt ≤ 9223372036
  beginEvents : b.beginEvents.length < EventId.phaseSpan
  txEvents : b.txEvents.length < EventId.phaseSpan
  endEvents : b.endEvents.length < EventId.phaseSpan

theorem Block.Fits.room {b : Block} (h : b.Fits) : ∀ phase, (b.events phase).length < EventId.phaseSpan
  | .begin => h.beginEvents
  | .tx => h.txEvents
  | .end => h.endEvents

theorem Block.Fits.index_le {b : Block} (h : b.Fits) :
    ∀ p ∈ b.placedEvents, (UInt32.ofNat p.index).toNat ≤ EventId.maxIndex := fun p hp =>
  p.index_le (index_lt h.room hp) b.height b.nanos

namespace Demux

variable {d : Demux} {height timestamp : Int64} {r : DemuxRun}

theorem step_of_fault {o : Overflow} (h : r.fault = some o) (p : PlacedEvent) :
    d.step height timestamp r p = r := by
  unfold step
  rw [h]

theorem step_of_error {p : PlacedEvent} {o : Overflow} (hr : r.fault = none)
    (h : d.fate (p.metadata height timestamp) p.raw = .error o) :
    (d.step height timestamp r p).fault = some o := by
  unfold PlacedEvent.metadata at h
  unfold step
  rw [hr]
  dsimp only
  rw [h]

theorem step_of_ok {p : PlacedEvent} {f : Fate} (hr : r.fault = none)
    (h : d.fate (p.metadata height timestamp) p.raw = .ok f) :
    d.step height timestamp r p = r.settle (p.metadata height timestamp) p.raw f := by
  unfold PlacedEvent.metadata at h ⊢
  unfold step
  rw [hr]
  dsimp only
  rw [h]

theorem foldl_of_fault {o : Overflow} (h : r.fault = some o) (events : List PlacedEvent) :
    events.foldl (d.step height timestamp) r = r := by
  induction events with
  | nil => rfl
  | cons p rest ih => rw [List.foldl_cons, step_of_fault h, ih]

theorem settle_fault (m : Metadata) (raw : RawEvent) (f : Fate) : (r.settle m raw f).fault = r.fault := by
  cases f <;> rfl

theorem settle_parseFailed (m : Metadata) (raw : RawEvent) (f : Fate) :
    (r.settle m raw f).stats.parseFailed = r.stats.parseFailed + if f.isParseFailure then 1 else 0 := by
  cases f <;> rfl

theorem settle_delivered (d : Demux) {p : PlacedEvent} {f : Fate}
    (h : d.fate (p.metadata height timestamp) p.raw = .ok f) :
    (r.settle (p.metadata height timestamp) p.raw f).delivered =
      r.delivered ++ (d.delivery? height timestamp p).toList := by
  unfold delivery?
  rw [h]
  cases f with
  | delivered e => rfl
  | _ => exact (List.append_nil _).symm

/-- Events that fit, one after another. -/
theorem foldl_step (height timestamp : Int64) (hcorrections : d.corrections.OverridesOnly)
    (events : List PlacedEvent)
    (hindex : ∀ p ∈ events, (UInt32.ofNat p.index).toNat ≤ EventId.maxIndex) :
    ∀ r : DemuxRun, r.fault = none →
      let after := events.foldl (d.step height timestamp) r
      (after.fault = none ↔ ∀ p ∈ events, ¬ d.Strains p.raw) ∧
        (after.fault = none →
          after.delivered = r.delivered ++ events.filterMap (d.delivery? height timestamp) ∧
            after.stats.parseFailed = r.stats.parseFailed + events.countP fun p => d.isMalformed p.raw) := by
  induction events with
  | nil =>
    intro r hr
    exact ⟨⟨fun _ _ hp => absurd hp List.not_mem_nil, fun _ => hr⟩, fun _ => ⟨(List.append_nil _).symm, rfl⟩⟩
  | cons p rest ih =>
    obtain ⟨hp, hrest⟩ := List.forall_mem_cons.1 hindex
    intro r hr after
    have hafter : after = rest.foldl (d.step height timestamp) (d.step height timestamp r p) := rfl
    rw [List.forall_mem_cons]
    rcases fate_cases (m := p.metadata height timestamp) hp hcorrections with
      ⟨⟨o, hfate⟩, hstrains⟩ | ⟨f, hfate, hcalm, hfailure⟩
    · have hstep := step_of_error hr hfate
      rw [hafter, foldl_of_fault hstep, hstep]
      exact ⟨⟨fun h => (nomatch h), fun h => absurd hstrains h.1⟩, fun h => (nomatch h)⟩
    · have hstep := step_of_ok hr hfate
      obtain ⟨hfault, hsettled⟩ := ih hrest _ ((settle_fault _ _ f).trans hr)
      rw [← hstep, ← hafter] at hfault hsettled
      refine ⟨hfault.trans ⟨fun h => ⟨hcalm, h⟩, fun h => h.2⟩, fun h => ?_⟩
      obtain ⟨hdelivered, hparse⟩ := hsettled h
      rw [hdelivered, hparse, hstep, settle_delivered d hfate, settle_parseFailed, hfailure, List.append_assoc,
        List.countP_cons, List.filterMap_cons]
      constructor
      · cases d.delivery? height timestamp p <;> rfl
      · split <;> omega

end Demux

/-! ### What a run reports -/

/-- All values of the entry can be shown. -/
def LogEntry.Showable (e : LogEntry) : Prop := ∀ field ∈ e.fields, ∃ j, field.2.toJson = .ok j

theorem LogEntry.Showable.toJson {e : LogEntry} (h : e.Showable) : ∃ j, e.toJson = .ok j := by
  have hfields : ∃ js, (e.fields.mapM fun field => (field.2.toJson).map fun j => (field.1, j)) = .ok js := by
    refine mapM_isOk fun field hfield => ?_
    obtain ⟨j, hj⟩ := h field hfield
    rw [hj]
    exact ⟨(field.1, j), rfl⟩
  obtain ⟨js, hjs⟩ := hfields
  exact ⟨_, bind_eq_ok_iff.2 ⟨js, hjs, rfl⟩⟩

theorem Log.shown_of_showable (rank : Nat) {log : Log} (h : ∀ e ∈ log, e.Showable) :
    (log.shown rank).2 = true := by
  induction log with
  | nil => rfl
  | cons e rest ih =>
    obtain ⟨he, hrest⟩ := List.forall_mem_cons.1 h
    obtain ⟨j, hj⟩ := he.toJson
    unfold Log.shown
    split
    · exact ih hrest
    · rw [hj]
      exact ih hrest

namespace Demux

variable {d : Demux} {r : DemuxRun}

theorem showable_settle {m : Metadata} (hid : ∃ n, m.id.encode = .ok n) (raw : RawEvent) (f : Fate)
    (hr : ∀ e ∈ r.log, e.Showable) : ∀ e ∈ (r.settle m raw f).log, e.Showable := by
  obtain ⟨n, hid⟩ := hid
  have hshown : (LogValue.eventId m.id).toJson = .ok (.text (Text.Decimal.showInt64 n)) := by
    show m.id.encode.map _ = _
    rw [hid]
    rfl
  have hreport : ∀ (r : DemuxRun) (message : String) (fields : List (String × LogValue)),
      (∀ e ∈ r.log, e.Showable) → (∀ field ∈ fields, ∃ j, field.2.toJson = .ok j) →
        ∀ e ∈ (r.report message fields).log, e.Showable := by
    intro r message fields hr hfields e he
    rcases List.mem_append.1 he with he | he
    · exact hr e he
    · rw [List.mem_singleton.1 he]
      exact hfields
  have hplace : ∀ more : List (String × LogValue), (∀ field ∈ more, ∃ j, field.2.toJson = .ok j) →
      ∀ field ∈ DemuxRun.place m more, ∃ j, field.2.toJson = .ok j := fun more hmore =>
    List.forall_mem_cons.2 ⟨⟨_, rfl⟩, List.forall_mem_cons.2 ⟨⟨_, hshown⟩, hmore⟩⟩
  have htext : ∀ (k s : String) (more : List (String × LogValue)),
      (∀ field ∈ more, ∃ j, field.2.toJson = .ok j) →
        ∀ field ∈ (k, LogValue.text s) :: more, ∃ j, field.2.toJson = .ok j := fun k s more hmore =>
    List.forall_mem_cons.2 ⟨⟨_, rfl⟩, hmore⟩
  have hnil : ∀ field ∈ ([] : List (String × LogValue)), ∃ j, field.2.toJson = .ok j :=
    fun _ hfield => absurd hfield List.not_mem_nil
  cases f with
  | indexTooLarge => exact hreport _ _ _ hr (List.forall_mem_cons.2 ⟨⟨_, hshown⟩, hnil⟩)
  | ignored => exact hr
  | unknown => exact hreport _ _ _ hr (hplace _ (htext _ _ _ hnil))
  | malformed e => exact hreport _ _ _ hr (hplace _ (htext _ _ _ hnil))
  | discarded kind reason => exact hreport _ _ _ hr (hplace _ (htext _ _ _ (htext _ _ _ hnil)))
  | delivered e => exact hr

theorem showable_foldl {height timestamp : Int64} (events : List PlacedEvent)
    (hid : ∀ p ∈ events, ∃ n, (p.metadata height timestamp).id.encode = .ok n)
    (hr : ∀ e ∈ r.log, e.Showable) :
    ∀ e ∈ (events.foldl (d.step height timestamp) r).log, e.Showable := by
  refine List.foldlRecOn events (d.step height timestamp)
    (motive := fun r : DemuxRun => ∀ e ∈ r.log, e.Showable) hr fun r hr p hp => ?_
  unfold step
  split
  · exact hr
  · dsimp only
    split
    · exact hr
    · exact showable_settle (hid p hp) _ _ hr

/-! ### The whole block -/

/-- What the table adds behind the events of the block. -/
def injections (d : Demux) (b : Block) : List (Event × Metadata) :=
  (d.corrections.injected b.height).zipIdx.map fun (e, i) =>
    (e, .of b.height b.nanos .end (UInt32.ofNat (b.endEvents.length + i)))

theorem foldl_injectStep (height timestamp : Int64) (firstIndex : Nat) (events : List (Event × Nat))
    (r : DemuxRun) :
    let after := events.foldl (injectStep height timestamp firstIndex) r
    after.fault = r.fault ∧ after.stats.parseFailed = r.stats.parseFailed ∧
      after.delivered = r.delivered ++
        events.map (fun (e, i) => (e, .of height timestamp .end (UInt32.ofNat (firstIndex + i)))) ∧
      ((∀ e ∈ r.log, e.Showable) → ∀ e ∈ after.log, e.Showable) := by
  induction events generalizing r with
  | nil => exact ⟨rfl, rfl, (List.append_nil _).symm, fun h => h⟩
  | cons e rest ih =>
    obtain ⟨hfault, hparse, hdelivered, hlog⟩ := ih (injectStep height timestamp firstIndex r e)
    refine ⟨hfault, hparse, ?_, fun hr => hlog fun entry hentry => ?_⟩
    · rw [List.foldl_cons, hdelivered, List.map_cons]
      exact List.append_assoc _ _ _
    · rcases List.mem_append.1 hentry with hentry | hentry
      · exact hr entry hentry
      · rw [List.mem_singleton.1 hentry]
        exact List.forall_mem_cons.2 ⟨⟨_, rfl⟩, List.forall_mem_cons.2 ⟨⟨_, rfl⟩,
          fun _ hfield => absurd hfield List.not_mem_nil⟩⟩

/-- Whatever the run over a block reports can be shown, since every id of the block has a code. -/
theorem shown_run (d : Demux) {b : Block} (hb : b.Fits) (rank : Nat) : ((d.run b).log.shown rank).2 = true := by
  have hid : ∀ p ∈ b.placedEvents, ∃ n, (p.metadata b.height b.nanos).id.encode = .ok n := fun p hp =>
    EventId.encode_isOk hb.low hb.high (hb.index_le p hp)
  have hordinary : ∀ e ∈ (b.placedEvents.foldl (d.step b.height b.nanos) (DemuxRun.start b)).log, e.Showable :=
    showable_foldl b.placedEvents hid fun _ he => absurd he List.not_mem_nil
  refine Log.shown_of_showable rank ?_
  unfold run
  dsimp only
  split
  · exact hordinary
  · obtain ⟨-, -, -, hinjected⟩ := foldl_injectStep b.height b.nanos b.endEvents.length
      (d.corrections.injected b.height).zipIdx
      (b.placedEvents.foldl (d.step b.height b.nanos) (DemuxRun.start b))
    exact hinjected hordinary

/-- **A block**: nothing but an event that strains ends its run.  Where none does, each event is handed on
as it would be alone and the malformed ones are counted.  Whatever was reported can be shown. -/
theorem run_settles {d : Demux} {c : CorrectionsConfig} {chainId : String} {natives : NativeNames}
    {genesisHeight : Option Int64} (hcorrections : d.corrections = .ofConfig c chainId natives genesisHeight)
    {b : Block} (hb : b.Fits) :
    let run := d.run b
    (run.fault = none ↔ ∀ p ∈ b.placedEvents, ¬ d.Strains p.raw) ∧
      (run.fault = none →
        run.delivered = b.placedEvents.filterMap (d.delivery? b.height b.nanos) ++ d.injections b ∧
          run.stats.parseFailed = b.placedEvents.countP fun p => d.isMalformed p.raw) ∧
      ∀ rank, (run.log.shown rank).2 = true := by
  have hoverrides : d.corrections.OverridesOnly := by
    rw [hcorrections]
    exact CorrectionTable.overridesOnly_ofConfig c chainId natives genesisHeight
  obtain ⟨hfault, hsettled⟩ :=
    foldl_step b.height b.nanos hoverrides b.placedEvents hb.index_le (DemuxRun.start b) rfl
  intro run
  have hshown : ∀ rank, (run.log.shown rank).2 = true := d.shown_run hb
  have hrun : run = d.run b := rfl
  unfold Demux.run at hrun
  generalize b.placedEvents.foldl (d.step b.height b.nanos) (DemuxRun.start b) = ordinary
    at hfault hsettled hrun
  dsimp only at hrun
  cases hordinary : ordinary.fault with
  | some o =>
    rw [hordinary] at hrun
    rw [hrun] at hshown ⊢
    refine ⟨hfault, fun h => ?_, hshown⟩
    cases hordinary.symm.trans h
  | none =>
    rw [hordinary] at hrun
    dsimp only at hrun
    obtain ⟨hfault', hparse', hdelivered', -⟩ :=
      foldl_injectStep b.height b.nanos b.endEvents.length (d.corrections.injected b.height).zipIdx ordinary
    obtain ⟨hdelivered, hparse⟩ := hsettled hordinary
    refine ⟨?_, fun _ => ?_, hshown⟩
    · rw [hrun, hfault']
      exact hfault
    · rw [hrun, hparse', hdelivered', hdelivered, hparse]
      exact ⟨rfl, Nat.zero_add _⟩

/-- A block in which coins are given to a pool before the pool becomes available. -/
def giftBlock (coins : String) : Block where
  height := 6
  timestamp := .ofSeconds 0
  hash := []
  beginEvents :=
    [⟨"add", [⟨"coin", coins⟩, ⟨"pool", "BTC.BTC"⟩]⟩,
      ⟨"pool", [⟨"pool", "BTC.BTC"⟩, ⟨"pool_status", "Available"⟩]⟩]
  txs := []
  endEvents := []

theorem fits_giftBlock (coins : String) : (giftBlock coins).Fits := by
  constructor <;> exact of_decide_eq_true rfl

/-- A demultiplexer without corrections. -/
def plain : Demux := ⟨.default, .ofConfig .none "" .default none, false, []⟩

/-- Coins that cannot be read cost one event. -/
theorem run_unreadableGift :
    (plain.run (giftBlock "x BTC.BTC")).fault = none ∧
      (plain.run (giftBlock "x BTC.BTC")).stats.parseFailed = 1 ∧
      (plain.run (giftBlock "x BTC.BTC")).delivered.map (fun p => p.1.kind) = ["pool"] := by
  have hfault : (plain.run (giftBlock "x BTC.BTC")).fault = none := by decide +kernel
  have hcorrections : plain.corrections = .ofConfig .none "" .default none := rfl
  obtain ⟨-, hsettled, -⟩ := run_settles hcorrections (fits_giftBlock "x BTC.BTC")
  obtain ⟨hdelivered, hparse⟩ := hsettled hfault
  refine ⟨hfault, ?_, ?_⟩
  · rw [hparse]
    decide +kernel
  · rw [hdelivered]
    decide +kernel

/-- Coins that add up to more than a word holds cost the block. -/
theorem run_oversizedGift :
    (giftBlock "9223372036854775807 BTC.BTC,1 BTC.BTC").Fits ∧
      (plain.run (giftBlock "9223372036854775807 BTC.BTC,1 BTC.BTC")).fault = some .add ∧
      (plain.run (giftBlock "9223372036854775807 BTC.BTC,1 BTC.BTC")).delivered = [] := by
  refine ⟨fits_giftBlock _, ?_, ?_⟩
  · decide +kernel
  · decide +kernel

end Demux

end PoolIndexer
