import Mathlib.Data.List.Basic
import PoolIndexer.Proofs.Demux.Places

/-!
# Proofs.Demux.Lots — what a block delivers and how it is counted

* `Demux.kept?` and `Demux.lot`: the event that is handed on and the counter that goes up, said of one event
  and the height alone.  `Demux.faults`: the event ends the run.
* `DemuxStats.add`: a lot is counted once.  `Demux.run_of_lots`: a run that no event ends delivers what is kept
  of each event and counts each lot.
* `DemuxRun.Counted`: what is handed on adds up, also where an event ends the run.
-/

namespace PoolIndexer

/-! ### Lots -/

/-- How an event is counted. -/
inductive Lot where
  | delivered
  | ignored
  | unknown
  | parseFailed
  | discarded
  deriving DecidableEq

def Fate.lot : Fate → Lot
  | .delivered _ => .delivered
  | .ignored => .ignored
  | .unknown => .unknown
  | .indexTooLarge | .malformed _ => .parseFailed
  | .discarded _ _ => .discarded

def Fate.event? : Fate → Option Event
  | .delivered e => some e
  | _ => none

namespace Demux

/-- The typed event that was sent; none if its kind is not known. -/
def read (d : Demux) (raw : RawEvent) : Except LoadError (Option Event) := do
  let as ← Attributes.ofRaw raw d.base64
  Event.load d.natives as

/-- The event is looked at, and reading or correcting it asks for a number that has no word. -/
def faults (d : Demux) (height : Int64) (raw : RawEvent) : Bool :=
  !d.ignoredKinds.contains raw.kind &&
    match d.read raw with
    | .error (.overflow _) => true
    | .ok (some e) =>
      match d.corrections.apply height e with
      | .error _ => true
      | .ok _ => false
    | _ => false

/-- The event as corrected, if it is looked at, can be read and is kept. -/
def kept? (d : Demux) (height : Int64) (raw : RawEvent) : Option Event :=
  match d.ignoredKinds.contains raw.kind, d.read raw with
  | false, .ok (some e) =>
    match d.corrections.apply height e with
    | .ok (e, .keep) => some e
    | _ => none
  | _, _ => none

def lot (d : Demux) (height : Int64) (raw : RawEvent) : Lot :=
  if d.ignoredKinds.contains raw.kind then .ignored
  else
    match d.read raw with
    | .error _ => .parseFailed
    | .ok none => .unknown
    | .ok (some e) =>
      match d.corrections.apply height e with
      | .ok (_, .discard _) => .discarded
      | _ => .delivered

section

variable {d : Demux} {m : Metadata} {raw : RawEvent}

theorem read_of_ok {as : Attributes} (h : Attributes.ofRaw raw d.base64 = .ok as) :
    d.read raw = Event.load d.natives as := by
  unfold read
  rw [h]
  rfl

theorem read_of_error {e : AttributeError} (h : Attributes.ofRaw raw d.base64 = .error e) :
    d.read raw = .error (.attribute e) := by
  unfold read
  rw [h]
  rfl

theorem read_eq_some_iff {e : Event} : d.read raw = .ok (some e) ↔
    ∃ as, Attributes.ofRaw raw d.base64 = .ok as ∧ Event.load d.natives as = .ok (some e) := by
  cases has : Attributes.ofRaw raw d.base64 with
  | error fault =>
    rw [read_of_error has]
    exact ⟨fun h => (nomatch h), fun ⟨_, h, _⟩ => (nomatch h)⟩
  | ok as =>
    rw [read_of_ok has]
    constructor
    · exact fun h => ⟨as, rfl, h⟩
    · rintro ⟨_, ⟨⟩, h⟩
      exact h

/-- An event is kept if its kind is not passed over, it can be read, and the corrections keep it. -/
theorem kept?_eq_some_iff {height : Int64} {kept : Event} :
    d.kept? height raw = some kept ↔ d.ignoredKinds.contains raw.kind = false ∧
      ∃ as e, Attributes.ofRaw raw d.base64 = .ok as ∧ Event.load d.natives as = .ok (some e) ∧
        d.corrections.apply height e = .ok (kept, .keep) := by
  unfold kept?
  constructor
  · intro h
    split at h
    · rename_i e hkind hread
      obtain ⟨as, has, hload⟩ := read_eq_some_iff.1 hread
      split at h
      · rename_i e' happly
        cases h
        exact ⟨hkind, as, e, has, hload, happly⟩
      · cases h
    · cases h
  · rintro ⟨hkind, as, e, has, hload, happly⟩
    rw [hkind, read_eq_some_iff.2 ⟨as, has, hload⟩]
    dsimp only
    rw [happly]

/-- **One event**: an event whose index fits ends the run, or it is counted in its lot and what is kept of it
is handed on. -/
theorem fate_lot (d : Demux) (hindex : m.id.index.toNat ≤ EventId.maxIndex) (raw : RawEvent) :
    (∃ o, d.fate m raw = .error o) ∧ d.faults m.height raw = true ∨
      ∃ f, d.fate m raw = .ok f ∧ d.faults m.height raw = false ∧ f.lot = d.lot m.height raw ∧
        f.event? = d.kept? m.height raw := by
  unfold fate faults lot kept?
  rw [if_neg (Nat.not_lt.2 hindex)]
  cases d.ignoredKinds.contains raw.kind with
  | true => exact .inr ⟨.ignored, rfl, rfl, rfl, rfl⟩
  | false =>
    rw [if_neg Bool.false_ne_true, if_neg Bool.false_ne_true]
    cases has : Attributes.ofRaw raw d.base64 with
    | error e =>
      rw [read_of_error has]
      exact .inr ⟨.malformed e, rfl, rfl, rfl, rfl⟩
    | ok as =>
      rw [read_of_ok has]
      dsimp only
      cases Event.load d.natives as with
      | error fault =>
        rcases fault with e | o
        · exact .inr ⟨.malformed e, rfl, rfl, rfl, rfl⟩
        · exact .inl ⟨⟨o, rfl⟩, rfl⟩
      | ok loaded =>
        cases loaded with
        | none => exact .inr ⟨.unknown, rfl, rfl, rfl, rfl⟩
        | some e =>
          dsimp only
          cases d.corrections.apply m.height e with
          | error o => exact .inl ⟨⟨o, rfl⟩, rfl⟩
          | ok corrected =>
            obtain ⟨e', verdict⟩ := corrected
            cases verdict with
            | keep => exact .inr ⟨.delivered e', rfl, rfl, rfl, rfl⟩
            | discard reason => exact .inr ⟨.discarded _ reason, rfl, rfl, rfl, rfl⟩

/-- With configured corrections an event ends the run exactly if reading it strains. -/
theorem faults_iff_strains (hcorrections : d.corrections.OverridesOnly) (height : Int64) :
    d.faults height raw = true ↔ d.Strains raw := by
  have hindex : (Metadata.of height 0 .begin 0).id.index.toNat ≤ EventId.maxIndex := Nat.zero_le _
  rcases d.fate_lot hindex raw with ⟨⟨o, hfate⟩, hfaults⟩ | ⟨f, hfate, hcalm, -⟩
  · rcases fate_cases hindex hcorrections with ⟨-, hstrains⟩ | ⟨_, hfate', -⟩
    · exact ⟨fun _ => hstrains, fun _ => hfaults⟩
    · cases hfate.symm.trans hfate'
  · rcases fate_cases hindex hcorrections with ⟨⟨_, hfate'⟩, -⟩ | ⟨_, -, hnot, -⟩
    · cases hfate.symm.trans hfate'
    · exact ⟨fun h => (nomatch hcalm.symm.trans h), fun h => absurd h hnot⟩

theorem delivery?_of_fate {height timestamp : Int64} {p : PlacedEvent} {f : Fate}
    (h : d.fate (p.metadata height timestamp) p.raw = .ok f) :
    d.delivery? height timestamp p = f.event?.map fun e => (e, p.metadata height timestamp) := by
  unfold delivery?
  rw [h]
  cases f <;> rfl

end

end Demux

/-! ### Counters -/

namespace DemuxStats

def add (s : DemuxStats) : Lot → DemuxStats
  | .delivered => { s with delivered := s.delivered + 1 }
  | .ignored => { s with ignored := s.ignored + 1 }
  | .unknown => { s with unknown := s.unknown + 1 }
  | .parseFailed => { s with parseFailed := s.parseFailed + 1 }
  | .discarded => { s with discarded := s.discarded + 1 }

/-- The ordinary events of a block by their lots, beside what is counted for the block as a whole. -/
def tally (lots : List Lot) (injected failedTxs : Nat) : DemuxStats where
  delivered := lots.count .delivered
  ignored := lots.count .ignored
  unknown := lots.count .unknown
  parseFailed := lots.count .parseFailed
  discarded := lots.count .discarded
  injected := injected
  failedTxs := failedTxs

theorem tally_concat (lots : List Lot) (l : Lot) (injected failedTxs : Nat) :
    tally (lots ++ [l]) injected failedTxs = (tally lots injected failedTxs).add l := by
  unfold tally
  simp only [List.count_append]
  cases l <;> rfl

/-- No event is counted twice or left out. -/
theorem tally_total (lots : List Lot) (injected failedTxs : Nat) :
    let s := tally lots injected failedTxs
    s.delivered + s.ignored + s.unknown + s.parseFailed + s.discarded = lots.length := by
  unfold tally
  dsimp only
  induction lots with
  | nil => rfl
  | cons l rest ih =>
    simp only [List.count_cons, List.length_cons]
    cases l <;> simp <;> omega

end DemuxStats

/-- Each event that was handed on is counted, as delivered or as injected. -/
def DemuxRun.Counted (r : DemuxRun) : Prop := r.delivered.length = r.stats.delivered + r.stats.injected

theorem DemuxRun.counted_settle {r : DemuxRun} (h : r.Counted) (m : Metadata) (raw : RawEvent) (f : Fate) :
    (r.settle m raw f).Counted := by
  cases f with
  | delivered e =>
    show (r.delivered ++ [(e, m)]).length = r.stats.delivered + 1 + r.stats.injected
    rw [List.length_append, h, Nat.add_right_comm]
    rfl
  | _ => exact h

namespace Demux

section

variable {d : Demux} {height timestamp : Int64} {r : DemuxRun}

theorem counted_step (h : r.Counted) (p : PlacedEvent) : (d.step height timestamp r p).Counted := by
  unfold step
  split
  · exact h
  · dsimp only
    split
    · exact h
    · exact DemuxRun.counted_settle h _ _ _

theorem counted_injectStep (h : r.Counted) (firstIndex : Nat) (e : Event × Nat) :
    (injectStep height timestamp firstIndex r e).Counted := by
  show (r.delivered ++ [_]).length = r.stats.delivered + (r.stats.injected + 1)
  rw [List.length_append, h]
  rfl

/-- **Deliveries**: a run has counted all that it handed on, also if an event ends it. -/
theorem counted_run (d : Demux) (b : Block) : (d.run b).Counted := by
  have hafter : (d.afterEvents b).Counted :=
    List.foldlRecOn b.placedEvents _ (motive := DemuxRun.Counted) rfl fun _ h p _ => counted_step h p
  cases hfault : (d.afterEvents b).fault with
  | some o => exact run_of_fault hfault ▸ hafter
  | none =>
    rw [run_eq_of_calm hfault]
    exact List.foldlRecOn _ _ (motive := DemuxRun.Counted) hafter fun _ h e _ => counted_injectStep h _ e

theorem settle_stats (m : Metadata) (raw : RawEvent) (f : Fate) :
    (r.settle m raw f).stats = r.stats.add f.lot := by
  cases f <;> rfl

/-- Events that fit and do not end the run are counted one after another. -/
theorem stats_foldl {events : List PlacedEvent} (hevents : ∀ p ∈ events, ∃ f,
      d.fate (p.metadata height timestamp) p.raw = .ok f ∧ f.lot = d.lot height p.raw)
    {injected failedTxs : Nat} :
    ∀ (r : DemuxRun) (counted : List Lot), r.fault = none → r.stats = .tally counted injected failedTxs →
      (events.foldl (d.step height timestamp) r).stats =
        .tally (counted ++ events.map fun p => d.lot height p.raw) injected failedTxs := by
  induction events with
  | nil =>
    intro r counted _ hstats
    rw [List.map_nil, List.append_nil]
    exact hstats
  | cons p rest ih =>
    obtain ⟨⟨f, hfate, hlot⟩, hrest⟩ := List.forall_mem_cons.1 hevents
    intro r counted hr hstats
    have hstep := step_of_ok hr hfate
    have hcounted : (d.step height timestamp r p).stats =
        .tally (counted ++ [d.lot height p.raw]) injected failedTxs := by
      rw [hstep, settle_stats, hstats, hlot, DemuxStats.tally_concat]
    have hcalm : (d.step height timestamp r p).fault = none := by
      rw [hstep, settle_fault, hr]
    rw [List.foldl_cons, ih hrest _ _ hcalm hcounted, List.append_assoc]
    rfl

theorem stats_foldl_injectStep (height timestamp : Int64) (firstIndex : Nat) (events : List (Event × Nat)) {lots : List Lot}
    {failedTxs : Nat} :
    ∀ (r : DemuxRun) (injected : Nat), r.stats = .tally lots injected failedTxs →
      (events.foldl (injectStep height timestamp firstIndex) r).stats =
        .tally lots (injected + events.length) failedTxs := by
  induction events with
  | nil => exact fun _ _ h => h
  | cons e rest ih =>
    intro r injected h
    have hstep : (injectStep height timestamp firstIndex r e).stats = .tally lots (injected + 1) failedTxs := by
      unfold injectStep
      dsimp only
      rw [h]
      rfl
    rw [List.foldl_cons, ih _ _ hstep, List.length_cons, Nat.add_right_comm, Nat.add_assoc]

end

/-- The events of the block by their ids, each with its lot. -/
def lots (d : Demux) (b : Block) : List (EventId × Lot) :=
  b.placedEvents.map fun p => ((p.metadata b.height b.nanos).id, d.lot b.height p.raw)

/-- What is kept of the events of the block, each under its id. -/
def kept (d : Demux) (b : Block) : List (Event × Metadata) :=
  b.placedEvents.filterMap fun p =>
    (d.kept? b.height p.raw).map fun e => (e, p.metadata b.height b.nanos)

/-- **A calm run**: if no event ends it, it delivers what is kept and then the injections, and it counts every
event in its lot. -/
theorem run_of_lots {d : Demux} {b : Block} (hroom : ∀ phase, (b.events phase).length < EventId.phaseSpan)
    (hcalm : ∀ p ∈ b.placedEvents, d.faults b.height p.raw = false) :
    (d.run b).fault = none ∧ (d.run b).delivered = d.kept b ++ d.injections b ∧
      (d.run b).stats = .tally ((d.lots b).map (·.2)) (d.corrections.injected b.height).length b.failedTxs := by
  have hfate : ∀ p ∈ b.placedEvents, ∃ f, d.fate (p.metadata b.height b.nanos) p.raw = .ok f ∧
      f.lot = d.lot b.height p.raw ∧ f.event? = d.kept? b.height p.raw := by
    intro p hp
    have hfits := p.index_le (Block.index_lt hroom hp) b.height b.nanos
    rcases d.fate_lot hfits p.raw with ⟨-, hfaults⟩ | ⟨f, hf, -, hlot, hevent⟩
    · cases (hcalm p hp).symm.trans hfaults
    · exact ⟨f, hf, hlot, hevent⟩
  have hends := fault_afterEvents fun p hp => (hfate p hp).imp fun _ h => h.1
  have hfault := (run_of_calm hends).1
  refine ⟨hfault, ?_, ?_⟩
  · rcases delivered_cases d b with ⟨-, hdelivered⟩ | ⟨hended, -⟩
    · rw [hdelivered]
      refine congrArg (· ++ d.injections b) (List.filterMap_congr fun p hp => ?_)
      obtain ⟨f, hf, -, hevent⟩ := hfate p hp
      rw [delivery?_of_fate hf, hevent]
    · exact absurd hfault hended
  · have hordinary : (d.afterEvents b).stats =
        .tally (b.placedEvents.map fun p => d.lot b.height p.raw) 0 b.failedTxs :=
      stats_foldl (fun p hp => (hfate p hp).imp fun _ h => ⟨h.1, h.2.1⟩) (DemuxRun.start b) [] rfl rfl
    have hinjected := stats_foldl_injectStep b.height b.nanos b.endEvents.length
      (d.corrections.injected b.height).zipIdx _ _ hordinary
    rw [List.length_zipIdx, Nat.zero_add] at hinjected
    rw [run_eq_of_calm hends, hinjected, lots, List.map_map]
    rfl

end Demux

end PoolIndexer
