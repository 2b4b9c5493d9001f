import PoolIndexer.Proofs.Demux
import PoolIndexer.Proofs.Demux.Fates

/-!
# Proofs.Demux.Places — the ids of what blocks hand on

* `Demux.output`: what the events of a block come to, each alone, and the injections behind them.  A run
  hands on all of it, or a front part of the events if it is ended.
* `PlacedEvent.Before`: the order of places.  Ids follow it as long as an index has a word of 32 bits, so the
  ids of a block increase, and with rising heights those of many blocks.
* An event of the block itself is handed on only if its index fits under its phase.  An injected event is
  numbered after the events of the last phase and not looked at again.
-/

namespace PoolIndexer

/-! ### The order of places -/

/-- The place comes first: in an earlier phase, or with a smaller index in the same one. -/
def PlacedEvent.Before (p q : PlacedEvent) : Prop :=
  p.phase.rank < q.phase.rank ∨ p.phase.rank = q.phase.rank ∧ p.index < q.index

theorem pairwise_zipIdx {α : Type} (xs : List α) : xs.zipIdx.Pairwise fun x y => x.2 < y.2 := by
  rw [List.pairwise_iff_getElem]
  intro i j hi hj hij
  rw [List.getElem_zipIdx, List.getElem_zipIdx]
  omega

theorem pairwise_placed (phase : Phase) (events : List RawEvent) :
    (placed phase events).Pairwise PlacedEvent.Before :=
  List.pairwise_map.2 ((pairwise_zipIdx events).imp fun h => .inr ⟨rfl, h⟩)

namespace Block

theorem pairwise_placedEvents (b : Block) : b.placedEvents.Pairwise PlacedEvent.Before := by
  have hphases : ∀ {first second : Phase} {es es' : List RawEvent}, first.rank < second.rank →
      ∀ p ∈ placed first es, ∀ q ∈ placed second es', p.Before q := by
    intro first second es es' hrank p hp q hq
    rw [← (mem_placed hp).1, ← (mem_placed hq).1] at hrank
    exact .inl hrank
  refine List.pairwise_append.2 ⟨List.pairwise_append.2
    ⟨pairwise_placed _ _, pairwise_placed _ _, hphases (by decide)⟩, pairwise_placed _ _, ?_⟩
  intro p hp q hq
  rcases List.mem_append.1 hp with hp | hp
  · exact hphases (by decide) p hp q hq
  · exact hphases (by decide) p hp q hq

theorem mem_placedEvents (b : Block) {p : PlacedEvent} (h : p ∈ b.placedEvents) :
    p ∈ placed .begin b.beginEvents ∨ p ∈ placed .tx b.txEvents ∨ p ∈ placed .end b.endEvents := by
  rcases List.mem_append.1 h with h | h
  · rcases List.mem_append.1 h with h | h
    · exact .inl h
    · exact .inr (.inl h)
  · exact .inr (.inr h)

end Block

namespace Demux

/-! ### What a run hands on -/

/-- What the events of a block come to if nothing ends its run. -/
def output (d : Demux) (b : Block) : List (Event × Metadata) :=
  b.placedEvents.filterMap (d.delivery? b.height b.nanos) ++ d.injections b

/-- A run hands on what each event comes to, up to the event that ends it. -/
theorem delivered_foldl (d : Demux) (height timestamp : Int64) (events : List PlacedEvent) :
    ∀ r : DemuxRun, r.fault = none →
    let after := events.foldl (d.step height timestamp) r
    ∃ front, front <+: events ∧ (after.fault = none → front = events) ∧
      after.delivered = r.delivered ++ front.filterMap (d.delivery? height timestamp) := by
  induction events with
  | nil => exact fun r hr => ⟨[], List.prefix_rfl, fun _ => rfl, (List.append_nil _).symm⟩
  | cons p rest ih =>
    intro r hr after
    have hafter : after = rest.foldl (d.step height timestamp) (d.step height timestamp r p) := rfl
    cases hfate : d.fate (p.metadata height timestamp) p.raw with
    | error o =>
      have hstep := step_of_error hr hfate
      have hsame : (d.step height timestamp r p).delivered = r.delivered := by
        unfold PlacedEvent.metadata at hfate
        unfold step
        rw [hr]
        dsimp only
        rw [hfate]
      rw [hafter, foldl_of_fault hstep]
      refine ⟨[], List.nil_prefix, fun h => ?_, ?_⟩
      · cases hstep.symm.trans h
      · rw [hsame]
        exact (List.append_nil _).symm
    | ok f =>
      have hstep := step_of_ok hr hfate
      obtain ⟨front, hfront, hall, hdelivered⟩ := ih _ ((settle_fault _ _ f).trans hr)
      rw [← hstep, ← hafter] at hall hdelivered
      refine ⟨p :: front, List.cons_prefix_cons.2 ⟨rfl, hfront⟩, fun h => ?_, ?_⟩
      · rw [hall h]
      · rw [hdelivered, hstep, settle_delivered d hfate, List.append_assoc, List.filterMap_cons]
        cases d.delivery? height timestamp p <;> rfl

/-- The run over the events of the block itself. -/
def afterEvents (d : Demux) (b : Block) : DemuxRun :=
  b.placedEvents.foldl (d.step b.height b.nanos) (DemuxRun.start b)

theorem run_of_fault {d : Demux} {b : Block} {o : Overflow} (h : (d.afterEvents b).fault = some o) :
    d.run b = d.afterEvents b := by
  unfold afterEvents at h ⊢
  unfold run
  dsimp only
  rw [h]

theorem run_eq_of_calm {d : Demux} {b : Block} (h : (d.afterEvents b).fault = none) :
    d.run b = (d.corrections.injected b.height).zipIdx.foldl
      (injectStep b.height b.nanos b.endEvents.length) (d.afterEvents b) := by
  unfold afterEvents at h ⊢
  unfold run
  dsimp only
  rw [h]

theorem run_of_calm {d : Demux} {b : Block} (h : (d.afterEvents b).fault = none) :
    (d.run b).fault = none ∧ (d.run b).delivered = (d.afterEvents b).delivered ++ d.injections b := by
  obtain ⟨hfault, -, hdelivered, -⟩ :=
    foldl_injectStep b.height b.nanos b.endEvents.length (d.corrections.injected b.height).zipIdx (d.afterEvents b)
  rw [run_eq_of_calm h, hfault, hdelivered]
  exact ⟨h, rfl⟩

/-- **A run**: it hands on all that the block comes to, or it is ended within the events. -/
theorem delivered_cases (d : Demux) (b : Block) :
    ((d.run b).fault = none ∧ (d.run b).delivered = d.output b) ∨
      (d.run b).fault ≠ none ∧ ∃ front, front <+: b.placedEvents ∧
        (d.run b).delivered = front.filterMap (d.delivery? b.height b.nanos) := by
  obtain ⟨front, hfront, hall, hdelivered⟩ :=
    delivered_foldl d b.height b.nanos b.placedEvents (DemuxRun.start b) rfl
  have hordinary : (d.afterEvents b).delivered = front.filterMap (d.delivery? b.height b.nanos) := hdelivered
  cases hfault : (d.afterEvents b).fault with
  | some o =>
    rw [run_of_fault hfault, hfault]
    exact .inr ⟨fun h => (nomatch h), front, hfront, hordinary⟩
  | none =>
    obtain ⟨hcalm, hrun⟩ := run_of_calm hfault
    refine .inl ⟨hcalm, ?_⟩
    rw [output, hrun, hordinary, hall hfault]

theorem delivered_sublist (d : Demux) (b : Block) : (d.run b).delivered.Sublist (d.output b) := by
  rcases delivered_cases d b with ⟨-, h⟩ | ⟨-, front, hfront, h⟩
  · exact h ▸ List.Sublist.refl _
  · rw [h]
    exact (hfront.sublist.filterMap _).trans (List.sublist_append_left _ _)

theorem fault_afterEvents {d : Demux} {b : Block}
    (h : ∀ p ∈ b.placedEvents, ∃ f, d.fate (p.metadata b.height b.nanos) p.raw = .ok f) :
    (d.afterEvents b).fault = none := by
  refine List.foldlRecOn b.placedEvents (d.step b.height b.nanos)
    (motive := fun r : DemuxRun => r.fault = none) rfl fun r hr p hp => ?_
  obtain ⟨f, hf⟩ := h p hp
  rw [step_of_ok hr hf, settle_fault]
  exact hr

theorem delivery?_eq_some {d : Demux} {height timestamp : Int64} {p : PlacedEvent} {out : Event × Metadata}
    (h : d.delivery? height timestamp p = some out) :
    out.2 = p.metadata height timestamp ∧ out.2.id.index.toNat ≤ EventId.maxIndex := by
  unfold delivery? at h
  split at h
  · rename_i e hfate
    cases h
    exact ⟨rfl, fate_delivered hfate⟩
  · cases h

/-- The height leaves room for its ids, and each phase for its numbers; the last phase also for those of the
injections. -/
structure HasRoom (d : Demux) (b : Block) : Prop where
  low : 0 ≤ b.height.toInt
  high : b.height.toInt ≤ 9223372036
  beginEvents : b.beginEvents.length < 2 ^ 32
  txEvents : b.txEvents.length < 2 ^ 32
  endEvents : b.endEvents.length + (d.corrections.injected b.height).length ≤ EventId.phaseSpan

section

variable {d : Demux} {b : Block}

theorem HasRoom.index_lt (h : d.HasRoom b) {p : PlacedEvent} (hp : p ∈ b.placedEvents) :
    p.index < UInt32.size := by
  have hend := h.endEvents
  simp only [EventId.phaseSpan] at hend
  simp only [UInt32.size]
  rcases b.mem_placedEvents hp with hp | hp | hp
  · have := (mem_placed hp).2
    have := h.beginEvents
    omega
  · have := (mem_placed hp).2
    have := h.txEvents
    omega
  · have := (mem_placed hp).2
    omega

/-- The injection at that place among the injections. -/
theorem mem_injections {out : Event × Metadata} (h : out ∈ d.injections b) :
    ∃ i < (d.corrections.injected b.height).length,
      out.2 = .of b.height b.nanos .end (UInt32.ofNat (b.endEvents.length + i)) := by
  obtain ⟨⟨e, i⟩, he, rfl⟩ := List.mem_map.1 h
  exact ⟨i, List.snd_lt_of_mem_zipIdx he, rfl⟩

theorem index_le_of_mem_injections {out : Event × Metadata} (hout : out ∈ d.injections b)
    (hroom : b.endEvents.length + (d.corrections.injected b.height).length ≤ EventId.phaseSpan) :
    out.2.id.index.toNat ≤ EventId.maxIndex := by
  obtain ⟨i, hi, hmetadata⟩ := mem_injections hout
  rw [hmetadata]
  show (UInt32.ofNat (b.endEvents.length + i)).toNat ≤ EventId.maxIndex
  simp only [EventId.phaseSpan] at hroom
  simp only [EventId.maxIndex, EventId.phaseSpan]
  rw [UInt32.toNat_ofNat_of_lt' (by simp only [UInt32.size]; omega)]
  omega

/-- Whatever a block with room hands on has an id of its height whose index fits. -/
theorem HasRoom.id_of_mem_output (h : d.HasRoom b) {out : Event × Metadata} (hout : out ∈ d.output b) :
    out.2.id.height = b.height ∧ out.2.id.index.toNat ≤ EventId.maxIndex := by
  rcases List.mem_append.1 hout with hout | hout
  · obtain ⟨p, -, hdelivery⟩ := List.mem_filterMap.1 hout
    obtain ⟨hmetadata, hindex⟩ := delivery?_eq_some hdelivery
    exact ⟨by rw [hmetadata]; rfl, hindex⟩
  · obtain ⟨i, -, hmetadata⟩ := mem_injections hout
    exact ⟨by rw [hmetadata]; rfl, index_le_of_mem_injections hout h.endEvents⟩

/-- The ids of a block increase. -/
theorem HasRoom.pairwise_output (h : d.HasRoom b) :
    (d.output b).Pairwise fun x y => x.2.id.Precedes y.2.id := by
  have hend := h.endEvents
  simp only [EventId.phaseSpan] at hend
  have hnumber : ∀ {i : Nat}, i < UInt32.size → (UInt32.ofNat i).toNat = i := UInt32.toNat_ofNat_of_lt'
  have hlast : ∀ {i : Nat}, i < (d.corrections.injected b.height).length →
      b.endEvents.length + i < UInt32.size := by
    intro i hi
    simp only [UInt32.size]
    omega
  refine List.pairwise_append.2 ⟨?_, ?_, ?_⟩
  · have hplaces : b.placedEvents.Pairwise fun p q =>
        (p.metadata b.height b.nanos).id.Precedes (q.metadata b.height b.nanos).id := by
      refine b.pairwise_placedEvents.imp_of_mem fun {p q} hp hq hbefore => ?_
      rw [EventId.precedes_iff]
      refine .inr ⟨rfl, ?_⟩
      show p.phase.rank < q.phase.rank ∨ p.phase.rank = q.phase.rank ∧
        (UInt32.ofNat p.index).toNat < (UInt32.ofNat q.index).toNat
      rw [hnumber (h.index_lt hp), hnumber (h.index_lt hq)]
      exact hbefore
    refine hplaces.filterMap _ fun p q hpq x hx y hy => ?_
    rw [(delivery?_eq_some hx).1, (delivery?_eq_some hy).1]
    exact hpq
  · refine List.pairwise_map.2 ((pairwise_zipIdx _).imp_of_mem fun {x y} hx hy hxy => ?_)
    rw [EventId.precedes_iff]
    refine .inr ⟨rfl, .inr ⟨rfl, ?_⟩⟩
    show (UInt32.ofNat (b.endEvents.length + x.2)).toNat < (UInt32.ofNat (b.endEvents.length + y.2)).toNat
    rw [hnumber (hlast (List.snd_lt_of_mem_zipIdx hx)), hnumber (hlast (List.snd_lt_of_mem_zipIdx hy))]
    omega
  · intro x hx y hy
    obtain ⟨p, hp, hdelivery⟩ := List.mem_filterMap.1 hx
    obtain ⟨i, hi, hmetadata⟩ := mem_injections hy
    rw [(delivery?_eq_some hdelivery).1, hmetadata, EventId.precedes_iff]
    refine .inr ⟨rfl, ?_⟩
    show p.phase.rank < Phase.end.rank ∨ p.phase.rank = Phase.end.rank ∧
      (UInt32.ofNat p.index).toNat < (UInt32.ofNat (b.endEvents.length + i)).toNat
    rw [hnumber (h.index_lt hp), hnumber (hlast hi)]
    rcases b.mem_placedEvents hp with hp | hp | hp
    · rw [(mem_placed hp).1]
      exact .inl (by decide)
    · rw [(mem_placed hp).1]
      exact .inl (by decide)
    · obtain ⟨hphase, hindex⟩ := mem_placed hp
      rw [hphase]
      exact .inr ⟨rfl, by omega⟩

end

/-- **A cursor**: over blocks of rising heights that leave room for their ids, the codes of everything handed
on rise, and each is read back as the id of its event.  Unless its run is ended, a block hands on what all its
events come to at their places. -/
theorem ids_increase (d : Demux) {blocks : List Block}
    (hheights : blocks.Pairwise fun a b => a.height.toInt < b.height.toInt)
    (hroom : ∀ b ∈ blocks, d.HasRoom b) :
    let handedOn := blocks.flatMap fun b => (d.run b).delivered
    (∀ b ∈ blocks, (d.run b).fault = none → (d.run b).delivered = d.output b) ∧
      ∃ codes : List Int64, handedOn.map (fun out => out.2.id.encode) = codes.map .ok ∧
        codes.Pairwise (fun x y => x.toInt < y.toInt) ∧
        codes.map EventId.decode? = handedOn.map fun out => some out.2.id := by
  intro handedOn
  have hmem : ∀ out ∈ handedOn, ∃ b ∈ blocks, out ∈ d.output b := by
    intro out hout
    obtain ⟨b, hb, hout⟩ := List.mem_flatMap.1 hout
    exact ⟨b, hb, (delivered_sublist d b).mem hout⟩
  have hindex : ∀ out ∈ handedOn, out.2.id.index.toNat ≤ EventId.maxIndex := by
    intro out hout
    obtain ⟨b, hb, hout⟩ := hmem out hout
    exact ((hroom b hb).id_of_mem_output hout).2
  have hcode : ∀ out ∈ handedOn, ∃ code, out.2.id.encode = .ok code := by
    intro out hout
    obtain ⟨b, hb, hb'⟩ := hmem out hout
    refine EventId.encode_isOk ?_ ?_ (hindex out hout)
    · rw [((hroom b hb).id_of_mem_output hb').1]
      exact (hroom b hb).low
    · rw [((hroom b hb).id_of_mem_output hb').1]
      exact (hroom b hb).high
  have hrising : handedOn.Pairwise fun x y => x.2.id.Precedes y.2.id := by
    refine List.pairwise_flatMap.2 ⟨fun b hb => ?_, ?_⟩
    · exact (hroom b hb).pairwise_output.sublist (delivered_sublist d b)
    · refine hheights.imp_of_mem fun {a b} ha hb hab x hx y hy => ?_
      have hx' := ((hroom a ha).id_of_mem_output ((delivered_sublist d a).mem hx)).1
      have hy' := ((hroom b hb).id_of_mem_output ((delivered_sublist d b).mem hy)).1
      rw [EventId.precedes_iff, hx', hy']
      exact .inl hab
  obtain ⟨codes, hencoded⟩ := mapM_isOk hcode
  have hcodes : handedOn.map (fun out => out.2.id.encode) = codes.map .ok := map_eq_map_ok_iff.2 hencoded
  refine ⟨fun b _ hcalm => ?_, codes, hcodes, ?_, ?_⟩
  · rcases delivered_cases d b with ⟨-, h⟩ | ⟨hfault, -⟩
    · exact h
    · exact absurd hcalm hfault
  · have hpairs : (codes.map (Except.ok (ε := Overflow))).Pairwise fun x y =>
        ∀ a b, x = .ok a → y = .ok b → a.toInt < b.toInt := by
      rw [← hcodes]
      refine List.pairwise_map.2 (hrising.imp_of_mem fun {x y} hx hy hxy a b ha hb => ?_)
      exact (EventId.precedes_iff_code_lt ha hb (hindex x hx) (hindex y hy)).1 hxy
    exact (List.pairwise_map.1 hpairs).imp fun h => h _ _ rfl rfl
  · have hread : codes.map EventId.decode? =
        (codes.map (Except.ok (ε := Overflow))).map fun x => x.toOption.bind EventId.decode? := by
      rw [List.map_map]
      rfl
    rw [hread, ← hcodes, List.map_map]
    refine List.map_congr_left fun out hout => ?_
    obtain ⟨code, hcode⟩ := hcode out hout
    show (out.2.id.encode).toOption.bind EventId.decode? = some out.2.id
    rw [hcode]
    exact EventId.decode?_of_encode hcode (hindex out hout)

/-- A demultiplexer that puts a pool right at the end of block 5. -/
def correcting : Demux where
  natives := .default
  corrections := .ofConfig
    { CorrectionsConfig.none with injected := [⟨5, none, .errata, "BTC.BTC", ⟨1, 0, 0⟩, ""⟩] } "" .default none
  base64 := false
  ignoredKinds := []

/-- A block of that many events without a kind. -/
def crowdedBlock (n : Nat) : Block where
  height := 5
  timestamp := .ofSeconds 0
  hash := []
  beginEvents := []
  txs := []
  endEvents := List.replicate n ⟨"", []⟩

/-- The injection of one block comes before the events of the next. -/
theorem ids_increase_twoBlocks :
    let blocks := [crowdedBlock 2, giftBlock "7 BTC.BTC"]
    let handedOn := blocks.flatMap fun b => (correcting.run b).delivered
    (blocks.Pairwise fun a b => a.height.toInt < b.height.toInt) ∧ (∀ b ∈ blocks, correcting.HasRoom b) ∧
      ∃ codes : List Int64, handedOn.map (fun out => out.2.id.encode) = codes.map .ok ∧
        codes = [5200000002, 6000000000, 6000000001] ∧
        codes.Pairwise (fun x y => x.toInt < y.toInt) ∧
        codes.map EventId.decode? =
          [some ⟨5, .end, 2⟩, some ⟨6, .begin, 0⟩, some ⟨6, .begin, 1⟩] := by
  intro blocks handedOn
  have hheights : blocks.Pairwise fun a b => a.height.toInt < b.height.toInt := by decide
  have hroom : ∀ b ∈ blocks, correcting.HasRoom b := by
    refine List.forall_mem_cons.2 ⟨?_, List.forall_mem_singleton.2 ?_⟩
    · constructor <;> exact of_decide_eq_true rfl
    · constructor <;> exact of_decide_eq_true rfl
  obtain ⟨-, codes, hcodes, hrising, hread⟩ := ids_increase correcting hheights hroom
  have hids : handedOn.map (fun out => out.2.id) = [⟨5, .end, 2⟩, ⟨6, .begin, 0⟩, ⟨6, .begin, 1⟩] := by
    decide +kernel
  have hvalues : codes = [5200000002, 6000000000, 6000000001] := by
    have hencoded : codes.map (Except.ok (ε := Overflow)) =
        [.ok 5200000002, .ok 6000000000, .ok 6000000001] := by
      rw [← hcodes, ← Function.comp_def EventId.encode fun out : Event × Metadata => out.2.id,
        ← List.map_map, hids]
      rfl
    exact (List.map_inj_right fun _ _ h => Except.ok.inj h).1 hencoded
  refine ⟨hheights, hroom, codes, hcodes, hvalues, hrising, ?_⟩
  rw [hread, ← Function.comp_def some fun out : Event × Metadata => out.2.id, ← List.map_map, hids]
  rfl

/-! ### Injections without room -/

end Demux

end PoolIndexer
