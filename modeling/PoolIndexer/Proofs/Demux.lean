import PoolIndexer.Demux
import PoolIndexer.Proofs.Correction.Config

/-!
# Proofs.Demux — the places of delivered events

Whatever comes out of a block is placed at the height of the block.  An event of the block itself
has an index that fits under its phase; only an injected one might not.
-/

namespace PoolIndexer

namespace Demux

/-- The place of an event that is handed on for a block at `height`. -/
def Placed (d : Demux) (height : Int64) (p : Event × Metadata) : Prop :=
  p.2.id.height = p.2.height ∧
    (p.2.id.index.toNat ≤ EventId.maxIndex ∨ p.1 ∈ d.corrections.injected height)

section

variable {d : Demux} {height timestamp : Int64} {r : DemuxRun}

theorem fate_delivered {m : Metadata} {raw : RawEvent} {e : Event} (h : d.fate m raw = .ok (.delivered e)) :
    m.id.index.toNat ≤ EventId.maxIndex := by
  unfold fate at h
  split at h
  · cases h
  · rename_i hindex
    exact Nat.not_lt.1 hindex

theorem delivered_settle (m : Metadata) (raw : RawEvent) (f : Fate) {p : Event × Metadata}
    (h : p ∈ (r.settle m raw f).delivered) : p ∈ r.delivered ∨ ∃ e, f = .delivered e ∧ p = (e, m) := by
  cases f with
  | delivered e =>
    rcases List.mem_append.1 h with h | h
    · exact .inl h
    · exact .inr ⟨e, rfl, List.mem_singleton.1 h⟩
  | _ => exact .inl h

theorem placed_step (hr : ∀ p ∈ r.delivered, d.Placed height p) (event : PlacedEvent) :
    ∀ p ∈ (d.step height timestamp r event).delivered, d.Placed height p := by
  unfold step
  cases r.fault with
  | some o => exact hr
  | none =>
    dsimp only
    cases hfate : d.fate (Metadata.of height timestamp event.phase (UInt32.ofNat event.index)) event.raw with
    | error o => exact hr
    | ok f =>
      intro p hp
      rcases delivered_settle _ _ f hp with hp | ⟨e, rfl, rfl⟩
      · exact hr p hp
      · exact ⟨rfl, .inl (fate_delivered hfate)⟩

theorem placed_steps (events : List PlacedEvent) (hr : ∀ p ∈ r.delivered, d.Placed height p) :
    ∀ p ∈ (events.foldl (d.step height timestamp) r).delivered, d.Placed height p :=
  List.foldlRecOn events (d.step height timestamp)
    (motive := fun r : DemuxRun => ∀ p ∈ r.delivered, d.Placed height p) hr
    fun _ hr event _ => placed_step hr event

theorem placed_injected (firstIndex : Nat) (events : List (Event × Nat))
    (hevents : ∀ e ∈ events, e.1 ∈ d.corrections.injected height)
    (hr : ∀ p ∈ r.delivered, d.Placed height p) :
    ∀ p ∈ (events.foldl (injectStep height timestamp firstIndex) r).delivered, d.Placed height p := by
  refine List.foldlRecOn events (injectStep height timestamp firstIndex)
    (motive := fun r : DemuxRun => ∀ p ∈ r.delivered, d.Placed height p) hr fun r hr e he p hp => ?_
  rcases List.mem_append.1 hp with hp | hp
  · exact hr p hp
  · rw [List.mem_singleton.1 hp]
    exact ⟨rfl, .inr (hevents e he)⟩

end

theorem placed_run (d : Demux) (b : Block) : ∀ p ∈ (d.run b).delivered, d.Placed b.height p := by
  have hordinary : ∀ p ∈ (b.placedEvents.foldl (d.step b.height b.nanos) (DemuxRun.start b)).delivered,
      d.Placed b.height p := placed_steps b.placedEvents fun _ hp => absurd hp List.not_mem_nil
  unfold run
  dsimp only
  split
  · exact hordinary
  · exact placed_injected _ _ (fun e he => List.fst_mem_of_mem_zipIdx he) hordinary

/-! ### Withdrawals -/

/-- Every withdrawal that comes out of the block has an index that fits under its phase. -/
def WithdrawalsFit (d : Demux) (b : Block) : Prop :=
  ∀ w m, (Event.withdraw w, m) ∈ (d.run b).delivered → m.id.index.toNat ≤ EventId.maxIndex

theorem withdrawalsFit_of_not_injected {d : Demux} {b : Block}
    (h : ∀ w, Event.withdraw w ∉ d.corrections.injected b.height) : d.WithdrawalsFit b := by
  intro w m hm
  rcases (placed_run d b _ hm).2 with hindex | hinjected
  · exact hindex
  · exact absurd hinjected (h w)

end Demux

/-! ### Configured corrections -/

namespace CorrectionTable

/-- Nothing that a table injects is a withdrawal. -/
def InjectsNoWithdrawal (t : CorrectionTable) : Prop := ∀ p ∈ t.injections, ∀ w, p.2 ≠ Event.withdraw w

theorem injectsNoWithdrawal_inject {t : CorrectionTable} (h : t.InjectsNoWithdrawal) (height : Int64)
    (chainId : Option String) {e : Event} (he : ∀ w, e ≠ .withdraw w) :
    (t.inject height chainId e).InjectsNoWithdrawal :=
  forall_injections_inject (fun e => ∀ w, e ≠ .withdraw w) h height chainId he

/-- Configured corrections inject deposits, errata and resets only. -/
theorem injectsNoWithdrawal_ofConfig (c : CorrectionsConfig) (chainId : String) (natives : NativeNames)
    (genesisHeight : Option Int64) : (ofConfig c chainId natives genesisHeight).InjectsNoWithdrawal := by
  intro p hp w
  rcases injectsConfigured_ofConfig c chainId natives genesisHeight p hp with ⟨i, hi⟩ | ⟨g, hg⟩
  · rw [hi]
    unfold Injection.event
    cases i.kind <;> exact Event.noConfusion
  · rw [hg]
    exact Event.noConfusion

theorem not_mem_injected {t : CorrectionTable} (h : t.InjectsNoWithdrawal) (height : Int64) (w : Withdraw) :
    Event.withdraw w ∉ t.injected height := by
  intro hw
  obtain ⟨p, hp, heq⟩ := List.mem_map.1 hw
  exact h p (List.mem_filter.1 hp).1 w heq

end CorrectionTable

theorem Demux.withdrawalsFit_ofConfig {d : Demux} {c : CorrectionsConfig} {chainId : String}
    {natives : NativeNames} {genesisHeight : Option Int64}
    (h : d.corrections = .ofConfig c chainId natives genesisHeight) (b : Block) : d.WithdrawalsFit b := by
  refine withdrawalsFit_of_not_injected fun w => ?_
  rw [h]
  exact CorrectionTable.not_mem_injected (CorrectionTable.injectsNoWithdrawal_ofConfig _ _ _ _) b.height w

end PoolIndexer
