import PoolIndexer.Correction.Config

/-!
# Proofs.Correction.Config — what configured corrections can do to an event

Configured mutations are overrides of withdrawals.  They never fail, and an event that is corrected is
the event with some of them applied.
-/

namespace PoolIndexer

/-- The event with overrides applied one after another. -/
def Event.amended (e : Event) (overrides : List WithdrawOverride) : Event :=
  overrides.foldl (fun e o => o.patch e) e

namespace CorrectionTable

/-- All mutations of the table are overrides of withdrawals. -/
def OverridesOnly (t : CorrectionTable) : Prop :=
  ∀ p ∈ t.mutations, ∃ o : WithdrawOverride, p.2 = o.mutation

theorem overridesOnly_addOverride {t : CorrectionTable} (h : t.OverridesOnly) (o : WithdrawOverride) :
    (t.addOverride o).OverridesOnly := by
  unfold addOverride mutate
  split
  · intro p hp
    rcases List.mem_append.1 hp with hp | hp
    · exact h p hp
    · exact ⟨o, by rw [List.mem_singleton.1 hp]⟩
  · exact h

theorem overridesOnly_inject {t : CorrectionTable} (h : t.OverridesOnly) (height : Int64)
    (chainId : Option String) (e : Event) : (t.inject height chainId e).OverridesOnly := by
  unfold inject
  split
  · exact h
  · exact h

theorem overridesOnly_ofConfig (c : CorrectionsConfig) (chainId : String) (natives : NativeNames)
    (genesisHeight : Option Int64) : (ofConfig c chainId natives genesisHeight).OverridesOnly := by
  have hempty : OverridesOnly { ofChain chainId natives with pendingCutoff := c.pendingCutoff } :=
    fun _ hp => absurd hp List.not_mem_nil
  have hoverrides := List.foldlRecOn c.overrides addOverride hempty fun t ht o _ =>
    overridesOnly_addOverride ht o
  unfold ofConfig
  refine List.foldlRecOn c.injected addInjection ?_ fun t ht i _ => overridesOnly_inject ht _ _ _
  cases genesisHeight with
  | none => exact hoverrides
  | some height =>
    exact List.foldlRecOn c.genesisPools (addGenesis height) hoverrides fun t ht g _ =>
      overridesOnly_inject ht _ _ _

theorem run_overrides {ms : List Mutation} (h : ∀ m ∈ ms, ∃ o : WithdrawOverride, m = o.mutation) :
    ∀ e : Event, ∃ overrides, run ms e = .ok (e.amended overrides, .keep) := by
  induction ms with
  | nil => exact fun e => ⟨[], rfl⟩
  | cons m ms ih =>
    intro e
    obtain ⟨hm, hms⟩ := List.forall_mem_cons.1 h
    obtain ⟨o, rfl⟩ := hm
    obtain ⟨overrides, hrun⟩ := ih hms (o.patch e)
    exact ⟨o :: overrides, hrun⟩

/-- **Corrections**: a configured table never fails.  It keeps or discards an event with overrides applied. -/
theorem OverridesOnly.apply {t : CorrectionTable} (h : t.OverridesOnly) (height : Int64) (e : Event) :
    ∃ overrides verdict, t.apply height e = .ok (e.amended overrides, verdict) := by
  unfold CorrectionTable.apply
  cases t.standing height e with
  | discard reason => exact ⟨[], .discard reason, rfl⟩
  | keep =>
    have hat : ∀ m ∈ t.mutationsAt height, ∃ o : WithdrawOverride, m = o.mutation := by
      intro m hm
      obtain ⟨p, hp, rfl⟩ := List.mem_map.1 hm
      exact h p (List.mem_filter.1 hp).1
    obtain ⟨overrides, hrun⟩ := run_overrides hat e
    exact ⟨overrides, .keep, hrun⟩

/-! ### Injected events -/

/-- The event stands in a configuration, as an injection or as what a pool held before the first block. -/
def Configured (e : Event) : Prop := (∃ i : Injection, e = i.event) ∨ ∃ g : GenesisPool, e = g.event

def InjectsConfigured (t : CorrectionTable) : Prop := ∀ p ∈ t.injections, Configured p.2

/-- What holds of every event injected so far and of one more holds of all of them. -/
theorem forall_injections_inject (P : Event → Prop) {t : CorrectionTable} (h : ∀ p ∈ t.injections, P p.2)
    (height : Int64) (chainId : Option String) {e : Event} (he : P e) :
    ∀ p ∈ (t.inject height chainId e).injections, P p.2 := by
  unfold inject
  split
  · intro p hp
    rcases List.mem_append.1 hp with hp | hp
    · exact h p hp
    · rw [List.mem_singleton.1 hp]
      exact he
  · exact h

theorem injectsConfigured_ofConfig (c : CorrectionsConfig) (chainId : String) (natives : NativeNames)
    (genesisHeight : Option Int64) : (ofConfig c chainId natives genesisHeight).InjectsConfigured := by
  have hempty : InjectsConfigured { ofChain chainId natives with pendingCutoff := c.pendingCutoff } :=
    fun _ hp => absurd hp List.not_mem_nil
  have hoverrides := List.foldlRecOn c.overrides addOverride hempty fun t ht o _ => by
    unfold addOverride mutate
    split
    · exact ht
    · exact ht
  unfold ofConfig
  refine List.foldlRecOn c.injected addInjection ?_ fun t ht i _ =>
    forall_injections_inject Configured ht _ _ (.inl ⟨i, rfl⟩)
  cases genesisHeight with
  | none => exact hoverrides
  | some height =>
    exact List.foldlRecOn c.genesisPools (addGenesis height) hoverrides fun t ht g _ =>
      forall_injections_inject Configured ht _ _ (.inr ⟨g, rfl⟩)

/-- Whatever a configured table injects stands in its configuration. -/
theorem configured_of_mem_injected {c : CorrectionsConfig} {chainId : String} {natives : NativeNames}
    {genesisHeight : Option Int64} {height : Int64} {e : Event}
    (h : e ∈ (ofConfig c chainId natives genesisHeight).injected height) : Configured e := by
  obtain ⟨p, hp, rfl⟩ := List.mem_map.1 h
  exact injectsConfigured_ofConfig c chainId natives genesisHeight p (List.mem_filter.1 hp).1

end CorrectionTable

end PoolIndexer
