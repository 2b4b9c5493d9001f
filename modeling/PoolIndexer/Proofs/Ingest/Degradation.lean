import PoolIndexer.Proofs.Ingest.Published

/-!
# Proofs.Ingest.Degradation — which strategy a new start gets

* `Deed`: a start with the strategy it got, a call with what it returned, or a reset.
* `Tenancy.Reached`: where a store and its ingestors, one after the other, get by such deeds.  The store
  may refuse what it likes at any time, and an ingestor may end at any time, also within a call.
* `Call.Marks`: a call leaves the store tolerant if it was, or if the call fails for the store.
* `start_tolerant_iff`: so a start is tolerant if and only if a call since the last reset failed for the store.
-/

namespace PoolIndexer

/-- The store is the cause that a call failed. -/
def FailedByStore (result : Except (Stop IndexerError) BlockOutcome) : Prop :=
  ∃ e, result = .error (.error (.store e))

namespace Store

theorem strategy_markFailure (s : Store) (reason : String) : (s.markFailure reason).strategy = .tolerant := by
  simp [strategy, markFailure, setConstant, constant?]

theorem strategy_clearFailure (s : Store) : s.clearFailure.strategy = .batch := by
  have hnone : s.clearFailure.constant? failureKey = none := by
    unfold clearFailure dropConstant constant?
    rw [List.lookup_eq_none_iff]
    intro p hp
    have hkey : p.1 ≠ failureKey := by simpa using (List.mem_filter.1 hp).2
    simpa using hkey.symm
  simp [strategy, hnone]

end Store

/-! ### Histories -/

inductive Deed where
  | started (strategy : Strategy)
  | returned (result : Except (Stop IndexerError) BlockOutcome)
  | reset

/-- What the calls since the last reset have returned, or all of them if there is none; the last deed comes first. -/
def Deed.sinceReset : List Deed → List (Except (Stop IndexerError) BlockOutcome)
  | [] => []
  | .started _ :: before => sinceReset before
  | .returned result :: before => result :: sinceReset before
  | .reset :: _ => []

/-- A store, with or without an ingestor. -/
inductive Tenancy where
  | vacant (s : Store)
  | held (g : Ingestor)

/-- Where a store gets, and by what deeds. -/
inductive Tenancy.Reached (s₀ : Store) : Tenancy → List Deed → Prop
  | first : Reached s₀ (.vacant s₀) []
  /-- A start goes on from the store, with the strategy that the store asks for. -/
  | start {s : Store} {deeds : List Deed} (setup : Setup) {r : Recovered} :
      Reached s₀ (.vacant s) deeds → Recovered.ofStore s setup.startHeight = .ok r →
        Reached s₀ (.held ({ setup with strategy := s.strategy }.ingestor s r)) (.started s.strategy :: deeds)
  | process {g g' : Ingestor} {deeds : List Deed} {b : Block} {batchEnd : Bool}
      {result : Except (Stop IndexerError) BlockOutcome} :
      Reached s₀ (.held g) deeds → g.Returns b batchEnd result g' → Reached s₀ (.held g') (.returned result :: deeds)
  /-- The ingestor ends within a call. -/
  | cut {g g' : Ingestor} {deeds : List Deed} {b : Block} {batchEnd : Bool} {job : Job} :
      Reached s₀ (.held g) deeds → Relation.ReflTransGen Call.Step (g.call b batchEnd) (.running g' job) →
        Reached s₀ (.vacant g'.store) deeds
  | drop {g : Ingestor} {deeds : List Deed} : Reached s₀ (.held g) deeds → Reached s₀ (.vacant g.store) deeds
  | refuse {g : Ingestor} {deeds : List Deed} (outage : Bool) (tables : List String) :
      Reached s₀ (.held g) deeds → Reached s₀ (.held (g.refusing outage tables)) deeds
  | refuseVacant {s : Store} {deeds : List Deed} (outage : Bool) (tables : List String) :
      Reached s₀ (.vacant s) deeds → Reached s₀ (.vacant (s.refusing outage tables)) deeds
  | reset {s : Store} {deeds : List Deed} :
      Reached s₀ (.vacant s) deeds → Reached s₀ (.vacant s.clearFailure) (.reset :: deeds)

/-! ### Within a call -/

/-- As long as a call runs the store asks for the same strategy; when it comes back, for the tolerant one also if
the store has failed it. -/
def Call.Marks (g₀ : Ingestor) : Call → Prop
  | .running g _ => g.books.inserter.strategy = g₀.books.inserter.strategy ∧ g.store.strategy = g₀.store.strategy
  | .returned result g =>
    g.books.inserter.strategy = g₀.books.inserter.strategy ∧
      (g.store.strategy = .tolerant ↔ g₀.store.strategy = .tolerant ∨ FailedByStore result)

/-- Who stages rows in the store at once was told so by the store. -/
def Ingestor.Warned (g : Ingestor) : Prop := g.books.inserter.strategy = .tolerant → g.store.strategy = .tolerant

namespace Call

theorem marks_call {g : Ingestor} (hg : g.Sound) (b : Block) (batchEnd : Bool) : (g.call b batchEnd).Marks g := by
  rcases Ingestor.call_cases hg.ready b batchEnd with ⟨stop, g', hcall, hstays, -, hstop⟩ | ⟨g', job, hcall, hstays, -⟩
  · rw [hcall]
    refine ⟨hstays.strategy, ?_⟩
    rw [hstays.store]
    simp [FailedByStore, hstop]
  · rw [hcall]
    exact ⟨hstays.strategy, congrArg Store.strategy hstays.store⟩

/-- A failure that is not written down is one under the tolerant strategy, and then the store has asked for it. -/
theorem Worked.marks {g₀ : Ingestor} (hwarned : g₀.Warned) {c c' : Call} (h : c.Worked c') (hc : c.Marks g₀) :
    c'.Marks g₀ := by
  cases h with
  | returned => exact hc
  | fill hstays =>
    obtain ⟨hstrategy, hstore⟩ := hc
    exact ⟨hstays.strategy.trans hstrategy, (congrArg Store.strategy hstays.store).trans hstore⟩
  | @fail g g' job stop hstays _ htolerant =>
    obtain ⟨hstrategy, hstore⟩ := hc
    refine ⟨hstays.strategy.trans hstrategy, ?_⟩
    rw [hstays.store, hstore]
    cases stop with
    | overflow o => simp [FailedByStore]
    | error e =>
      have hfirst : g₀.store.strategy = .tolerant := hwarned (hstrategy ▸ htolerant e rfl)
      simp [hfirst]
  | @insertFailed g job i height f hstays =>
    obtain ⟨hstrategy, -⟩ := hc
    have hmarked : ((g.withInserter i).insertFailed height (.store f)).store.strategy = .tolerant :=
      g.store.strategy_markFailure (IndexerError.store f).message
    refine ⟨hstays.strategy.trans hstrategy, ?_⟩
    rw [hmarked]
    simp [FailedByStore]
  | ledger _ _ hkept =>
    obtain ⟨hstrategy, hstore⟩ := hc
    exact ⟨hkept.trans hstrategy, hstore⟩
  | @commit g g' job stamp record depthRows result hresult hflushed _ _ _ hkept =>
    obtain ⟨hstrategy, hstore⟩ := hc
    have hsame : g'.store.strategy = g.store.strategy := by
      rw [hflushed]
      cases stamp <;> rfl
    refine ⟨hkept.trans hstrategy, ?_⟩
    rw [hsame, hstore]
    simp [FailedByStore, hresult]

/-- What a store refuses does not change what strategy it asks for. -/
theorem marks_refusing {g₀ : Ingestor} {c : Call} (h : c.Marks g₀) (outage : Bool) (tables : List String) :
    (c.refusing outage tables).Marks g₀ := by
  cases c <;> exact h

theorem marks_steps {g : Ingestor} (hsound : g.Sound) (hwarned : g.Warned) {b : Block} {batchEnd : Bool} {c : Call}
    (h : Relation.ReflTransGen Call.Step (g.call b batchEnd) c) : c.Sound ∧ c.Marks g :=
  steps_induction hsound (marks_call hsound b batchEnd) (fun _ _ hworked hmarks => hworked.marks hwarned hmarks)
    (fun _ outage tables hmarks => marks_refusing hmarks outage tables) h

end Call

/-! ### A whole history -/

/-- The store asks for the tolerant strategy if and only if a call since the last reset failed for the store. -/
def Tenancy.Honest (w : Tenancy) (deeds : List Deed) : Prop :=
  match w with
  | .vacant s => s.strategy = .tolerant ↔ ∃ result ∈ Deed.sinceReset deeds, FailedByStore result
  | .held g =>
    g.Sound ∧ g.Warned ∧ (g.store.strategy = .tolerant ↔ ∃ result ∈ Deed.sinceReset deeds, FailedByStore result)

namespace Tenancy.Reached

variable {s₀ : Store} {w : Tenancy} {deeds : List Deed}

theorem honest (hs₀ : s₀.constant? Store.failureKey = none) (h : Reached s₀ w deeds) : w.Honest deeds := by
  induction h with
  | first => simp [Honest, Store.strategy, hs₀, Deed.sinceReset]
  | start setup _ hr ih =>
    refine ⟨Ingestor.sound_start hr, fun htolerant => ?_, ih⟩
    exact (Inserter.strategy_ofStrategy _).symm.trans htolerant
  | process _ hreturns ih =>
    obtain ⟨hsound, hwarned, hflag⟩ := ih
    obtain ⟨hsound', hstrategy, hmarks⟩ := Call.marks_steps hsound hwarned hreturns
    refine ⟨hsound', fun htolerant => hmarks.2 (.inl (hwarned (hstrategy ▸ htolerant))), ?_⟩
    rw [hmarks, hflag]
    simp [Deed.sinceReset, or_comm]
  | cut _ hcut ih =>
    obtain ⟨hsound, hwarned, hflag⟩ := ih
    obtain ⟨-, -, hstore⟩ := Call.marks_steps hsound hwarned hcut
    refine Iff.trans ?_ hflag
    rw [hstore]
  | drop _ ih => exact ih.2.2
  | refuse outage tables _ ih => exact ⟨Ingestor.sound_refusing ih.1 outage tables, ih.2⟩
  | refuseVacant outage tables _ ih => exact ih
  | reset _ ih => simp [Honest, Store.strategy_clearFailure, Deed.sinceReset]

/-- **Degradation**: over a store that begins without a failure written down, whatever it refuses and however its
ingestors end, a start gets the tolerant strategy if and only if one of the calls since the last reset has come
back with an error of the store. -/
theorem start_tolerant_iff (hs₀ : s₀.constant? Store.failureKey = none) (h : Reached s₀ w deeds)
    (later : List Deed) {earlier : List Deed} {strategy : Strategy}
    (hdeeds : deeds = later ++ .started strategy :: earlier) :
    strategy = .tolerant ↔ ∃ result ∈ Deed.sinceReset earlier, FailedByStore result := by
  induction h generalizing later with
  | first => simp at hdeeds
  | start setup hbefore _ ih =>
    cases later with
    | nil =>
      cases hdeeds
      exact hbefore.honest hs₀
    | cons d later => exact ih later (List.cons.inj hdeeds).2
  | process _ _ ih =>
    cases later with
    | nil => cases hdeeds
    | cons d later => exact ih later (List.cons.inj hdeeds).2
  | cut _ _ ih => exact ih later hdeeds
  | drop _ ih => exact ih later hdeeds
  | refuse _ _ _ ih => exact ih later hdeeds
  | refuseVacant _ _ _ ih => exact ih later hdeeds
  | reset _ ih =>
    cases later with
    | nil => cases hdeeds
    | cons d later => exact ih later (List.cons.inj hdeeds).2

/-- A block is stored, the next one is lost in an outage, and the start after that is tolerant. -/
theorem start_tolerant_iff_outage :
    let setup := Setup.seeded .batch 5
    let lost := (Ingestor.interrupted 5).process (.bare 6) true
    let first := ((setup.ingestor .empty (.fresh 5)).process (.bare 5) true).1
    Store.empty.constant? Store.failureKey = none ∧
      ∃ r, Reached .empty (.held ({ setup with strategy := lost.2.store.strategy }.ingestor lost.2.store r))
          [.started .tolerant, .returned lost.1, .returned first, .started .batch] ∧
        (Strategy.tolerant = .tolerant ↔ ∃ result ∈ [lost.1, first], FailedByStore result) ∧
        (Strategy.batch = .tolerant ↔ ∃ result ∈ [], FailedByStore result) := by
  intro setup lost first
  have hs₀ : Store.empty.constant? Store.failureKey = none := rfl
  have hmarked : lost.2.store.strategy = .tolerant := by decide +kernel
  have hfound : (Recovered.ofStore lost.2.store setup.startHeight).toOption.isSome = true := by decide +kernel
  have hstarted : Reached .empty (.held (setup.ingestor .empty (.fresh 5))) [.started .batch] := .start setup .first rfl
  have hprocess := Ingestor.returns_process (setup.ingestor .empty (.fresh 5)) (.bare 5) true
  have hlost := Ingestor.returns_process (Ingestor.interrupted 5) (.bare 6) true
  have hbefore : Reached .empty (.vacant lost.2.store) [.returned lost.1, .returned first, .started .batch] :=
    .drop (.process (.refuse true [] (.process hstarted hprocess)) hlost)
  cases hr : Recovered.ofStore lost.2.store setup.startHeight with
  | error e =>
    rw [hr] at hfound
    cases hfound
  | ok r =>
    have hagain : Reached .empty (.held ({ setup with strategy := lost.2.store.strategy }.ingestor lost.2.store r))
        [.started .tolerant, .returned lost.1, .returned first, .started .batch] :=
      hmarked ▸ .start setup hbefore hr
    exact ⟨hs₀, r, hagain, start_tolerant_iff hs₀ hagain [] rfl,
      start_tolerant_iff hs₀ hagain [.started .tolerant, .returned lost.1, .returned first] rfl⟩

end Tenancy.Reached

end PoolIndexer
