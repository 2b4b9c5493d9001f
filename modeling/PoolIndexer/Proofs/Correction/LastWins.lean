import Mathlib.Data.List.Induction
import PoolIndexer.Proofs.Correction.Config

/-!
# Proofs.Correction.LastWins — what a configuration makes of each event

* `CorrectionTable.ofConfig_eq`: the entries for the chain of a table, in the order of their configuration.
* `WithdrawOverride.Amends`: an override is meant for a withdrawal.  An override never changes what the
  others look at, so which ones are meant is known before any is applied.
* `CorrectionsConfig.lastSet`: what the last override that is meant and gives a value sets a field to.
* `CorrectionTable.lastWins`: a withdrawal has these values, and no other event is changed.
-/

namespace PoolIndexer

/-! ### Entries for a chain -/

/-- An entry for that chain, or for every chain. -/
def InScope (chainId : String) (scope : Option String) : Prop := scope = none ∨ scope = some chainId

instance (chainId : String) (scope : Option String) : Decidable (InScope chainId scope) :=
  inferInstanceAs (Decidable (_ ∨ _))

/-- The configurations differ in entries for other chains at most. -/
structure CorrectionsConfig.AgreesOn (chainId : String) (c c' : CorrectionsConfig) : Prop where
  pendingCutoff : c.pendingCutoff = c'.pendingCutoff
  overrides : (c.overrides.filter fun o => InScope chainId o.chainId) =
    c'.overrides.filter fun o => InScope chainId o.chainId
  injected : (c.injected.filter fun i => InScope chainId i.chainId) =
    c'.injected.filter fun i => InScope chainId i.chainId
  genesisPools : c.genesisPools = c'.genesisPools

namespace CorrectionTable

theorem inScope_eq (t : CorrectionTable) (scope : Option String) :
    t.inScope scope = decide (InScope t.chainId scope) := by
  unfold inScope InScope
  cases scope <;> simp

theorem foldl_addOverride (overrides : List WithdrawOverride) (t : CorrectionTable) :
    overrides.foldl addOverride t =
      { t with mutations := t.mutations ++
          (overrides.filter fun o => InScope t.chainId o.chainId).map fun o => (o.height, o.mutation) } := by
  induction overrides generalizing t with
  | nil => simp
  | cons o rest ih =>
    rw [List.foldl_cons, ih]
    unfold addOverride mutate
    rw [inScope_eq]
    by_cases ho : InScope t.chainId o.chainId <;> simp [ho]

/-- Registering events one after another, each with its height and its chain. -/
theorem foldl_inject {α : Type} (height : α → Int64) (scope : α → Option String) (event : α → Event)
    (xs : List α) (t : CorrectionTable) :
    xs.foldl (fun t x => t.inject (height x) (scope x) (event x)) t =
      { t with injections := t.injections ++
          (xs.filter fun x => InScope t.chainId (scope x)).map fun x => (height x, event x) } := by
  induction xs generalizing t with
  | nil => simp
  | cons x rest ih =>
    rw [List.foldl_cons, ih]
    unfold inject
    rw [inScope_eq]
    by_cases hx : InScope t.chainId (scope x) <;> simp [hx]

/-- **The table** of a configuration: its entries for the chain in their order, the pools of the first block
before the other injections. -/
theorem ofConfig_eq (c : CorrectionsConfig) (chainId : String) (natives : NativeNames)
    (genesisHeight : Option Int64) :
    ofConfig c chainId natives genesisHeight =
      { chainId, natives
        pendingCutoff := c.pendingCutoff
        mutations := (c.overrides.filter fun o => InScope chainId o.chainId).map fun o => (o.height, o.mutation)
        injections :=
          (genesisHeight.toList.flatMap fun height => c.genesisPools.map fun g => (height, g.event)) ++
            (c.injected.filter fun i => InScope chainId i.chainId).map fun i => (i.height, i.event) } := by
  have hgenesis : ∀ (height : Int64) (t : CorrectionTable), c.genesisPools.foldl (addGenesis height) t =
      { t with injections := t.injections ++ c.genesisPools.map fun g => (height, g.event) } := by
    intro height t
    have hall : (c.genesisPools.filter fun _ => InScope t.chainId none) = c.genesisPools :=
      List.filter_eq_self.2 fun _ _ => decide_eq_true (.inl rfl)
    have hfold := foldl_inject (fun _ => height) (fun _ => none) GenesisPool.event c.genesisPools t
    rw [hall] at hfold
    exact hfold
  have hinjected : ∀ t : CorrectionTable, c.injected.foldl addInjection t =
      { t with injections := t.injections ++
          (c.injected.filter fun i => InScope t.chainId i.chainId).map fun i => (i.height, i.event) } :=
    foldl_inject Injection.height Injection.chainId Injection.event c.injected
  unfold ofConfig ofChain
  cases genesisHeight with
  | none => simp [foldl_addOverride, hinjected]
  | some height => simp [foldl_addOverride, hinjected, hgenesis]

end CorrectionTable

/-! ### Overrides of one withdrawal -/

namespace WithdrawOverride

theorem concerns_iff {o : WithdrawOverride} {w : Withdraw} :
    o.concerns w = true ↔ o.pool = w.pool ∧ (o.sender = none ∨ o.sender = some w.inbound.sender) := by
  unfold concerns
  rw [Bool.and_eq_true, decide_eq_true_iff, eq_comm]
  refine and_congr_right fun _ => ?_
  cases o.sender with
  | none => simp
  | some address => simp

/-- The withdrawal after the override, if the override is meant for it. -/
def amendIf (o : WithdrawOverride) (w : Withdraw) : Withdraw := if o.concerns w then o.amend w else w

/-- An override leaves alone what decides which overrides are meant. -/
theorem concerns_amendIf (o o' : WithdrawOverride) (w : Withdraw) : o'.concerns (o.amendIf w) = o'.concerns w := by
  unfold amendIf
  split <;> rfl

theorem concerns_foldl_amendIf (os : List WithdrawOverride) (o : WithdrawOverride) (w : Withdraw) :
    o.concerns (os.foldl (fun w o => o.amendIf w) w) = o.concerns w := by
  induction os generalizing w with
  | nil => rfl
  | cons o' rest ih => rw [List.foldl_cons, ih, concerns_amendIf]

/-- What the last of the overrides that are meant for `w` and give the field gives it. -/
def lastGiven (os : List WithdrawOverride) (w : Withdraw) (field : WithdrawOverride → Option Int64) :
    Option Int64 := ((os.filter fun o => o.concerns w).filterMap field).getLast?

theorem lastGiven_concat (os : List WithdrawOverride) (o : WithdrawOverride) (w : Withdraw)
    (field : WithdrawOverride → Option Int64) :
    lastGiven (os ++ [o]) w field = (if o.concerns w then field o else none).or (lastGiven os w field) := by
  unfold lastGiven
  rw [List.filter_append, List.filterMap_append]
  cases ho : o.concerns w with
  | false => simp [ho]
  | true => cases hfield : field o <;> simp [ho, hfield]

/-- **Last wins**: overrides applied one after another give each field its last value. -/
theorem foldl_amendIf (os : List WithdrawOverride) (w : Withdraw) :
    os.foldl (fun w o => o.amendIf w) w =
      { w with
        emitAssetE8 := (lastGiven os w (·.emitAssetE8)).getD w.emitAssetE8
        emitRuneE8 := (lastGiven os w (·.emitRuneE8)).getD w.emitRuneE8
        units := (lastGiven os w (·.units)).getD w.units } := by
  induction os using List.reverseRecOn with
  | nil => rfl
  | append_singleton os o ih =>
    have hconcerns := concerns_foldl_amendIf os o w
    rw [List.foldl_append, List.foldl_cons, List.foldl_nil, amendIf, hconcerns, ih]
    simp only [lastGiven_concat]
    cases o.concerns w with
    | false => rfl
    | true => simp only [if_true, amend, Option.getD_or]

/-- The override is meant for withdrawals like `w` at that height of the chain. -/
def Amends (o : WithdrawOverride) (chainId : String) (height : Int64) (w : Withdraw) : Prop :=
  o.height = height ∧ InScope chainId o.chainId ∧ o.pool = w.pool ∧
    (o.sender = none ∨ o.sender = some w.inbound.sender)

instance (o : WithdrawOverride) (chainId : String) (height : Int64) (w : Withdraw) :
    Decidable (o.Amends chainId height w) := inferInstanceAs (Decidable (_ ∧ _ ∧ _ ∧ (_ ∨ _)))

end WithdrawOverride

/-! ### All events -/

namespace Event

theorem amended_withdraw (os : List WithdrawOverride) (w : Withdraw) :
    (Event.withdraw w).amended os = .withdraw (os.foldl (fun w o => o.amendIf w) w) := by
  induction os generalizing w with
  | nil => rfl
  | cons o rest ih => exact ih (o.amendIf w)

theorem amended_of_ne {e : Event} (h : ∀ w, e ≠ .withdraw w) (os : List WithdrawOverride) : e.amended os = e := by
  have hpatch : ∀ o : WithdrawOverride, o.patch e = e := by
    intro o
    cases e with
    | withdraw w => exact absurd rfl (h w)
    | _ => rfl
  induction os with
  | nil => rfl
  | cons o rest ih =>
    show (o.patch e).amended rest = e
    rw [hpatch, ih]

end Event

namespace CorrectionsConfig

/-- What the last override that is meant for `w` and gives the field sets it to. -/
def lastSet (c : CorrectionsConfig) (chainId : String) (height : Int64) (w : Withdraw)
    (field : WithdrawOverride → Option Int64) : Option Int64 :=
  ((c.overrides.filter fun o => o.Amends chainId height w).filterMap field).getLast?

/-- The withdrawal is only announced: it has no units, and its height is below the cutoff. -/
def Announced (c : CorrectionsConfig) (height : Int64) (w : Withdraw) : Prop :=
  w.units = 0 ∧ ∃ cutoff, c.pendingCutoff = some cutoff ∧ height.toInt < cutoff.toInt

end CorrectionsConfig

namespace CorrectionTable

theorem run_map_mutation (os : List WithdrawOverride) (e : Event) :
    run (os.map WithdrawOverride.mutation) e = .ok (e.amended os, .keep) := by
  induction os generalizing e with
  | nil => rfl
  | cons o rest ih => exact ih (o.patch e)

section

variable (c : CorrectionsConfig) (chainId : String) (natives : NativeNames) (genesisHeight : Option Int64)
  (height : Int64)

/-- The overrides of a height that are registered for the chain. -/
def overridesAt : List WithdrawOverride :=
  (c.overrides.filter fun o => InScope chainId o.chainId).filter fun o => o.height = height

theorem mutationsAt_ofConfig :
    (ofConfig c chainId natives genesisHeight).mutationsAt height =
      (overridesAt c chainId height).map WithdrawOverride.mutation := by
  rw [ofConfig_eq, mutationsAt, List.filter_map, List.map_map]
  rfl

theorem lastGiven_overridesAt (w : Withdraw) (field : WithdrawOverride → Option Int64) :
    WithdrawOverride.lastGiven (overridesAt c chainId height) w field = c.lastSet chainId height w field := by
  unfold WithdrawOverride.lastGiven overridesAt CorrectionsConfig.lastSet
  rw [List.filter_filter, List.filter_filter]
  congr 2
  refine List.filter_congr fun o _ => ?_
  rw [Bool.eq_iff_iff]
  simp only [Bool.and_eq_true, WithdrawOverride.concerns_iff, decide_eq_true_eq]
  unfold WithdrawOverride.Amends
  tauto

theorem apply_ofConfig (e : Event) :
    (ofConfig c chainId natives genesisHeight).apply height e =
      match (ofConfig c chainId natives genesisHeight).standing height e with
      | .discard reason => .ok (e, .discard reason)
      | .keep => .ok (e.amended (overridesAt c chainId height), .keep) := by
  unfold apply
  cases (ofConfig c chainId natives genesisHeight).standing height e with
  | discard reason => rfl
  | keep =>
    dsimp only
    rw [mutationsAt_ofConfig, run_map_mutation]

theorem pendingCutoff_ofConfig :
    (ofConfig c chainId natives genesisHeight).pendingCutoff = c.pendingCutoff := by
  rw [ofConfig_eq]

/-- The rule for withdrawals that holds at every height. -/
theorem standing_withdraw (w : Withdraw) :
    (c.Announced height w ∧ (ofConfig c chainId natives genesisHeight).standing height (.withdraw w) =
      .discard "pending withdraw with zero units") ∨
    (¬ c.Announced height w ∧
      (ofConfig c chainId natives genesisHeight).standing height (.withdraw w) = .keep) := by
  have hunits : w.units.toInt = 0 ↔ w.units = 0 := by
    rw [← Int64.toInt_inj, Int64.toInt_zero]
  unfold standing CorrectionsConfig.Announced
  dsimp only
  rw [pendingCutoff_ofConfig]
  cases c.pendingCutoff with
  | none => exact .inr ⟨by rintro ⟨-, cutoff, ⟨⟩, -⟩, rfl⟩
  | some cutoff =>
    dsimp only
    split
    · rename_i h
      exact .inl ⟨⟨hunits.1 h.1, cutoff, rfl, h.2⟩, rfl⟩
    · rename_i h
      refine .inr ⟨?_, rfl⟩
      rintro ⟨hzero, _, ⟨⟩, hlt⟩
      exact h ⟨hunits.2 hzero, hlt⟩

theorem injected_ofConfig :
    (ofConfig c chainId natives genesisHeight).injected height =
      (if genesisHeight = some height then c.genesisPools.map GenesisPool.event else []) ++
        (c.injected.filter fun i => i.height = height ∧ InScope chainId i.chainId).map Injection.event := by
  rw [ofConfig_eq, injected]
  dsimp only
  rw [List.filter_append, List.map_append]
  congr 1
  · cases genesisHeight with
    | none => rfl
    | some first =>
      rw [Option.toList_some, List.flatMap_singleton, List.filter_map, List.map_map]
      show (c.genesisPools.filter fun _ => decide (first = height)).map GenesisPool.event = _
      by_cases hfirst : first = height
      · rw [if_pos (congrArg some hfirst), List.filter_eq_self.2 fun _ _ => decide_eq_true hfirst]
      · rw [if_neg fun h => hfirst (Option.some.inj h),
          List.filter_eq_nil_iff.2 fun _ _ h => hfirst (of_decide_eq_true h)]
        rfl
  · rw [List.filter_map, List.map_map, List.filter_filter]
    simp [Function.comp_def]

end

/-- **Corrections**: a configured table keeps a withdrawal that is not just announced and gives each field the
value of the last override at its height that is meant for it and has the field; it changes no other event.
It injects the pools of the first block, and then the injections of the height.  Entries for other chains make
no difference. -/
theorem lastWins (c : CorrectionsConfig) (chainId : String) (natives : NativeNames) (genesisHeight : Option Int64)
    (height : Int64) :
    let t := ofConfig c chainId natives genesisHeight
    (∀ w, ¬ c.Announced height w → t.apply height (.withdraw w) =
      .ok (.withdraw { w with
        emitAssetE8 := (c.lastSet chainId height w (·.emitAssetE8)).getD w.emitAssetE8
        emitRuneE8 := (c.lastSet chainId height w (·.emitRuneE8)).getD w.emitRuneE8
        units := (c.lastSet chainId height w (·.units)).getD w.units }, .keep)) ∧
      (∀ w, c.Announced height w → t.apply height (.withdraw w) =
        .ok (.withdraw w, .discard "pending withdraw with zero units")) ∧
      (∀ e, (∀ w, e ≠ .withdraw w) → t.apply height e = .ok (e, t.standing height e)) ∧
      t.injected height =
        (if genesisHeight = some height then c.genesisPools.map GenesisPool.event else []) ++
          (c.injected.filter fun i => i.height = height ∧ InScope chainId i.chainId).map Injection.event ∧
      ∀ c', c.AgreesOn chainId c' →
        let t' := ofConfig c' chainId natives genesisHeight
        (∀ h e, t'.apply h e = t.apply h e) ∧ (∀ h, t'.injected h = t.injected h) ∧
          ∀ h, t'.hasCorrections h = t.hasCorrections h := by
  intro t
  refine ⟨fun w hw => ?_, fun w hw => ?_, fun e he => ?_, injected_ofConfig c chainId natives genesisHeight height,
    fun c' hagrees => ?_⟩
  · rcases standing_withdraw c chainId natives genesisHeight height w with ⟨hannounced, -⟩ | ⟨-, hkeep⟩
    · exact absurd hannounced hw
    · rw [apply_ofConfig, hkeep]
      dsimp only
      rw [Event.amended_withdraw, WithdrawOverride.foldl_amendIf]
      simp only [lastGiven_overridesAt]
  · rcases standing_withdraw c chainId natives genesisHeight height w with ⟨-, hdiscard⟩ | ⟨hnot, -⟩
    · rw [apply_ofConfig, hdiscard]
    · exact absurd hw hnot
  · rw [apply_ofConfig, Event.amended_of_ne he]
    cases t.standing height e <;> rfl
  · have htable : ofConfig c' chainId natives genesisHeight = t := by
      obtain ⟨hcutoff, hoverrides, hinjected, hpools⟩ := hagrees
      show _ = ofConfig c chainId natives genesisHeight
      rw [ofConfig_eq, ofConfig_eq, hcutoff, hoverrides, hinjected, hpools]
    rw [htable]
    exact ⟨fun _ _ => rfl, fun _ => rfl, fun _ => rfl⟩

/-- At height 9 of the chain `a` four overrides for one pool: for all chains, for another chain, for one
address, and for another address. -/
def fourOverrides : CorrectionsConfig where
  coinKeptHeight := none
  pendingCutoff := some 100
  overrides :=
    [⟨9, none, "BTC.BTC", none, some 1, some 5, none⟩, ⟨9, some "b", "BTC.BTC", none, some 99, none, some 99⟩,
      ⟨9, some "a", "BTC.BTC", some "bc1", some 2, none, none⟩,
      ⟨9, some "a", "BTC.BTC", some "bc2", some 3, none, none⟩]
  injected := [⟨9, some "b", .errata, "BTC.BTC", .zero, ""⟩, ⟨9, some "a", .add, "ETH.ETH", ⟨7, 8, 0⟩, "gift"⟩]
  genesisPools := [⟨"BTC.BTC", 1, 2⟩]

/-- The last value of each field counts, and a field that no override has stays.  Without the entries for the
other chain all is the same. -/
theorem lastWins_fourOverrides :
    let w : Withdraw := ⟨⟨"W", "BTC", "bc1", "", ""⟩, ⟨"THOR.RUNE", 1⟩, 10, 20, "BTC.BTC", 3, 10000, "0", 0⟩
    let t := ofConfig fourOverrides "a" .default (some 9)
    let c' := { fourOverrides with
      overrides := fourOverrides.overrides.filter fun o => o.chainId ≠ some "b"
      injected := fourOverrides.injected.filter fun i => i.chainId ≠ some "b" }
    ¬ fourOverrides.Announced 9 w ∧
      t.apply 9 (.withdraw w) = .ok (.withdraw { w with emitAssetE8 := 2, emitRuneE8 := 5 }, .keep) ∧
      t.injected 9 = [.add (.synthetic "BTC.BTC" 1 2 "genesis"), .add (.synthetic "ETH.ETH" 7 8 "gift")] ∧
      fourOverrides.AgreesOn "a" c' ∧ (ofConfig c' "a" .default (some 9)).injected 9 = t.injected 9 := by
  intro w t c'
  obtain ⟨hkept, -, -, hinjected, hsame⟩ := lastWins fourOverrides "a" .default (some 9) 9
  have hnot : ¬ fourOverrides.Announced 9 w := by
    rintro ⟨hzero, -⟩
    exact absurd hzero (by decide)
  have hasset : fourOverrides.lastSet "a" 9 w (·.emitAssetE8) = some 2 := by decide +kernel
  have hrune : fourOverrides.lastSet "a" 9 w (·.emitRuneE8) = some 5 := by decide +kernel
  have hunits : fourOverrides.lastSet "a" 9 w (·.units) = none := by decide +kernel
  have hagrees : fourOverrides.AgreesOn "a" c' := by constructor <;> decide +kernel
  refine ⟨hnot, ?_, hinjected.trans (by decide +kernel), hagrees, (hsame c' hagrees).2.1 9⟩
  rw [hkept w hnot, hasset, hrune, hunits]
  rfl

end CorrectionTable

end PoolIndexer
