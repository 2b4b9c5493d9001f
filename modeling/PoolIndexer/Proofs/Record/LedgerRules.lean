import Mathlib.Algebra.Ring.Int.Defs
import PoolIndexer.Proofs.Basic
import PoolIndexer.Proofs.Record.Balances

/-!
# Proofs.Record.LedgerRules — what an event prescribes for each ledger of each pool

* `LedgerRule`: signed amounts to be added up in one ledger of one pool, or the amount it is set to.
* `Event.rule`: the rule of an event for every ledger and pool, from the classes of its assets.
* `Delta`: one amount for one ledger.  The changes of an event are such deltas, or one reset.
* `Event.obeys_rule`: every ledger of every pool moves by its rule and in no other way.
-/

namespace PoolIndexer

/-! ### Rules -/

/-- The integer has a word of 64 bits. -/
def IsWord (n : Int) : Prop := -2 ^ 63 ≤ n ∧ n < 2 ^ 63

/-- What an event prescribes for one ledger of one pool. -/
inductive LedgerRule where
  | adds (amounts : List Int)
  | sets (amount : Int64)

namespace LedgerRule

/-- Amounts for the ledgers of one pool, nothing for any other pool. -/
def onPool (pool : String) (asset rune synth : List Int) (ledger : LedgerName) (p : String) : LedgerRule :=
  if p = pool then
    match ledger with
    | .asset => .adds asset
    | .rune => .adds rune
    | .synth => .adds synth
  else .adds []

/-- The depths of one pool, nothing for any other pool. -/
def resets (pool : String) (d : Depths) (ledger : LedgerName) (p : String) : LedgerRule :=
  if p = pool then
    match ledger with
    | .asset => .sets d.assetE8
    | .rune => .sets d.runeE8
    | .synth => .sets d.synthE8
  else .adds []

/-- Every amount has a word, and so has every sum on the way. -/
def FitsFrom (sum : Int) : List Int → Prop
  | [] => True
  | amount :: rest => IsWord amount ∧ IsWord (sum + amount) ∧ FitsFrom (sum + amount) rest

/-- The rule never leaves 64 bits: an amount without a word is the negative of the smallest one. -/
def Fits (before : Int) : LedgerRule → Prop
  | .adds amounts => FitsFrom before amounts
  | .sets _ => True

instance (n : Int) : Decidable (IsWord n) := inferInstanceAs (Decidable (_ ∧ _))

instance decidableFitsFrom : (amounts : List Int) → (sum : Int) → Decidable (FitsFrom sum amounts)
  | [], _ => .isTrue trivial
  | _ :: rest, _ =>
    have := decidableFitsFrom rest
    inferInstanceAs (Decidable (_ ∧ _ ∧ _))

instance (before : Int) : (rule : LedgerRule) → Decidable (rule.Fits before)
  | .adds amounts => decidableFitsFrom amounts before
  | .sets _ => .isTrue trivial

/-- The entry that the rule makes of an entry; a missing one counts as zero and stays missing unless there
is something to add. -/
def Takes (before after : Option Int64) : LedgerRule → Prop
  | .adds [] => after = before
  | .adds amounts => ∃ w, after = some w ∧ w.toInt = (before.getD 0).toInt + amounts.sum
  | .sets amount => after = some amount

end LedgerRule

open LedgerRule

namespace AssetClass

/-- The ledger of its pool that an asset is kept in. -/
def ledger : AssetClass → LedgerName
  | .native => .rune
  | .layer1 => .asset
  | .synth => .synth

/-- The source of a swap comes in; a synth is burnt. -/
def sold (c : AssetClass) (amount : Int) : Int := if c = .synth then -amount else amount

/-- The target of a swap goes out; a synth is minted. -/
def bought (c : AssetClass) (amount : Int) : Int := if c = .synth then amount else -amount

end AssetClass

/-- Exactly one side of a swap must be native; each side moves the ledger of its class. -/
def Swap.rule (natives : NativeNames) (e : Swap) (ledger : LedgerName) (pool : String) : LedgerRule :=
  let source := natives.classify e.source.asset
  let target := natives.classify e.target.asset
  if pool = e.settlementPool natives ∧ (source = .native ↔ target ≠ .native) then
    .adds ((if ledger = source.ledger then [source.sold e.source.e8.toInt] else []) ++
      if ledger = target.ledger then [target.bought e.target.e8.toInt] else [])
  else .adds []

/-- Below the cutover the coin that asked for a withdrawal stays in the pool. -/
def Withdraw.keepsCoin (coinKeptBelow : Option Int64) (height : Int64) : Bool :=
  coinKeptBelow.any fun cutover => decide (height.toInt < cutover.toInt)

/-- Both sides and the protection; below the cutover also the coin that asked for the withdrawal. -/
def Withdraw.rule (natives : NativeNames) (coinKeptBelow : Option Int64) (height : Int64) (e : Withdraw) :
    LedgerName → String → LedgerRule :=
  let kept := keepsCoin coinKeptBelow height
  let native := natives.contains e.coin.asset
  onPool e.pool
    ([-e.emitAssetE8.toInt] ++
      if kept ∧ native = false ∧ e.coin.asset = e.pool then [e.coin.e8.toInt] else [])
    ([-e.emitRuneE8.toInt, e.protectionE8.toInt] ++ if kept ∧ native then [e.coin.e8.toInt] else [])
    []

/-- What an event prescribes for a ledger of a pool. -/
def Event.rule (natives : NativeNames) (coinKeptBelow : Option Int64) (height : Int64) (e : Event)
    (ledger : LedgerName) (pool : String) : LedgerRule :=
  match e with
  | .add e => onPool e.pool [e.assetE8.toInt] [e.runeE8.toInt] [] ledger pool
  | .addLiquidity e => onPool e.deposit.pool [e.deposit.assetE8.toInt] [e.deposit.runeE8.toInt] [] ledger pool
  | .swap e => e.rule natives ledger pool
  | .withdraw e => e.rule natives coinKeptBelow height ledger pool
  | .pool e => if e.isSuspended then resets e.asset ⟨0, 0, 0⟩ ledger pool else .adds []
  | .fee e =>
    if natives.contains e.coin.asset then .adds []
    else onPool (Asset.pool e.coin.asset) [e.coin.e8.toInt] [-e.poolDeduct.toInt] [] ledger pool
  | .gas e => onPool e.asset [-e.assetE8.toInt] [e.runeE8.toInt] [] ledger pool
  | .errata e => onPool e.asset [e.assetE8.toInt] [e.runeE8.toInt] [] ledger pool
  | .balanceChange e => onPool e.asset [e.assetE8.toInt] [e.runeE8.toInt] [] ledger pool
  | .rewards e =>
    match ledger with
    | .rune => .adds ((e.perPool.filter fun share => share.1 = pool).map fun share => share.2.toInt)
    | _ => .adds []
  | .slash e =>
    onPool e.pool
      ((e.amounts.filter fun amount => !natives.contains amount.asset).map fun amount => amount.e8.toInt)
      ((e.amounts.filter fun amount => natives.contains amount.asset).map fun amount => amount.e8.toInt)
      [] ledger pool
  | .depthOverride e => resets e.pool e.depths ledger pool
  | _ => .adds []

/-! ### Deltas -/

/-- A signed amount for one ledger of one pool. -/
structure Delta where
  ledger : LedgerName
  pool : String
  amount : Int

namespace Delta

/-- The change that adds the amount, if it has a word. -/
def planned (d : Delta) : PlannedChange :=
  (Checked.fit .negate d.amount).map fun w => .add d.ledger d.pool w

/-- What deltas add to one ledger of one pool, in order. -/
def amounts (ds : List Delta) (ledger : LedgerName) (pool : String) : List Int :=
  ds.filterMap fun d => if ledger = d.ledger ∧ pool = d.pool then some d.amount else none

theorem planned_inflow (ledger : LedgerName) (pool : String) (amount : Int64) :
    PlannedChange.inflow ledger pool amount = planned ⟨ledger, pool, amount.toInt⟩ := by
  have hfit : Checked.fit .negate amount.toInt = .ok amount := Checked.fit_eq_ok_iff.2 rfl
  unfold planned
  rw [hfit]
  rfl

theorem planned_outflow (ledger : LedgerName) (pool : String) (amount : Int64) :
    PlannedChange.outflow ledger pool amount = planned ⟨ledger, pool, -amount.toInt⟩ :=
  rfl

@[simp] theorem amounts_nil (ledger : LedgerName) (pool : String) : amounts [] ledger pool = [] := rfl

theorem amounts_cons (d : Delta) (ds : List Delta) (ledger : LedgerName) (pool : String) :
    amounts (d :: ds) ledger pool =
      (if ledger = d.ledger ∧ pool = d.pool then [d.amount] else []) ++ amounts ds ledger pool := by
  unfold amounts
  rw [List.filterMap_cons]
  split <;> rename_i h <;> split at h <;> simp_all

end Delta

namespace LedgerRule

theorem takes_adds_cons {amount : Int} {amounts : List Int} {before after : Option Int64} {w : Int64}
    (hw : w.toInt = (before.getD 0).toInt + amount) (h : (adds amounts).Takes (some w) after) :
    (adds (amount :: amounts)).Takes before after := by
  cases amounts with
  | nil =>
    have hafter : after = some w := h
    exact ⟨w, hafter, by simpa using hw⟩
  | cons next rest =>
    obtain ⟨w', hafter, hw'⟩ := h
    refine ⟨w', hafter, ?_⟩
    calc w'.toInt
        = (before.getD 0).toInt + amount + (next :: rest).sum := by rw [hw', Option.getD_some, hw]
      _ = (before.getD 0).toInt + (amount :: next :: rest).sum := by
        rw [Int.add_assoc, ← List.sum_cons]

end LedgerRule

namespace Totals

variable {t : Totals}

@[simp] theorem ledger_withLedger (t : Totals) (name : LedgerName) (l : Ledger) (name' : LedgerName) :
    (t.withLedger name l).ledger name' = if name' = name then l else t.ledger name' := by
  cases name <;> cases name' <;> rfl

@[simp] theorem overflows_withLedger (t : Totals) (name : LedgerName) (l : Ledger) :
    (t.withLedger name l).overflows = t.overflows := by
  cases name <;> rfl

/-- A delta whose sum has a word goes through, and moves its own entry and no other. -/
theorem apply_planned {d : Delta} (hamount : IsWord d.amount)
    (hword : IsWord (((t.ledger d.ledger).get d.pool).toInt + d.amount)) :
    ∃ (c : Change) (sum : Int64), d.planned = .ok c ∧ t.refusal? c = none ∧
      sum.toInt = ((t.ledger d.ledger).get d.pool).toInt + d.amount ∧ (t.apply c).overflows = t.overflows ∧
      ∀ ledger pool, ((t.apply c).ledger ledger).get? pool =
        if ledger = d.ledger ∧ pool = d.pool then some sum else (t.ledger ledger).get? pool := by
  obtain ⟨delta, hdelta, hexact⟩ := Checked.exists_fit .negate hamount.1 hamount.2
  obtain ⟨sum, -, hsum⟩ := Checked.exists_fit .add hword.1 hword.2
  have hplanned : d.planned = .ok (.add d.ledger d.pool delta) := by
    unfold Delta.planned
    rw [hdelta]
    rfl
  have hadd : (t.ledger d.ledger).add? d.pool delta = some ((t.ledger d.ledger).insert d.pool sum) := by
    rw [Ledger.add?_eq, hexact, Checked.fit?_eq_some_iff.2 hsum]
    rfl
  have happly : t.apply (.add d.ledger d.pool delta) =
      t.withLedger d.ledger ((t.ledger d.ledger).insert d.pool sum) := by
    show t.add d.ledger d.pool delta = _
    unfold add
    rw [hadd]
  refine ⟨.add d.ledger d.pool delta, sum, hplanned, ?_, hsum, ?_, fun ledger pool => ?_⟩
  · unfold refusal?
    dsimp only
    rw [hadd]
    rfl
  · rw [happly, overflows_withLedger]
  · rw [happly, ledger_withLedger]
    by_cases hledger : ledger = d.ledger
    · rw [if_pos hledger, Ledger.get?_insert, hledger]
      simp only [true_and]
    · simp only [hledger, if_false, false_and]

/-- A change that goes through leaves no report. -/
theorem applyAll_cons_of_not_refused {c : Change} {rest : List PlannedChange} (h : t.refusal? c = none) :
    t.applyAll (.ok c :: rest) = (t.apply c).applyAll rest := by
  show { (t.apply c).applyAll rest with
    log := (t.refusal? c).toList ++ ((t.apply c).applyAll rest).log } = _
  rw [h]
  rfl

/-- The changes go through, and each entry becomes what its rule makes of it. -/
structure Obeys (rule : LedgerName → String → LedgerRule) (t : Totals) (after : Changed) : Prop where
  fault : after.fault = none
  log : after.log = []
  overflows : after.totals.overflows = t.overflows
  entries : ∀ ledger pool,
    (rule ledger pool).Takes ((t.ledger ledger).get? pool) ((after.totals.ledger ledger).get? pool)

theorem obeys_nothing (t : Totals) : Obeys (fun _ _ => .adds []) t (t.applyAll []) :=
  ⟨rfl, rfl, rfl, fun _ _ => rfl⟩

/-- Deltas that fit are added up, each in its ledger and pool. -/
theorem obeys_deltas (ds : List Delta) : ∀ t : Totals,
    (∀ ledger pool, FitsFrom ((t.ledger ledger).get pool).toInt (Delta.amounts ds ledger pool)) →
      Obeys (fun ledger pool => .adds (Delta.amounts ds ledger pool)) t (t.applyAll (ds.map Delta.planned)) := by
  induction ds with
  | nil => exact fun t _ => obeys_nothing t
  | cons d ds ih =>
    intro t hfits
    have hhead := hfits d.ledger d.pool
    rw [Delta.amounts_cons, if_pos ⟨rfl, rfl⟩] at hhead
    obtain ⟨hamount, hword, hrest⟩ := hhead
    obtain ⟨c, sum, hplanned, hrefusal, hsum, hoverflows, hget?⟩ := apply_planned hamount hword
    have hfits' : ∀ ledger pool,
        FitsFrom (((t.apply c).ledger ledger).get pool).toInt (Delta.amounts ds ledger pool) := by
      intro ledger pool
      have hall := hfits ledger pool
      rw [Delta.amounts_cons] at hall
      unfold Ledger.get at hall hrest hsum ⊢
      rw [hget?]
      by_cases hhere : ledger = d.ledger ∧ pool = d.pool
      · rw [if_pos hhere, Option.getD_some, hsum, hhere.1, hhere.2]
        exact hrest
      · rw [if_neg hhere] at hall ⊢
        exact hall
    have hobeys := ih (t.apply c) hfits'
    rw [List.map_cons, hplanned, applyAll_cons_of_not_refused hrefusal]
    refine ⟨hobeys.fault, hobeys.log, hobeys.overflows.trans hoverflows, fun ledger pool => ?_⟩
    have hentry := hobeys.entries ledger pool
    rw [hget?] at hentry
    rw [Delta.amounts_cons]
    by_cases hhere : ledger = d.ledger ∧ pool = d.pool
    · rw [if_pos hhere] at hentry ⊢
      refine takes_adds_cons ?_ hentry
      rw [hhere.1, hhere.2]
      exact hsum
    · rw [if_neg hhere] at hentry ⊢
      exact hentry

theorem obeys_reset (t : Totals) (pool : String) (d : Depths) :
    Obeys (resets pool d) t (t.applyAll [PlannedChange.reset pool d]) := by
  refine ⟨rfl, rfl, rfl, fun ledger p => ?_⟩
  have hget? : ∀ (l : Ledger) (amount : Int64), (l.insert pool amount).get? p =
      if p = pool then some amount else l.get? p := fun l amount => l.get?_insert pool amount p
  unfold resets
  by_cases hp : p = pool
  · simp only [if_pos hp] at hget? ⊢
    cases ledger <;> exact hget? _ _
  · simp only [if_neg hp] at hget? ⊢
    cases ledger <;> exact hget? _ _

/-- Changes that are deltas obey the rule that adds the deltas up. -/
theorem obeys_of_deltas {rule : LedgerName → String → LedgerRule} {planned : List PlannedChange} (ds : List Delta)
    (hplanned : planned = ds.map Delta.planned)
    (hrule : ∀ ledger pool, rule ledger pool = .adds (Delta.amounts ds ledger pool))
    (hfits : ∀ ledger pool, (rule ledger pool).Fits ((t.ledger ledger).get pool).toInt) :
    Obeys rule t (t.applyAll planned) := by
  obtain rfl : rule = fun ledger pool => .adds (Delta.amounts ds ledger pool) :=
    funext fun ledger => funext fun pool => hrule ledger pool
  rw [hplanned]
  exact obeys_deltas ds t hfits

end Totals

/-! ### Events -/

namespace Delta

/-- Deltas of one pool follow the rule that lists them by ledger. -/
theorem onPool_eq {ds : List Delta} {pool : String} {asset rune synth : List Int}
    (hpool : ∀ d ∈ ds, d.pool = pool) (hasset : amounts ds .asset pool = asset)
    (hrune : amounts ds .rune pool = rune) (hsynth : amounts ds .synth pool = synth)
    (ledger : LedgerName) (p : String) :
    onPool pool asset rune synth ledger p = .adds (amounts ds ledger p) := by
  unfold onPool
  by_cases hp : p = pool
  · subst hp
    rw [if_pos rfl]
    cases ledger with
    | asset => exact congrArg LedgerRule.adds hasset.symm
    | rune => exact congrArg LedgerRule.adds hrune.symm
    | synth => exact congrArg LedgerRule.adds hsynth.symm
  · rw [if_neg hp]
    refine congrArg LedgerRule.adds (Eq.symm ?_)
    refine List.filterMap_eq_nil_iff.2 fun d hd => if_neg fun h => hp ?_
    rw [h.2, hpool d hd]

end Delta

section

open Totals

variable {t : Totals} {natives : NativeNames} {coinKeptBelow : Option Int64} {height : Int64}

/-- An asset amount and a rune amount of one pool. -/
theorem obeys_assetAndRune {pool : String} {planned : List PlannedChange} {asset rune : Int}
    (hplanned : planned = [Delta.planned ⟨.asset, pool, asset⟩, Delta.planned ⟨.rune, pool, rune⟩])
    (hfits : ∀ ledger p, (onPool pool [asset] [rune] [] ledger p).Fits ((t.ledger ledger).get p).toInt) :
    Obeys (onPool pool [asset] [rune] []) t (t.applyAll planned) := by
  refine obeys_of_deltas [⟨.asset, pool, asset⟩, ⟨.rune, pool, rune⟩] hplanned ?_ hfits
  refine Delta.onPool_eq ?_ ?_ ?_ ?_ <;> simp [Delta.amounts]

/-- The two sides of a swap that crosses its pool, each by the class of its asset. -/
theorem Swap.changes_of_crossing {e : Swap}
    (h : natives.classify e.source.asset = .native ↔ natives.classify e.target.asset ≠ .native) :
    let source := natives.classify e.source.asset
    let target := natives.classify e.target.asset
    let pool := e.settlementPool natives
    e.changes natives = [Delta.planned ⟨source.ledger, pool, source.sold e.source.e8.toInt⟩,
      Delta.planned ⟨target.ledger, pool, target.bought e.target.e8.toInt⟩] := by
  intro source target pool
  unfold Swap.changes SwapDirection.of?
  cases hsource : natives.classify e.source.asset <;> cases htarget : natives.classify e.target.asset <;>
    simp_all [source, target, pool, AssetClass.ledger, AssetClass.sold, AssetClass.bought,
      Delta.planned_inflow, Delta.planned_outflow]

theorem Swap.changes_of_not_crossing {e : Swap}
    (h : ¬ (natives.classify e.source.asset = .native ↔ natives.classify e.target.asset ≠ .native)) :
    e.changes natives = [] := by
  unfold Swap.changes SwapDirection.of?
  cases hsource : natives.classify e.source.asset <;> cases htarget : natives.classify e.target.asset <;>
    simp_all

theorem Swap.obeys (e : Swap)
    (hfits : ∀ ledger p, (e.rule natives ledger p).Fits ((t.ledger ledger).get p).toInt) :
    Obeys (e.rule natives) t (t.applyAll (e.changes natives)) := by
  by_cases hcross : natives.classify e.source.asset = .native ↔ natives.classify e.target.asset ≠ .native
  · refine obeys_of_deltas [_, _] (changes_of_crossing hcross) (fun ledger p => ?_) hfits
    unfold Swap.rule
    by_cases hp : p = e.settlementPool natives
    · simp [hp, hcross, Delta.amounts_cons]
    · simp [hp, Delta.amounts_cons]
  · have hrule : e.rule natives = fun _ _ => .adds [] :=
      funext fun ledger => funext fun p => if_neg fun h => hcross h.2
    rw [changes_of_not_crossing hcross, hrule]
    exact t.obeys_nothing

/-- The coin that asked for a withdrawal, where it is kept. -/
def Withdraw.keptCoin (natives : NativeNames) (coinKeptBelow : Option Int64) (height : Int64)
    (e : Withdraw) : List Delta :=
  if keepsCoin coinKeptBelow height then
    if natives.contains e.coin.asset then [⟨.rune, e.pool, e.coin.e8.toInt⟩]
    else if e.coin.asset = e.pool then [⟨.asset, e.pool, e.coin.e8.toInt⟩]
    else []
  else []

theorem Withdraw.changes_eq (e : Withdraw) :
    e.changes natives coinKeptBelow height = List.map Delta.planned
      ([⟨.asset, e.pool, -e.emitAssetE8.toInt⟩, ⟨.rune, e.pool, -e.emitRuneE8.toInt⟩,
        ⟨.rune, e.pool, e.protectionE8.toInt⟩] ++ e.keptCoin natives coinKeptBelow height) := by
  have hcoin : (if keepsCoin coinKeptBelow height then e.coinChanges natives else []) =
      (e.keptCoin natives coinKeptBelow height).map Delta.planned := by
    unfold keptCoin coinChanges
    split
    · split
      · simp only [Delta.planned_inflow, List.map_cons, List.map_nil]
      · split <;> simp only [Delta.planned_inflow, List.map_cons, List.map_nil]
    · rfl
  rw [List.map_append, ← hcoin]
  unfold changes
  simp only [List.map_cons, List.map_nil, Delta.planned_inflow, Delta.planned_outflow]
  cases coinKeptBelow <;> rfl

theorem Withdraw.pool_of_mem_keptCoin {e : Withdraw} {d : Delta}
    (h : d ∈ e.keptCoin natives coinKeptBelow height) : d.pool = e.pool := by
  unfold keptCoin at h
  split_ifs at h
  · rw [List.mem_singleton.1 h]
  · rw [List.mem_singleton.1 h]
  all_goals cases h

theorem Withdraw.amounts_keptCoin (e : Withdraw) :
    let amounts ledger := Delta.amounts (e.keptCoin natives coinKeptBelow height) ledger e.pool
    let kept := keepsCoin coinKeptBelow height
    let native := natives.contains e.coin.asset
    amounts .asset = (if kept ∧ native = false ∧ e.coin.asset = e.pool then [e.coin.e8.toInt] else []) ∧
      amounts .rune = (if kept ∧ native then [e.coin.e8.toInt] else []) ∧ amounts .synth = [] := by
  intro amounts kept native
  have hcoin : e.keptCoin natives coinKeptBelow height =
      if kept then if native then [⟨.rune, e.pool, e.coin.e8.toInt⟩]
        else if e.coin.asset = e.pool then [⟨.asset, e.pool, e.coin.e8.toInt⟩] else []
      else [] := rfl
  unfold amounts
  rw [hcoin]
  cases kept with
  | false => simp
  | true =>
    cases native with
    | true => simp [Delta.amounts_cons]
    | false => by_cases hpool : e.coin.asset = e.pool <;> simp [hpool, Delta.amounts_cons]

theorem Withdraw.obeys (e : Withdraw)
    (hfits : ∀ ledger p, (e.rule natives coinKeptBelow height ledger p).Fits ((t.ledger ledger).get p).toInt) :
    Obeys (e.rule natives coinKeptBelow height) t (t.applyAll (e.changes natives coinKeptBelow height)) := by
  obtain ⟨hasset, hrune, hsynth⟩ := @amounts_keptCoin natives coinKeptBelow height e
  refine obeys_of_deltas _ e.changes_eq (Delta.onPool_eq ?_ ?_ ?_ ?_) hfits
  · simp only [List.cons_append, List.nil_append, List.forall_mem_cons, true_and]
    exact fun d hd => pool_of_mem_keptCoin hd
  · simp [Delta.amounts_cons, hasset]
  · simp [Delta.amounts_cons, hrune]
  · simp [Delta.amounts_cons, hsynth]

theorem Fee.obeys (e : Fee)
    (hfits : ∀ ledger p, (Event.rule natives coinKeptBelow height (.fee e) ledger p).Fits
      ((t.ledger ledger).get p).toInt) :
    Obeys (Event.rule natives coinKeptBelow height (.fee e)) t
      (t.applyAll (Event.changes natives coinKeptBelow height (.fee e))) := by
  unfold Event.rule Event.changes at *
  dsimp only at *
  by_cases hnative : natives.contains e.coin.asset = true
  · simp only [if_pos hnative]
    exact t.obeys_nothing
  · simp only [if_neg hnative] at hfits ⊢
    exact obeys_assetAndRune (by simp only [Delta.planned_inflow, Delta.planned_outflow]) hfits

theorem PoolStatus.obeys (e : PoolStatus) :
    Obeys (Event.rule natives coinKeptBelow height (.pool e)) t
      (t.applyAll (Event.changes natives coinKeptBelow height (.pool e))) := by
  unfold Event.rule Event.changes
  dsimp only
  cases e.isSuspended with
  | true => exact t.obeys_reset e.asset .zero
  | false => exact t.obeys_nothing

theorem Rewards.obeys (e : Rewards)
    (hfits : ∀ ledger p, (Event.rule natives coinKeptBelow height (.rewards e) ledger p).Fits
      ((t.ledger ledger).get p).toInt) :
    Obeys (Event.rule natives coinKeptBelow height (.rewards e)) t
      (t.applyAll (e.perPool.map fun share => PlannedChange.inflow .rune share.1 share.2)) := by
  refine obeys_of_deltas (e.perPool.map fun share => ⟨.rune, share.1, share.2.toInt⟩) ?_ (fun ledger p => ?_) hfits
  · rw [List.map_map]
    exact List.map_congr_left fun share _ => Delta.planned_inflow .rune share.1 share.2
  · have hamounts : ∀ shares : List (String × Int64),
        Delta.amounts (shares.map fun share => ⟨.rune, share.1, share.2.toInt⟩) ledger p =
          if ledger = .rune then (shares.filter fun share => share.1 = p).map fun share => share.2.toInt else [] := by
      intro shares
      induction shares with
      | nil => simp
      | cons share rest ih =>
        rw [List.map_cons, Delta.amounts_cons, ih, List.filter_cons]
        grind
    rw [hamounts]
    cases ledger <;> rfl

theorem Slash.obeys (e : Slash)
    (hfits : ∀ ledger p, (Event.rule natives coinKeptBelow height (.slash e) ledger p).Fits
      ((t.ledger ledger).get p).toInt) :
    Obeys (Event.rule natives coinKeptBelow height (.slash e)) t
      (t.applyAll (Event.changes natives coinKeptBelow height (.slash e))) := by
  refine obeys_of_deltas
    (e.amounts.map fun amount => ⟨if natives.contains amount.asset then .rune else .asset, e.pool, amount.e8.toInt⟩)
    ?_ (Delta.onPool_eq ?_ ?_ ?_ ?_) hfits
  · unfold Event.changes
    rw [List.map_map]
    exact List.map_congr_left fun amount _ => Delta.planned_inflow _ e.pool amount.e8
  · simp
  · induction e.amounts with
    | nil => rfl
    | cons amount rest ih =>
      rw [List.map_cons, Delta.amounts_cons, ih, List.filter_cons]
      cases natives.contains amount.asset <;> simp
  · induction e.amounts with
    | nil => rfl
    | cons amount rest ih =>
      rw [List.map_cons, Delta.amounts_cons, ih, List.filter_cons]
      cases natives.contains amount.asset <;> simp
  · induction e.amounts with
    | nil => rfl
    | cons amount rest ih =>
      rw [List.map_cons, Delta.amounts_cons, ih]
      cases natives.contains amount.asset <;> simp

end

/-- **Depth rules**: as long as no sum leaves 64 bits, the changes of an event go through, and every ledger of
every pool takes what the rule of the event prescribes for it. -/
theorem Event.obeys_rule (natives : NativeNames) (coinKeptBelow : Option Int64) (height : Int64) (e : Event)
    (t : Totals)
    (hfits : ∀ ledger pool,
      (e.rule natives coinKeptBelow height ledger pool).Fits ((t.ledger ledger).get pool).toInt) :
    Totals.Obeys (e.rule natives coinKeptBelow height) t (t.applyAll (e.changes natives coinKeptBelow height)) := by
  cases e with
  | add e => exact obeys_assetAndRune (by simp only [changes, Delta.planned_inflow]) hfits
  | addLiquidity e => exact obeys_assetAndRune (by simp only [changes, Delta.planned_inflow]) hfits
  | gas e =>
    exact obeys_assetAndRune (by simp only [changes, Delta.planned_inflow, Delta.planned_outflow]) hfits
  | errata e => exact obeys_assetAndRune (by simp only [changes, Delta.planned_inflow]) hfits
  | balanceChange e => exact obeys_assetAndRune (by simp only [changes, Delta.planned_inflow]) hfits
  | swap e => exact e.obeys hfits
  | withdraw e => exact e.obeys hfits
  | fee e => exact e.obeys hfits
  | pool e => exact e.obeys
  | rewards e => exact e.obeys hfits
  | slash e => exact e.obeys hfits
  | depthOverride e => exact Totals.obeys_reset t e.pool e.depths
  | _ => exact t.obeys_nothing

/-- A withdrawal below the cutover of the pool of bitcoin, asked for with a coin of the pool's asset. -/
def Withdraw.beforeCutover : Withdraw :=
  ⟨⟨"T", "BTC", "a", "b", ""⟩, ⟨"BTC.BTC", 7⟩, 20, 30, "BTC.BTC", 1, 10000, "0", 4⟩

/-- The coin comes back to the asset ledger and the protection to the rune ledger. -/
theorem Event.obeys_rule_keptCoin :
    let t := (Totals.empty.add .asset "BTC.BTC" 100).add .rune "BTC.BTC" 200
    let after := t.applyAll ((Event.withdraw .beforeCutover).changes .default (some 50) 49)
    Totals.Obeys ((Event.withdraw .beforeCutover).rule .default (some 50) 49) t after ∧
      after.totals.get "BTC.BTC" = ⟨100 - 20 + 7, 200 - 30 + 4, 0⟩ := by
  intro t after
  refine ⟨obeys_rule .default (some 50) 49 (.withdraw .beforeCutover) t fun ledger pool => ?_, by decide +kernel⟩
  by_cases hpool : pool = "BTC.BTC"
  · subst hpool
    cases ledger <;> decide +kernel
  · have hrule : (Event.withdraw .beforeCutover).rule .default (some 50) 49 ledger pool = .adds [] := if_neg hpool
    rw [hrule]
    trivial

end PoolIndexer
