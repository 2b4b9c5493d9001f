import PoolIndexer.Proofs.Correction.Config
import PoolIndexer.Proofs.Event.Load
import PoolIndexer.Proofs.Record.Replay
import PoolIndexer.Record.Recorder

/-!
# Proofs.Record.Exactness — totals move by exact amounts, and what does not fit is counted

* `Event.Recordable`: the events that reach the recorder, read from a chain and amended, or configured.
* `Event.Unnegatable`: the event takes the smallest amount out of a pool, whose negative has no word.
* `Recorder.record_exact`: recording fails to compute exactly for those; all other events post what their
  rows say, or nothing if the rows are refused.
-/

namespace PoolIndexer

/-! ### Changes that cannot be computed -/

namespace Totals

/-- The changes stop at one that cannot be computed, if there is one. -/
theorem fault_applyAll_cases (planned : List PlannedChange) :
    ∀ t : Totals, ((t.applyAll planned).fault = none ∧ ∀ o, Except.error o ∉ planned) ∨
      ∃ o, (t.applyAll planned).fault = some o ∧ Except.error o ∈ planned := by
  induction planned with
  | nil => exact fun _ => .inl ⟨rfl, fun _ => List.not_mem_nil⟩
  | cons p rest ih =>
    intro t
    cases p with
    | error o => exact .inr ⟨o, rfl, List.mem_cons_self⟩
    | ok c =>
      rcases ih (t.apply c) with ⟨hfault, hrest⟩ | ⟨o, hfault, hmem⟩
      · exact .inl ⟨hfault, fun o => List.not_mem_cons_of_ne_of_not_mem nofun (hrest o)⟩
      · exact .inr ⟨o, hfault, List.mem_cons_of_mem _ hmem⟩

end Totals

/-! ### Amounts without a negative -/

namespace PlannedChange

variable {name : LedgerName} {pool : String} {amount : Int64} {o : Overflow} {rest : List PlannedChange}

theorem error_mem_ok {c : Totals.Change} :
    Except.error o ∈ (.ok c : PlannedChange) :: rest ↔ Except.error o ∈ rest := by
  rw [List.mem_cons]
  exact ⟨fun h => h.resolve_left nofun, .inr⟩

theorem error_mem_inflow : Except.error o ∈ inflow name pool amount :: rest ↔ Except.error o ∈ rest :=
  error_mem_ok

theorem error_mem_reset {depths : Depths} :
    Except.error o ∈ reset pool depths :: rest ↔ Except.error o ∈ rest := error_mem_ok

theorem outflow_eq_error_iff :
    outflow name pool amount = .error o ↔ o = .negate ∧ amount = Int64.minValue := by
  unfold outflow
  rw [← Checked.neg_eq_error_iff]
  cases hneg : Checked.neg amount with
  | ok delta =>
    constructor
    · intro h
      cases h
    · rintro ⟨-, o, h⟩
      cases h
  | error fault =>
    have hfault : fault = .negate := by
      unfold Checked.neg Checked.fit at hneg
      split at hneg
      · cases hneg
      · cases hneg
        rfl
    subst hfault
    constructor
    · rintro ⟨⟩
      exact ⟨rfl, _, rfl⟩
    · rintro ⟨rfl, -⟩
      rfl

theorem error_mem_outflow :
    Except.error o ∈ outflow name pool amount :: rest ↔
      (o = .negate ∧ amount = Int64.minValue) ∨ Except.error o ∈ rest := by
  rw [List.mem_cons, ← @outflow_eq_error_iff name pool amount o]
  exact or_congr_left eq_comm

theorem error_not_mem_map {α : Type} {xs : List α} {change : α → Totals.Change} :
    Except.error o ∉ xs.map fun x => (.ok (change x) : PlannedChange) := by
  intro h
  obtain ⟨x, -, h⟩ := List.mem_map.1 h
  cases h

end PlannedChange

namespace Event

/-- The event takes the smallest amount out of a pool. -/
def Unnegatable (natives : NativeNames) : Event → Prop
  | .withdraw e => e.emitAssetE8 = Int64.minValue ∨ e.emitRuneE8 = Int64.minValue
  | .fee e => natives.contains e.coin.asset = false ∧ e.poolDeduct = Int64.minValue
  | .gas e => e.assetE8 = Int64.minValue
  | _ => False

/-- Neither side of a swap is negative. -/
def SwapNonneg (e : Event) : Prop := ∀ s, e = .swap s → 0 ≤ s.source.e8.toInt ∧ 0 ≤ s.target.e8.toInt

section

variable {natives : NativeNames} {coinKeptBelow : Option Int64} {height : Int64} {o : Overflow}

open PlannedChange

theorem error_not_mem_swap {e : Swap} (hsource : 0 ≤ e.source.e8.toInt) (htarget : 0 ≤ e.target.e8.toInt) :
    Except.error o ∉ e.changes natives := by
  have hmin : Int64.minValue.toInt < 0 := by decide
  have hsource' : e.source.e8 ≠ Int64.minValue := fun h => by rw [h] at hsource; omega
  have htarget' : e.target.e8 ≠ Int64.minValue := fun h => by rw [h] at htarget; omega
  unfold Swap.changes
  dsimp only
  split <;>
    simp only [error_mem_inflow, error_mem_outflow, hsource', htarget', and_false, List.not_mem_nil, or_false,
      not_false_eq_true]

theorem error_mem_withdraw {e : Withdraw} :
    Except.error o ∈ e.changes natives coinKeptBelow height ↔
      o = .negate ∧ (e.emitAssetE8 = Int64.minValue ∨ e.emitRuneE8 = Int64.minValue) := by
  have hcoin : Except.error o ∉ e.coinChanges natives := by
    unfold Withdraw.coinChanges
    split
    · simp only [error_mem_inflow, List.not_mem_nil, not_false_eq_true]
    · split <;> simp only [error_mem_inflow, List.not_mem_nil, not_false_eq_true]
  have hkept : ∀ kept : Bool, Except.error o ∉ if kept then e.coinChanges natives else [] := by
    intro kept
    cases kept with
    | true => exact hcoin
    | false => exact List.not_mem_nil
  unfold Withdraw.changes
  simp only [List.cons_append, List.nil_append, error_mem_outflow, error_mem_inflow, hkept, or_false,
    and_or_left]

/-- Only amounts without a negative keep a change from being computed. -/
theorem error_mem_changes {e : Event} (hswap : e.SwapNonneg) :
    Except.error o ∈ e.changes natives coinKeptBelow height ↔ o = .negate ∧ e.Unnegatable natives := by
  cases e with
  | swap e =>
    obtain ⟨hsource, htarget⟩ := hswap e rfl
    exact iff_of_false (error_not_mem_swap hsource htarget) fun h => h.2
  | withdraw e => exact error_mem_withdraw
  | fee e =>
    unfold changes Unnegatable
    dsimp only
    split
    · rename_i hnative
      rw [hnative]
      simp only [List.not_mem_nil, Bool.true_eq_false, false_and, and_false]
    · rename_i hnative
      rw [Bool.eq_false_iff.2 hnative]
      simp only [error_mem_inflow, error_mem_outflow, List.not_mem_nil, or_false, true_and]
  | gas e =>
    unfold changes Unnegatable
    simp only [error_mem_inflow, error_mem_outflow, List.not_mem_nil, or_false]
  | pool e =>
    unfold changes Unnegatable
    dsimp only
    split <;> simp only [error_mem_reset, List.not_mem_nil, and_false]
  | rewards e => exact iff_of_false error_not_mem_map fun h => h.2
  | slash e => exact iff_of_false error_not_mem_map fun h => h.2
  | _ =>
    unfold changes Unnegatable
    simp only [error_mem_inflow, error_mem_reset, List.not_mem_nil, and_false]

end

/-- The events that reach the recorder. -/
def Recordable (e : Event) : Prop :=
  (∃ natives as read overrides, load natives as = .ok (some read) ∧ e = read.amended overrides) ∨
    ∃ c chainId natives genesisHeight height,
      e ∈ (CorrectionTable.ofConfig c chainId natives genesisHeight).injected height

theorem SwapNonneg.amended {e : Event} (h : e.SwapNonneg) (overrides : List WithdrawOverride) :
    (e.amended overrides).SwapNonneg := by
  refine List.foldlRecOn overrides _ (motive := SwapNonneg) h fun e he o _ s hs => ?_
  cases e with
  | withdraw w => cases hs
  | _ => exact he s hs

theorem swapNonneg_of_configured {e : Event} (h : CorrectionTable.Configured e) : e.SwapNonneg := by
  intro s hs
  rcases h with ⟨i, rfl⟩ | ⟨g, rfl⟩
  · unfold Injection.event at hs
    split at hs <;> cases hs
  · cases hs

theorem Recordable.swapNonneg {e : Event} (h : e.Recordable) : e.SwapNonneg := by
  rcases h with ⟨natives, as, read, overrides, hload, rfl⟩ | ⟨c, chainId, natives, genesisHeight, height, hmem⟩
  · refine SwapNonneg.amended (fun s hs => ?_) overrides
    rw [hs] at hload
    exact nonneg_of_load_swap hload
  · exact swapNonneg_of_configured (CorrectionTable.configured_of_mem_injected hmem)

/-- An id with a code never keeps the rows of its event from being built. -/
theorem rows_ne_overflow {natives : NativeNames} {m : Metadata} (hid : ∃ id, m.id.encode = .ok id) (e : Event)
    (o : Overflow) : e.rows natives m ≠ .error (.overflow o) := by
  obtain ⟨id, hid⟩ := hid
  intro h
  unfold rows at h
  split at h
  · cases h
  · obtain ⟨entry, -, hentry⟩ := exists_of_mapM_eq_error h
    unfold Entry.row at hentry
    rw [hid] at hentry
    dsimp only at hentry
    split at hentry <;> cases hentry

end Event

/-! ### One event recorded -/

namespace Recorder

variable {r : Recorder} {s : Store} {e : Event} {m : Metadata} {i i' : Inserter}

theorem insert_eq_ok (h : r.insert s e m i = (.ok (), i')) : ∃ rows, e.rows r.natives m = .ok rows := by
  unfold Recorder.insert at h
  split at h
  · cases h
  · cases h
  · rename_i rows hrows
    exact ⟨rows, hrows⟩

theorem insert_ne_overflow (hid : ∃ id, m.id.encode = .ok id) (o : Overflow) :
    r.insert s e m i ≠ (.error (.overflow o), i') := by
  intro h
  unfold Recorder.insert at h
  split at h
  · rename_i o' hrows
    exact e.rows_ne_overflow hid o' hrows
  · cases h
  · split at h
    · cases h
    · cases h

theorem record_of_taken {b : Books} (h : r.insert s e m b.inserter = (.ok (), i)) :
    let changed := b.totals.applyAll (e.changes r.natives r.coinKeptBelow m.height)
    (r.record s b e m).1 = changed.fault.elim (.ok ()) (fun o => .error (.overflow o)) ∧
      (r.record s b e m).2.totals = changed.totals := by
  unfold Recorder.record
  rw [h]
  dsimp only
  cases (b.totals.applyAll (e.changes r.natives r.coinKeptBelow m.height)).fault with
  | none => exact ⟨rfl, rfl⟩
  | some o => exact ⟨rfl, rfl⟩

theorem record_of_refused {b : Books} {fault : IndexerError}
    (h : r.insert s e m b.inserter = (.error (.error fault), i)) :
    (∀ o, (r.record s b e m).1 ≠ .error (.overflow o)) ∧ (r.record s b e m).2.totals = b.totals := by
  unfold Recorder.record
  rw [h]
  dsimp only
  cases fault.isRowRefusal with
  | true => exact ⟨nofun, rfl⟩
  | false => exact ⟨nofun, rfl⟩

/-- **Exactness**: an event that reaches the recorder cannot be recorded exactly if its rows are taken and it
takes the smallest amount out of a pool.  Any other event whose rows are taken posts what they say, and a sum
that does not fit is left out and counted; an event whose rows are not taken moves nothing. -/
theorem record_exact (he : e.Recordable) (hplace : m.id.height = m.height) (hlow : 0 ≤ m.height.toInt)
    (hhigh : m.height.toInt ≤ 9223372036) (hindex : m.id.index.toNat ≤ EventId.maxIndex) (r : Recorder)
    (s : Store) (b : Books) :
    let taken := (r.insert s e m b.inserter).1 = .ok ()
    let after := r.record s b e m
    (∀ o, after.1 = .error (.overflow o) ↔ taken ∧ o = .negate ∧ e.Unnegatable r.natives) ∧
      (taken → ¬ e.Unnegatable r.natives → after.1 = .ok () ∧ ∃ rows, e.rows r.natives m = .ok rows ∧
        after.2.totals = b.totals.postAll (rows.flatMap (Row.postings r.natives r.coinKeptBelow))) ∧
      (¬ taken → after.2.totals = b.totals) := by
  have hid : ∃ id, m.id.encode = .ok id := by
    refine EventId.encode_isOk ?_ ?_ hindex
    · rwa [hplace]
    · rwa [hplace]
  obtain ⟨⟨result, i⟩, hinsert⟩ : ∃ p, r.insert s e m b.inserter = p := ⟨_, rfl⟩
  intro taken after
  rcases result with (o | fault) | _
  · exact absurd hinsert (insert_ne_overflow hid o)
  · obtain ⟨hresult, htotals⟩ := record_of_refused hinsert
    have htaken : ¬ taken := by
      show (r.insert s e m b.inserter).1 ≠ _
      rw [hinsert]
      exact nofun
    exact ⟨fun o => iff_of_false (hresult o) fun h => htaken h.1, fun h => absurd h htaken, fun _ => htotals⟩
  · obtain ⟨hresult, htotals⟩ := record_of_taken hinsert
    have htaken : taken := by
      show (r.insert s e m b.inserter).1 = _
      rw [hinsert]
    have hchanges : ∀ o, Except.error o ∈ e.changes r.natives r.coinKeptBelow m.height ↔ _ :=
      fun o => Event.error_mem_changes he.swapNonneg
    rcases Totals.fault_applyAll_cases (e.changes r.natives r.coinKeptBelow m.height) b.totals with
      ⟨hfault, hcalm⟩ | ⟨o, hfault, hmem⟩
    · have hcan : ¬ e.Unnegatable r.natives := fun h => hcalm .negate ((hchanges _).2 ⟨rfl, h⟩)
      rw [hfault] at hresult
      refine ⟨fun o => iff_of_false ?_ fun h => hcan h.2.2, fun _ _ => ⟨hresult, ?_⟩, fun h => absurd htaken h⟩
      · show (r.record s b e m).1 ≠ _
        rw [hresult]
        exact nofun
      · obtain ⟨rows, hrows⟩ := insert_eq_ok hinsert
        exact ⟨rows, hrows, htotals.trans (Event.totals_applyAll ⟨hplace, fun _ _ => hindex⟩ hrows hfault)⟩
    · obtain ⟨rfl, hcannot⟩ := (hchanges o).1 hmem
      rw [hfault] at hresult
      refine ⟨fun o => ?_, fun _ h => absurd hcannot h, fun h => absurd htaken h⟩
      show (r.record s b e m).1 = _ ↔ _
      rw [hresult]
      constructor
      · rintro ⟨⟩
        exact ⟨htaken, rfl, hcannot⟩
      · rintro ⟨-, rfl, -⟩
        rfl

/-- The attributes of gas paid back to the pool of bitcoin. -/
def gasAttributes (assetE8 runeE8 : String) : Attributes :=
  ⟨"gas", [("asset", "BTC.BTC"), ("asset_amt", assetE8), ("rune_amt", runeE8)]⟩

/-- The books of a block that has been started in the batch strategy. -/
def booksOf (t : Totals) : Books := ⟨.zero, t, .batch ⟨[], 0, ⟨true, 0⟩⟩, []⟩

/-- A rune ledger that is full already stays as it is; the asset ledger still moves. -/
theorem record_fullLedger :
    let full := booksOf (Totals.empty.add .rune "BTC.BTC" Int64.maxValue)
    let after := record ⟨.default, none⟩ .empty full (.gas ⟨"BTC.BTC", 5, 7, 0⟩) (.of 1 1000 .tx 0)
    after.1 = .ok () ∧ after.2.totals.get "BTC.BTC" = ⟨-5, Int64.maxValue, 0⟩ ∧
      after.2.totals.overflows = 1 := by
  intro full after
  have hload : Event.load .default (gasAttributes "5" "7") = .ok (some (.gas ⟨"BTC.BTC", 5, 7, 0⟩)) := by
    decide +kernel
  have he : (Event.gas ⟨"BTC.BTC", 5, 7, 0⟩).Recordable := .inl ⟨_, _, _, [], hload, rfl⟩
  obtain ⟨-, hposted, -⟩ := record_exact (m := .of 1 1000 .tx 0) he rfl (by decide) (by decide) (by decide)
    ⟨.default, none⟩ .empty full
  have hcan : (5 : Int64) ≠ Int64.minValue := by decide
  obtain ⟨hok, -⟩ := hposted (by decide +kernel) hcan
  exact ⟨hok, by decide +kernel, by decide +kernel⟩

/-- Gas of the smallest amount ends the recording, although its rows are taken. -/
theorem record_smallestGas :
    Event.load .default (gasAttributes "-9223372036854775808" "0") =
        .ok (some (.gas ⟨"BTC.BTC", Int64.minValue, 0, 0⟩)) ∧
      (record ⟨.default, none⟩ .empty (booksOf .empty) (.gas ⟨"BTC.BTC", Int64.minValue, 0, 0⟩)
        (.of 1 1000 .tx 0)).1 = .error (.overflow .negate) := by
  constructor
  · decide +kernel
  · decide +kernel

end Recorder

end PoolIndexer
