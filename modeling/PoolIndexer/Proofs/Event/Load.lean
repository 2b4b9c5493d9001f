import PoolIndexer.Event.Load
import PoolIndexer.Proofs.Coin

/-!
# Proofs.Event.Load — what reading an event may run into

* `Overflows`: a read that ends in an overflow and not in a complaint about an attribute.
* `Coin.total`: the exact sum of coins.  Coins that have been read are not negative, so the running sums
  of an addition leave the 64-bit range exactly if a total does.
* `Attributes.Unnegatable`: the smallest amount with the flag that says it is taken away.
* `Event.load_overflows_iff`: the events that cannot be loaded for no fault of their attributes.
-/

namespace PoolIndexer

/-! ### Words at the end of their range -/

namespace Checked

theorem fit_eq_error_iff {fault : Overflow} {n : Int} :
    (∃ o, fit fault n = .error o) ↔ n < Int64.minValue.toInt ∨ Int64.maxValue.toInt < n := by
  unfold fit fit?
  split
  · rename_i w hw
    split at hw
    · constructor
      · rintro ⟨o, h⟩
        cases h
      · omega
    · cases hw
  · rename_i hw
    split at hw
    · cases hw
    · constructor
      · intro _
        omega
      · exact fun _ => ⟨fault, rfl⟩

theorem neg_eq_error_iff {a : Int64} : (∃ o, neg a = .error o) ↔ a = Int64.minValue := by
  have hlow := Int64.minValue_le_toInt a
  have hhigh := Int64.toInt_le a
  rw [show neg a = fit .negate (-a.toInt) from rfl, fit_eq_error_iff, ← Int64.toInt_inj]
  rw [Int64.toInt_minValue, Int64.toInt_maxValue] at *
  omega

end Checked

/-! ### Coins -/

namespace Coin

/-- The exact sum of the amounts. -/
def total : List Coin → Int
  | [] => 0
  | c :: rest => c.e8.toInt + total rest

theorem total_nonneg {coins : List Coin} (h : ∀ c ∈ coins, 0 ≤ c.e8.toInt) : 0 ≤ total coins := by
  induction coins with
  | nil => exact Int.le_refl 0
  | cons c rest ih =>
    obtain ⟨hc, hrest⟩ := List.forall_mem_cons.1 h
    have := ih hrest
    unfold total
    omega

end Coin

/-- Coins that have been read are not negative. -/
theorem Attributes.nonneg_of_coins {as : Attributes} {key : String} {coins : List Coin}
    (h : as.coins key = .ok coins) : ∀ c ∈ coins, 0 ≤ c.e8.toInt := by
  obtain ⟨text, -, hparse⟩ := Attributes.coins_eq_ok_iff.1 h
  exact fun c hc => (Coin.writable_of_parseList? hparse c hc).nonneg

/-! ### Overflows -/

/-- The read ends in an overflow. -/
def Overflows {α : Type} (x : Except LoadError α) : Prop := ∃ o, x = .error (.overflow o)

section

variable {α β : Type}

theorem overflows_bind {x : Except LoadError α} {f : α → Except LoadError β} :
    Overflows (x >>= f) ↔ Overflows x ∨ ∃ a, x = .ok a ∧ Overflows (f a) := by
  unfold Overflows
  cases x with
  | error e =>
    constructor
    · rintro ⟨o, h⟩
      cases h
      exact .inl ⟨o, rfl⟩
    · rintro (⟨o, h⟩ | ⟨a, h, -⟩)
      · cases h
        exact ⟨o, rfl⟩
      · cases h
  | ok a =>
    refine ⟨fun h => .inr ⟨a, rfl, h⟩, ?_⟩
    rintro (⟨o, h⟩ | ⟨_, ⟨⟩, h⟩)
    · cases h
    · exact h

/-- Reading an attribute never overflows. -/
theorem overflows_read {x : Except AttributeError α} : ¬ Overflows (liftM x) := by
  rintro ⟨o, h⟩
  cases x with
  | ok a => cases h
  | error e => cases h

theorem read_eq_ok {x : Except AttributeError α} {a : α} :
    (liftM x : Except LoadError α) = .ok a ↔ x = .ok a := by
  cases x with
  | ok b =>
    constructor <;> intro h
    · cases h
      rfl
    · cases h
      rfl
  | error e =>
    constructor <;> intro h
    · cases h
    · cases h

theorem overflows_checked {x : Except Overflow α} :
    Overflows (liftM x : Except LoadError α) ↔ ∃ o, x = .error o := by
  cases x with
  | ok a =>
    constructor <;> rintro ⟨o, h⟩
    · cases h
    · cases h
  | error o => exact ⟨fun _ => ⟨o, rfl⟩, fun _ => ⟨o, rfl⟩⟩

theorem overflows_pure {a : α} : ¬ Overflows (pure a) := by
  rintro ⟨o, h⟩
  cases h

theorem overflows_read_bind {x : Except AttributeError α} {f : α → Except LoadError β} :
    Overflows (liftM x >>= f) ↔ ∃ a, x = .ok a ∧ Overflows (f a) := by
  rw [overflows_bind]
  simp only [overflows_read, read_eq_ok, false_or]

end

/-! ### Sums of coins -/

namespace Event

variable {natives : NativeNames} {as : Attributes}

/-- The coins of the native side, or those of the other. -/
def side (natives : NativeNames) (native : Bool) (coins : List Coin) : List Coin :=
  coins.filter fun c => natives.contains c.asset == native

theorem total_side_cons (native : Bool) (c : Coin) (rest : List Coin) :
    Coin.total (side natives native (c :: rest)) =
      (if natives.contains c.asset = native then c.e8.toInt else 0) +
        Coin.total (side natives native rest) := by
  unfold side
  rw [List.filter_cons]
  by_cases h : natives.contains c.asset = native
  · rw [if_pos (beq_iff_eq.2 h), if_pos h]
    rfl
  · rw [if_neg (fun hb => h (beq_iff_eq.1 hb)), if_neg h, Int.zero_add]

theorem total_side_nonneg {coins : List Coin} (h : ∀ c ∈ coins, 0 ≤ c.e8.toInt) (native : Bool) :
    0 ≤ Coin.total (side natives native coins) :=
  Coin.total_nonneg fun c hc => h c (List.mem_filter.1 hc).1

theorem add_eq_error_iff {a b : Int64} (ha : 0 ≤ a.toInt) (hb : 0 ≤ b.toInt) :
    (∃ o, Checked.add a b = .error o) ↔ Int64.maxValue.toInt < a.toInt + b.toInt := by
  have hmin : Int64.minValue.toInt < 0 := by decide
  rw [show Checked.add a b = Checked.fit .add (a.toInt + b.toInt) from rfl, Checked.fit_eq_error_iff]
  omega

/-- Sums of coins overflow exactly if the total of a side does. -/
theorem foldlM_push_eq_error_iff {coins : List Coin} (hcoins : ∀ c ∈ coins, 0 ≤ c.e8.toInt) :
    ∀ s : Sums, 0 ≤ s.assetE8.toInt → 0 ≤ s.runeE8.toInt →
      ((∃ o, coins.foldlM (Sums.push natives) s = .error o) ↔
        Int64.maxValue.toInt < s.runeE8.toInt + Coin.total (side natives true coins) ∨
          Int64.maxValue.toInt < s.assetE8.toInt + Coin.total (side natives false coins)) := by
  induction coins with
  | nil =>
    intro s _ _
    have hasset := Int64.toInt_le s.assetE8
    have hrune := Int64.toInt_le s.runeE8
    have hempty : ∀ native, Coin.total (side natives native []) = 0 := fun _ => rfl
    rw [hempty, hempty]
    constructor
    · rintro ⟨o, h⟩
      cases h
    · omega
  | cons c rest ih =>
    obtain ⟨hc, hrest⟩ := List.forall_mem_cons.1 hcoins
    have htrue : 0 ≤ Coin.total (side natives true rest) := total_side_nonneg hrest true
    have hfalse : 0 ≤ Coin.total (side natives false rest) := total_side_nonneg hrest false
    intro s hasset hrune
    rw [List.foldlM_cons, total_side_cons, total_side_cons]
    unfold Sums.push
    by_cases hnative : natives.contains c.asset = true
    · rw [if_pos hnative, if_pos hnative, if_neg (by rw [hnative]; decide)]
      cases hadd : Checked.add s.runeE8 c.e8 with
      | error o =>
        have hover := (add_eq_error_iff hrune hc).1 ⟨o, hadd⟩
        exact ⟨fun _ => .inl (by omega), fun _ => ⟨o, rfl⟩⟩
      | ok r =>
        have hr := Checked.add_eq_ok_iff.1 hadd
        have hsums := ih hrest { s with runeE8 := r } hasset (show 0 ≤ r.toInt by omega)
        dsimp only at hsums
        exact Iff.trans hsums (by omega)
    · rw [if_neg hnative, if_neg hnative, if_pos (Bool.eq_false_iff.2 hnative)]
      cases hadd : Checked.add s.assetE8 c.e8 with
      | error o =>
        have hover := (add_eq_error_iff hasset hc).1 ⟨o, hadd⟩
        exact ⟨fun _ => .inr (by omega), fun _ => ⟨o, rfl⟩⟩
      | ok r =>
        have hr := Checked.add_eq_ok_iff.1 hadd
        have hsums := ih hrest { s with asset := c.asset, assetE8 := r } (show 0 ≤ r.toInt by omega) hrune
        dsimp only at hsums
        exact Iff.trans hsums (by omega)

theorem sums_eq_error_iff {coins : List Coin} (hcoins : ∀ c ∈ coins, 0 ≤ c.e8.toInt) :
    (∃ o, coins.foldlM (Sums.push natives) ⟨"", 0, 0⟩ = .error o) ↔
      ∃ native, Int64.maxValue.toInt < Coin.total (side natives native coins) := by
  have hsums := @foldlM_push_eq_error_iff natives coins hcoins ⟨"", 0, 0⟩ (Int.le_refl 0) (Int.le_refl 0)
  simp only [Int64.toInt_zero, Int.zero_add] at hsums
  rw [hsums, Bool.exists_bool, or_comm]

/-! ### Events that strain the words -/

end Event

namespace Attributes

/-- The smallest amount, to be taken away: its negative has no word. -/
def Unnegatable (as : Attributes) (amountKey addKey : String) : Prop :=
  as.intOrZero amountKey = .ok Int64.minValue ∧ as.bool addKey = .ok false

/-- Of two signed amounts, read in this order, the first that can be read at all but has no word. -/
def UnnegatableOf (as : Attributes) (first second : String × String) : Prop :=
  as.Unnegatable first.1 first.2 ∨
    (∃ n, Event.signed as first.1 first.2 = .ok n) ∧ as.Unnegatable second.1 second.2

end Attributes

namespace Event

variable {natives : NativeNames} {as : Attributes}

/-- Coins whose native side or whose other side adds up to more than a word holds, given to a pool. -/
def Oversized (natives : NativeNames) (as : Attributes) : Prop :=
  (∃ pool, as.get "pool" = .ok pool) ∧ ∃ coins, inboundCoins as = .ok coins ∧
    ∃ native, Int64.maxValue.toInt < Coin.total (side natives native coins)

/-- The event asks for an amount that has no word. -/
def Strained (natives : NativeNames) (as : Attributes) : Prop :=
  as.kind = "add" ∧ Oversized natives as ∨
    as.kind = "errata" ∧ (∃ asset, as.get "asset" = .ok asset) ∧
      as.UnnegatableOf ("asset_amt", "asset_add") ("rune_amt", "rune_add") ∨
    as.kind = "pool_balance_change" ∧ (∃ asset, as.get "asset" = .ok asset) ∧
      as.UnnegatableOf ("rune_amt", "rune_add") ("asset_amt", "asset_add")

theorem nonneg_of_inboundCoins {coins : List Coin} (h : inboundCoins as = .ok coins) :
    ∀ c ∈ coins, 0 ≤ c.e8.toInt := by
  unfold inboundCoins at h
  split at h
  · exact Attributes.nonneg_of_coins h
  · cases h
    exact fun _ hc => absurd hc List.not_mem_nil

theorem overflows_loadAdd : Overflows (loadAdd natives as) ↔ Oversized natives as := by
  unfold loadAdd Oversized
  simp only [overflows_bind, overflows_read, read_eq_ok, overflows_checked, overflows_pure, false_or, and_false,
    exists_false, or_false]
  constructor
  · rintro ⟨coins, hcoins, pool, hpool, hsums⟩
    exact ⟨⟨pool, hpool⟩, coins, hcoins, (sums_eq_error_iff (nonneg_of_inboundCoins hcoins)).1 hsums⟩
  · rintro ⟨⟨pool, hpool⟩, coins, hcoins, htotal⟩
    exact ⟨coins, hcoins, pool, hpool, (sums_eq_error_iff (nonneg_of_inboundCoins hcoins)).2 htotal⟩

theorem overflows_signed {amountKey addKey : String} :
    Overflows (signed as amountKey addKey) ↔ as.Unnegatable amountKey addKey := by
  unfold signed Attributes.Unnegatable
  rw [overflows_read_bind]
  constructor
  · rintro ⟨amount, hamount, h⟩
    split at h
    · exact absurd h overflows_pure
    · obtain ⟨added, hadded, h⟩ := overflows_read_bind.1 h
      split at h
      · exact absurd h overflows_pure
      · rename_i hflag
        rw [overflows_checked, Checked.neg_eq_error_iff] at h
        rw [hamount, hadded, h, Bool.eq_false_iff.2 hflag]
        exact ⟨rfl, rfl⟩
  · rintro ⟨hamount, hadded⟩
    have hflag : ¬ (as.get? addKey).isNone = true := by
      intro hnone
      unfold Attributes.bool Attributes.get at hadded
      rw [Option.isNone_iff_eq_none.1 hnone] at hadded
      cases hadded
    refine ⟨Int64.minValue, hamount, ?_⟩
    rw [if_neg hflag, overflows_read_bind]
    refine ⟨false, hadded, ?_⟩
    rw [if_neg Bool.false_ne_true, overflows_checked, Checked.neg_eq_error_iff]

/-- Two signed amounts of an asset, in the order in which they are read. -/
theorem overflows_signedPair {α : Type} {first second : String × String} {wrap : String → Int64 → Int64 → α} :
    Overflows (do
        let asset ← as.get "asset"
        let n ← signed as first.1 first.2
        let n' ← signed as second.1 second.2
        pure (wrap asset n n')) ↔
      (∃ asset, as.get "asset" = .ok asset) ∧ as.UnnegatableOf first second := by
  unfold Attributes.UnnegatableOf
  simp only [overflows_bind, overflows_read, read_eq_ok, overflows_signed, overflows_pure, false_or, and_false,
    exists_false, or_false, exists_and_right]

theorem overflows_checking {α : Type} {wrap : α → Event} {x : Except LoadError α} :
    Overflows (checking wrap x) ↔ Overflows x := by
  cases x with
  | ok a =>
    constructor <;> rintro ⟨o, h⟩
    · cases h
    · cases h
  | error e =>
    constructor <;> rintro ⟨o, h⟩
    · cases h
      exact ⟨o, rfl⟩
    · cases h
      exact ⟨o, rfl⟩

theorem overflows_reading {α : Type} {wrap : α → Event} {x : Except AttributeError α} :
    ¬ Overflows (reading wrap x) := by
  rw [reading_eq_checking, overflows_checking]
  exact overflows_read

/-- **Loading**: an event overflows exactly if it asks for an amount that has no word. -/
theorem overflows_load : Overflows (load natives as) ↔ Strained natives as := by
  constructor
  · intro h
    unfold load at h
    split at h
    case h_1 hkind => exact .inl ⟨hkind, overflows_loadAdd.1 (overflows_checking.1 h)⟩
    case h_10 hkind => exact .inr (.inl ⟨hkind, overflows_signedPair.1 (overflows_checking.1 h)⟩)
    case h_11 hkind => exact .inr (.inr ⟨hkind, overflows_signedPair.1 (overflows_checking.1 h)⟩)
    case h_29 =>
      obtain ⟨o, h⟩ := h
      cases h
    all_goals exact absurd h overflows_reading
  · rintro (⟨hkind, h⟩ | ⟨hkind, h⟩ | ⟨hkind, h⟩)
    · unfold load
      rw [hkind]
      exact overflows_checking.2 (overflows_loadAdd.2 h)
    · unfold load
      rw [hkind]
      exact overflows_checking.2 (overflows_signedPair.2 h)
    · unfold load
      rw [hkind]
      exact overflows_checking.2 (overflows_signedPair.2 h)

/-! ### Amounts that have been read -/

theorem checking_eq_ok {α : Type} {wrap : α → Event} {x : Except LoadError α} {e : Event}
    (h : checking wrap x = .ok (some e)) : ∃ a, x = .ok a ∧ e = wrap a := by
  cases x with
  | error _ => cases h
  | ok a =>
    cases h
    exact ⟨a, rfl, rfl⟩

theorem nonneg_of_coin {key : String} {c : Coin} (h : as.coin key = .ok c) : 0 ≤ c.e8.toInt := by
  unfold Attributes.coin at h
  obtain ⟨value, -, h⟩ := bind_eq_ok_iff.1 h
  split at h
  · rename_i c' hc
    cases h
    exact Coin.nonneg_of_parseChars? hc
  · cases h

theorem nonneg_of_loadSwap {e : Swap} (h : loadSwap as = .ok e) :
    0 ≤ e.source.e8.toInt ∧ 0 ≤ e.target.e8.toInt := by
  unfold loadSwap at h
  obtain ⟨coins, hcoins, h⟩ := bind_eq_ok_iff.1 h
  split at h
  · cases h
  · rename_i source rest
    obtain ⟨target, htarget, h⟩ := bind_eq_ok_iff.1 h
    obtain ⟨pool, -, h⟩ := bind_eq_ok_iff.1 h
    obtain ⟨targetMin, -, h⟩ := bind_eq_ok_iff.1 h
    obtain ⟨slipBp, -, h⟩ := bind_eq_ok_iff.1 h
    obtain ⟨feeE8, -, h⟩ := bind_eq_ok_iff.1 h
    obtain ⟨feeInRuneE8, -, h⟩ := bind_eq_ok_iff.1 h
    cases h
    exact ⟨nonneg_of_inboundCoins hcoins source List.mem_cons_self, nonneg_of_coin htarget⟩

/-- Neither side of a swap that has been read is negative. -/
theorem nonneg_of_load_swap {e : Swap} (h : load natives as = .ok (some (.swap e))) :
    0 ≤ e.source.e8.toInt ∧ 0 ≤ e.target.e8.toInt := by
  unfold load at h
  split at h
  case h_5 =>
    rw [reading_eq_checking] at h
    obtain ⟨_, hswap, ⟨⟩⟩ := checking_eq_ok h
    exact nonneg_of_loadSwap (read_eq_ok.1 hswap)
  case h_1 => obtain ⟨_, -, h⟩ := checking_eq_ok h; cases h
  case h_10 => obtain ⟨_, -, h⟩ := checking_eq_ok h; cases h
  case h_11 => obtain ⟨_, -, h⟩ := checking_eq_ok h; cases h
  case h_29 => cases h
  all_goals
    rw [reading_eq_checking] at h
    obtain ⟨_, -, h⟩ := checking_eq_ok h
    cases h

end Event

end PoolIndexer
