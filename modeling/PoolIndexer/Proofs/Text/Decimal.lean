import Mathlib.Algebra.Group.Nat.Defs
import Mathlib.Data.List.Induction
import PoolIndexer.Text.Blank
import PoolIndexer.Text.Decimal

/-!
# Proofs.Text.Decimal — a number is read back from its digits

* `lastDigits`: of fixed width, with the value modulo a power of ten.
* `padded`: of at least that width, with the value itself.
* `digits`: no superfluous zero in front; every run of digits is the `digits` of its value behind zeros.
-/

namespace PoolIndexer.Text.Decimal

/-! ### Fixed width -/

@[simp]
theorem length_lastDigits (width n : Nat) : (lastDigits width n).length = width := by
  induction width generalizing n with
  | zero => rfl
  | succ width ih => rw [lastDigits, List.length_append, ih, List.length_singleton]

theorem isDigit_of_mem_lastDigits {width n : Nat} : ∀ c ∈ lastDigits width n, isDigit c = true := by
  induction width generalizing n with
  | zero => exact fun _ h => absurd h List.not_mem_nil
  | succ width ih =>
    intro c h
    rcases List.mem_append.1 h with h | h
    · exact ih c h
    · rw [List.mem_singleton.1 h]
      exact isDigit_digit n

theorem exists_cons_lastDigits {width : Nat} (h : 0 < width) (n : Nat) :
    ∃ c cs, lastDigits width n = c :: cs ∧ isDigit c = true := by
  have hlength := length_lastDigits width n
  cases hds : lastDigits width n with
  | nil =>
    rw [hds, List.length_nil] at hlength
    omega
  | cons c cs => exact ⟨c, cs, rfl, isDigit_of_mem_lastDigits c (hds ▸ List.mem_cons_self)⟩

theorem foldl_step_lastDigits (width n : Nat) :
    (lastDigits width n).foldl step (some 0) = some (n % 10 ^ width) := by
  induction width generalizing n with
  | zero =>
    rw [Nat.pow_zero, Nat.mod_one]
    rfl
  | succ width ih =>
    have hmod : n % 10 ^ (width + 1) = n % 10 + 10 * (n / 10 % 10 ^ width) := by
      rw [Nat.pow_succ', Nat.mod_mul]
    rw [lastDigits, List.foldl_append, ih, List.foldl_cons, List.foldl_nil, step_digit, hmod, Nat.add_comm]

theorem value?_lastDigits {width n : Nat} (hwidth : 0 < width) (h : n < 10 ^ width) :
    value? (lastDigits width n) = some n := by
  have hfold := foldl_step_lastDigits width n
  obtain ⟨c, cs, hds, -⟩ := exists_cons_lastDigits hwidth n
  rw [Nat.mod_eq_of_lt h, hds] at hfold
  rw [value?, hds, List.isEmpty_cons, if_neg Bool.false_ne_true, hfold]

/-! ### As many digits as it takes -/

theorem isDigit_of_mem_digits {n : Nat} : ∀ c ∈ digits n, isDigit c = true := by
  induction n using Nat.strongRecOn with
  | _ n ih =>
    intro c h
    by_cases hn : n < 10
    · rw [digits_of_lt hn] at h
      rw [List.mem_singleton.1 h]
      exact isDigit_digit n
    · rw [digits_of_le (Nat.not_lt.1 hn)] at h
      rcases List.mem_append.1 h with h | h
      · exact ih (n / 10) (by omega) c h
      · rw [List.mem_singleton.1 h]
        exact isDigit_digit n

theorem head?_digits_ne_zero {n : Nat} (h : 0 < n) : (digits n).head? ≠ some '0' := by
  induction n using Nat.strongRecOn with
  | _ n ih =>
    by_cases hn : n < 10
    · rw [digits_of_lt hn]
      intro hzero
      have hvalue := toNat_digit n
      rw [Option.some.inj hzero, Nat.mod_eq_of_lt hn] at hvalue
      have : (48 : Nat) = 48 + n := hvalue
      omega
    · obtain ⟨c, cs, hfront⟩ := List.exists_cons_of_ne_nil (digits_ne_nil (n / 10))
      have hhead := ih (n / 10) (by omega) (by omega)
      rw [hfront] at hhead
      rw [digits_of_le (Nat.not_lt.1 hn), hfront]
      exact hhead

/-- A step takes a character that is the last digit of the number it comes to. -/
theorem step_eq_some_iff {v n : Nat} {c : Char} : step (some v) c = some n ↔ n / 10 = v ∧ digit n = c := by
  constructor
  · intro h
    rw [step] at h
    by_cases hc : isDigit c = true
    · rw [if_pos hc, Option.some.injEq] at h
      simp only [isDigit, Bool.and_eq_true, decide_eq_true_eq] at hc
      have hlast : 48 + n % 10 = c.toNat := by omega
      exact ⟨by omega, by rw [digit, hlast, Char.ofNat_toNat]⟩
    · rw [if_neg hc] at h
      cases h
  · rintro ⟨rfl, rfl⟩
    rw [step_digit]
    exact congrArg some (by omega)

/-- A scan that comes to a number has read some zeros and then its digits, none of them for zero. -/
theorem exists_zeros_of_foldl_step {ds : List Char} {n : Nat} (h : ds.foldl step (some 0) = some n) :
    ∃ zeros, ds = List.replicate zeros '0' ++ if n = 0 then [] else digits n := by
  induction ds using List.reverseRecOn generalizing n with
  | nil =>
    cases h
    exact ⟨0, rfl⟩
  | append_singleton ds c ih =>
    rw [List.foldl_append, List.foldl_cons, List.foldl_nil] at h
    cases hfront : ds.foldl step (some 0) with
    | none =>
      rw [hfront] at h
      cases h
    | some v =>
      obtain ⟨zeros, hds⟩ := ih hfront
      obtain ⟨hv, rfl⟩ := step_eq_some_iff.1 (hfront ▸ h)
      by_cases hn : n < 10
      · rw [if_pos (by omega), List.append_nil] at hds
        by_cases hzero : n = 0
        · refine ⟨zeros + 1, ?_⟩
          rw [if_pos hzero, hds, hzero, List.append_nil, List.replicate_succ']
          rfl
        · exact ⟨zeros, by rw [if_neg hzero, hds, digits_of_lt hn]⟩
      · refine ⟨zeros, ?_⟩
        rw [if_neg (by omega), digits_of_le (by omega), hv, hds, if_neg (by omega), List.append_assoc]

theorem exists_zeros_of_value? {ds : List Char} {n : Nat} (h : value? ds = some n) :
    ∃ zeros, ds = List.replicate zeros '0' ++ digits n := by
  unfold value? at h
  split at h
  · cases h
  · rename_i hne
    obtain ⟨zeros, hds⟩ := exists_zeros_of_foldl_step h
    by_cases hn : n = 0
    · rw [if_pos hn, List.append_nil] at hds
      cases zeros with
      | zero => exact absurd (by simp [hds]) hne
      | succ zeros =>
        refine ⟨zeros, ?_⟩
        rw [hds, hn, digits_of_lt (by omega), List.replicate_succ']
        rfl
    · exact ⟨zeros, by rwa [if_neg hn] at hds⟩

theorem isDigit_of_mem_padded {width n : Nat} : ∀ c ∈ padded width n, isDigit c = true := by
  unfold padded
  split
  · exact isDigit_of_mem_lastDigits
  · exact isDigit_of_mem_digits

theorem value?_padded {width : Nat} (hwidth : 0 < width) (n : Nat) : value? (padded width n) = some n := by
  unfold padded
  split
  · exact value?_lastDigits hwidth ‹_›
  · exact value?_digits n

theorem isBlank_of_isDigit {c : Char} (h : isDigit c = true) : isBlank c = false := by
  simp only [isDigit, Bool.and_eq_true, decide_eq_true_eq] at h
  simp only [isBlank, Bool.or_eq_false_iff, Bool.and_eq_false_iff, decide_eq_false_iff_not, beq_eq_false_iff_ne]
  omega

/-! ### What follows the digits -/

section

variable {ds rest : List Char}

theorem takeWhile_digits (hds : ∀ c ∈ ds, isDigit c = true) (hrest : ∀ c, rest.head? = some c → isDigit c = false) :
    (ds ++ rest).takeWhile isDigit = ds := by
  rw [List.takeWhile_append_of_pos hds]
  cases rest with
  | nil => rw [List.takeWhile_nil, List.append_nil]
  | cons c rest => rw [List.takeWhile_cons_of_neg (by rw [hrest c rfl]; exact Bool.false_ne_true), List.append_nil]

theorem dropWhile_digits (hds : ∀ c ∈ ds, isDigit c = true) (hrest : ∀ c, rest.head? = some c → isDigit c = false) :
    (ds ++ rest).dropWhile isDigit = rest := by
  rw [List.dropWhile_append_of_pos hds]
  cases rest with
  | nil => rfl
  | cons c rest => rw [List.dropWhile_cons_of_neg (by rw [hrest c rfl]; exact Bool.false_ne_true)]

end

/-! ### Signs -/

theorem signed?_eq_map {ds : List Char} (hds : ∀ c ∈ ds, isDigit c = true) :
    signed? ds = (value? ds).map fun n => (n : Int) := by
  unfold signed?
  split
  · exact absurd (hds _ List.mem_cons_self) Bool.false_ne_true
  · exact absurd (hds _ List.mem_cons_self) Bool.false_ne_true
  · rfl

theorem signed?_of_digits {ds : List Char} (hds : ∀ c ∈ ds, isDigit c = true) {n : Nat} (h : value? ds = some n) :
    signed? ds = some (n : Int) := by
  rw [signed?_eq_map hds, h]
  rfl

theorem ofInt_of_nonneg {n : Int} (h : 0 ≤ n) : ofInt n = digits n.toNat := by
  cases n with
  | ofNat k => rfl
  | negSucc k => exact absurd h (by omega)

/-! ### Words of 64 bits -/

theorem int64?_eq_some_iff {ds : List Char} (hds : ∀ c ∈ ds, isDigit c = true) {w : Int64} :
    int64? ds = some w ↔ ∃ n : Nat, value? ds = some n ∧ w.toInt = n := by
  unfold int64?
  rw [signed?_eq_map hds]
  cases value? ds with
  | none => simp
  | some n => simp [Checked.fit?_eq_some_iff]

theorem int64?_digits {w : Int64} (h : 0 ≤ w.toInt) : int64? (digits w.toInt.toNat) = some w :=
  (int64?_eq_some_iff isDigit_of_mem_digits).2 ⟨_, value?_digits _, (Int.toNat_of_nonneg h).symm⟩

end PoolIndexer.Text.Decimal
