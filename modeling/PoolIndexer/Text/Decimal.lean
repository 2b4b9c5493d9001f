import PoolIndexer.Checked

/-!
# Decimal — integers written in ASCII digits

`digits` writes a number without leading zeros; `value?` reads any non-empty run of digits.  A
signed number may begin with one `+` or `-`.
-/

namespace PoolIndexer.Text.Decimal

def isDigit (c : Char) : Bool := 48 ≤ c.toNat && c.toNat ≤ 57

def digit (n : Nat) : Char := Char.ofNat (48 + n % 10)

def digits (n : Nat) : List Char :=
  if n < 10 then [digit n] else digits (n / 10) ++ [digit n]

/-- The last `width` decimal places of `n`, zeros in front. -/
def lastDigits : Nat → Nat → List Char
  | 0, _ => []
  | width + 1, n => lastDigits width (n / 10) ++ [digit n]

/-- At least `width` digits, filled up with zeros. -/
def padded (width n : Nat) : List Char :=
  if n < Nat.pow 10 width then lastDigits width n else digits n

def ofInt (n : Int) : List Char :=
  match n with
  | .ofNat k => digits k
  | .negSucc k => '-' :: digits (k + 1)

def step (acc : Option Nat) (c : Char) : Option Nat :=
  match acc with
  | some v => if isDigit c then some (10 * v + (c.toNat - 48)) else none
  | none => none

/-- The value of a run of digits; nothing for the empty text. -/
def value? (cs : List Char) : Option Nat :=
  if cs.isEmpty then none else cs.foldl step (some 0)

def signed? : List Char → Option Int
  | '-' :: cs => (value? cs).map fun n => -(n : Int)
  | '+' :: cs => (value? cs).map fun n => (n : Int)
  | cs => (value? cs).map fun n => (n : Int)

/-- A natural number that may carry a `+`. -/
def unsigned? : List Char → Option Nat
  | '+' :: cs => value? cs
  | cs => value? cs

def int64? (cs : List Char) : Option Int64 := (signed? cs).bind Checked.fit?

/-- A natural number below `2 ^ bits`. -/
def word? (bits : Nat) (cs : List Char) : Option Nat :=
  (unsigned? cs).bind fun n => if n < Nat.pow 2 bits then some n else none

def showNat (n : Nat) : String := String.ofList (digits n)

def showInt (n : Int) : String := String.ofList (ofInt n)

def showInt64 (n : Int64) : String := showInt n.toInt

/-! ### Reading back -/

theorem digits_of_lt {n : Nat} (h : n < 10) : digits n = [digit n] := by
  rw [digits, if_pos h]

theorem digits_of_le {n : Nat} (h : 10 ≤ n) : digits n = digits (n / 10) ++ [digit n] := by
  rw [digits, if_neg (by omega)]

theorem digits_ne_nil (n : Nat) : digits n ≠ [] := by
  rw [digits]
  split <;> simp

theorem toNat_digit (n : Nat) : (digit n).toNat = 48 + n % 10 := by
  unfold digit
  have h : n % 10 < 10 := Nat.mod_lt _ (by omega)
  generalize n % 10 = d at h
  match d, h with
  | 0, _ | 1, _ | 2, _ | 3, _ | 4, _ | 5, _ | 6, _ | 7, _ | 8, _ | 9, _ => rfl

theorem isDigit_digit (n : Nat) : isDigit (digit n) = true := by
  have h : n % 10 < 10 := Nat.mod_lt _ (by omega)
  simp only [isDigit, toNat_digit, Bool.and_eq_true, decide_eq_true_eq]
  omega

theorem step_digit (v n : Nat) : step (some v) (digit n) = some (10 * v + n % 10) := by
  simp [step, isDigit_digit, toNat_digit]

theorem foldl_step_digits (n : Nat) : (digits n).foldl step (some 0) = some n := by
  induction n using Nat.strongRecOn with
  | _ n ih =>
    by_cases h : n < 10
    · rw [digits_of_lt h]
      simp only [List.foldl_cons, List.foldl_nil, step_digit]
      rw [Nat.mod_eq_of_lt h]
      simp
    · rw [digits_of_le (by omega), List.foldl_append, ih (n / 10) (by omega)]
      simp only [List.foldl_cons, List.foldl_nil, step_digit]
      exact congrArg some (by omega)

theorem value?_digits (n : Nat) : value? (digits n) = some n := by
  unfold value?
  rw [if_neg (by simpa using digits_ne_nil n), foldl_step_digits]

end PoolIndexer.Text.Decimal
