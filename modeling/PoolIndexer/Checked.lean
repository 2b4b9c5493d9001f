/-!
# Checked — 64-bit arithmetic that refuses to wrap

Amounts, heights and times are 64-bit words.  An operation whose exact integer result does not fit
into a word is a fault that names the operation; it never wraps around.  The same holds of a run of
octets that is longer than memory can be.
-/

namespace PoolIndexer

/-- The operation whose exact result left the 64-bit range. -/
inductive Overflow where
  | add
  | subtract
  | multiply
  | negate
  /-- Room was asked for that no memory has. -/
  | capacity
  deriving DecidableEq

def Overflow.message : Overflow → String
  | .add => "attempt to add with overflow"
  | .subtract => "attempt to subtract with overflow"
  | .multiply => "attempt to multiply with overflow"
  | .negate => "attempt to negate with overflow"
  | .capacity => "capacity overflow"

namespace Checked

/-- The word equal to `n`, if there is one. -/
def fit? (n : Int) : Option Int64 :=
  if Int64.minValue.toInt ≤ n ∧ n ≤ Int64.maxValue.toInt then some (Int64.ofInt n) else none

def fit (fault : Overflow) (n : Int) : Except Overflow Int64 :=
  match fit? n with
  | some w => .ok w
  | none => .error fault

def add (a b : Int64) : Except Overflow Int64 := fit .add (a.toInt + b.toInt)

def sub (a b : Int64) : Except Overflow Int64 := fit .subtract (a.toInt - b.toInt)

def mul (a b : Int64) : Except Overflow Int64 := fit .multiply (a.toInt * b.toInt)

def neg (a : Int64) : Except Overflow Int64 := fit .negate (-a.toInt)

def larger (a b : Int64) : Int64 := if a.toInt < b.toInt then b else a

def smaller (a b : Int64) : Int64 := if b.toInt < a.toInt then b else a

/-! ### Exactness -/

theorem fit?_eq_some_iff {n : Int} {w : Int64} : fit? n = some w ↔ w.toInt = n := by
  unfold fit?
  constructor
  · intro h
    split at h
    · rename_i hn
      cases h
      rw [Int64.toInt_minValue, Int64.toInt_maxValue] at hn
      exact Int64.toInt_ofInt_of_le hn.1 (Int.lt_of_le_sub_one hn.2)
    · cases h
  · rintro rfl
    have hl : Int64.minValue.toInt ≤ w.toInt := Int64.minValue_le_toInt w
    have hr : w.toInt ≤ Int64.maxValue.toInt := Int64.toInt_le w
    rw [if_pos ⟨hl, hr⟩, Int64.ofInt_toInt]

theorem fit?_toInt (w : Int64) : fit? w.toInt = some w := fit?_eq_some_iff.2 rfl

theorem fit_eq_ok_iff {fault : Overflow} {n : Int} {w : Int64} :
    fit fault n = .ok w ↔ w.toInt = n := by
  rw [← fit?_eq_some_iff]
  unfold fit
  cases fit? n <;> simp

theorem add_eq_ok_iff {a b c : Int64} : add a b = .ok c ↔ c.toInt = a.toInt + b.toInt :=
  fit_eq_ok_iff

theorem sub_eq_ok_iff {a b c : Int64} : sub a b = .ok c ↔ c.toInt = a.toInt - b.toInt :=
  fit_eq_ok_iff

theorem mul_eq_ok_iff {a b c : Int64} : mul a b = .ok c ↔ c.toInt = a.toInt * b.toInt :=
  fit_eq_ok_iff

theorem neg_eq_ok_iff {a c : Int64} : neg a = .ok c ↔ c.toInt = -a.toInt := fit_eq_ok_iff

theorem toInt_larger (a b : Int64) : (larger a b).toInt = max a.toInt b.toInt := by
  unfold larger
  split <;> omega

theorem toInt_smaller (a b : Int64) : (smaller a b).toInt = min a.toInt b.toInt := by
  unfold smaller
  split <;> omega

end Checked

end PoolIndexer
