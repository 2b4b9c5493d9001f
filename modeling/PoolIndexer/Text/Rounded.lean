import PoolIndexer.Text.Decimal

/-!
# Rounded — whole numbers as doubles in the fewest digits

A whole number goes to the nearest double, a tie to the even one.  The double is written with the
fewest significant digits that still lie nearest to it, and zeros up to the point.
-/

namespace PoolIndexer.Text.Rounded

/-- The number of binary digits of `n`. -/
def bitLength (n : Nat) : Nat := if n = 0 then 0 else n.log2 + 1

/-- `num / 2 ^ shift` to the nearest whole number, a tie to the even one. -/
def halve (num shift : Nat) : Nat :=
  let q := num / Nat.pow 2 shift
  let r := num % Nat.pow 2 shift
  let half := Nat.pow 2 shift / 2
  if r < half || shift = 0 then q else if half < r then q + 1 else if q % 2 = 0 then q else q + 1

/-- A double that is a whole number: a mantissa of at most 53 bits and a binary exponent. -/
structure Whole where
  mantissa : Nat
  exponent : Nat

def Whole.value (w : Whole) : Nat := w.mantissa * Nat.pow 2 w.exponent

def nearest (n : Nat) : Whole :=
  let e := bitLength n - 53
  let m := halve n e
  if m = Nat.pow 2 53 then ⟨Nat.pow 2 52, e + 1⟩ else ⟨m, e⟩

/-- Whether `x` goes to the double `w`; the ends of its range do if its mantissa is even. -/
def Whole.covers (w : Whole) (x : Nat) : Bool :=
  let v := 4 * w.value
  let up := 2 * Nat.pow 2 w.exponent
  let down := if w.mantissa = Nat.pow 2 52 then Nat.pow 2 w.exponent else up
  if w.mantissa % 2 = 0 then v ≤ 4 * x + down && 4 * x ≤ v + up
  else v < 4 * x + down && 4 * x < v + up

/-- The multiple of `10 ^ k` nearest to the double, if it goes to the double. -/
def Whole.onGrid (w : Whole) (k : Nat) : Option Nat :=
  let v := w.value
  let low := v / Nat.pow 10 k * Nat.pow 10 k
  let high := low + Nat.pow 10 k
  let (near, far) := if v - low ≤ high - v then (low, high) else (high, low)
  if w.covers near then some near else if w.covers far then some far else none

/-- The coarsest grid below `10 ^ k` that has a point for the double. -/
def Whole.shortest (w : Whole) : Nat → Nat
  | 0 => w.value
  | k + 1 =>
    match w.onGrid (k + 1) with
    | some n => n
    | none => w.shortest k

def ofNat (n : Nat) : List Char :=
  if n < Nat.pow 2 53 then Decimal.digits n else Decimal.digits ((nearest n).shortest 20)

def ofInt (n : Int) : List Char :=
  match n with
  | .ofNat k => ofNat k
  | .negSucc k => '-' :: ofNat (k + 1)

end PoolIndexer.Text.Rounded
