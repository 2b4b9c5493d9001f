import PoolIndexer.Checked
import PoolIndexer.Text.Blank
import PoolIndexer.Text.Decimal

/-!
# Instant — a point in time in the calendar of UTC

An instant is a date of the Gregorian calendar, a time of day and a fraction of nanoseconds; second
sixty is a leap second.  It is written in RFC 3339 with `Z` and no, three, six or nine digits of
fraction, and read from any offset in a relaxed form: blanks may stand before the fields of the date
and the time, a number may have fewer digits, and digits of fraction beyond the ninth are dropped.
-/

namespace PoolIndexer

structure Date where
  year : Int
  month : Nat
  day : Nat
  deriving DecidableEq

namespace Date

def isLeap (year : Int) : Bool := year % 4 = 0 && (year % 100 ≠ 0 || year % 400 = 0)

def daysInMonth (year : Int) (month : Nat) : Nat :=
  match month with
  | 2 => if isLeap year then 29 else 28
  | 4 | 6 | 9 | 11 => 30
  | _ => 31

/-- The years that a date may have. -/
def minYear : Int := -262143

def maxYear : Int := 262142

def isValid (d : Date) : Bool :=
  minYear ≤ d.year && d.year ≤ maxYear && 1 ≤ d.month && d.month ≤ 12 && 1 ≤ d.day &&
    d.day ≤ daysInMonth d.year d.month

def next (d : Date) : Date :=
  if d.day < daysInMonth d.year d.month then { d with day := d.day + 1 }
  else if d.month < 12 then ⟨d.year, d.month + 1, 1⟩
  else ⟨d.year + 1, 1, 1⟩

def previous (d : Date) : Date :=
  if 1 < d.day then { d with day := d.day - 1 }
  else if 1 < d.month then ⟨d.year, d.month - 1, daysInMonth d.year (d.month - 1)⟩
  else ⟨d.year - 1, 12, 31⟩

/-- Days from the first of January 1970; years begin in March while counting. -/
def dayNumber (d : Date) : Int :=
  let y := if d.month ≤ 2 then d.year - 1 else d.year
  let m : Int := (d.month + 9) % 12
  365 * y + y / 4 - y / 100 + y / 400 + (153 * m + 2) / 5 + d.day - 719469

/-- The date with that day number. -/
def ofDayNumber (n : Int) : Date :=
  let z := n + 719468
  let era := z / 146097
  let doe := z % 146097
  let yoe := (doe - doe / 1460 + doe / 36524 - doe / 146096) / 365
  let doy := doe - (365 * yoe + yoe / 4 - yoe / 100)
  let mp := (5 * doy + 2) / 153
  let day := doy - (153 * mp + 2) / 5 + 1
  let month := if mp < 10 then mp + 3 else mp - 9
  ⟨yoe + era * 400 + (if month ≤ 2 then 1 else 0), month.toNat, day.toNat⟩

end Date

structure Instant where
  date : Date
  hour : Nat
  minute : Nat
  second : Nat
  nano : Nat
  deriving DecidableEq

namespace Instant

/-! ### Counting -/

/-- Nanoseconds since 1970; a time that does not fit into 64 bits counts as the last one. -/
def nanos (t : Instant) : Int64 :=
  let seconds : Int := t.date.dayNumber * 86400 + t.hour * 3600 + t.minute * 60 + t.second
  (Checked.fit? (seconds * 1000000000 + t.nano)).getD Int64.maxValue

/-- The instant that many seconds after the beginning of 1970. -/
def ofSeconds (n : Int) : Instant :=
  let rest := (n % 86400).toNat
  ⟨Date.ofDayNumber (n / 86400), rest / 3600, rest / 60 % 60, rest % 60, 0⟩

/-! ### Writing -/

open Text.Decimal in
/-- Years of four digits stand alone, all others carry a sign. -/
def yearChars (year : Int) : List Char :=
  if 0 ≤ year ∧ year ≤ 9999 then lastDigits 4 year.toNat
  else if 0 ≤ year then '+' :: padded 4 year.toNat
  else '-' :: padded 4 (-year).toNat

open Text.Decimal in
def fractionChars (nano : Nat) : List Char :=
  if nano = 0 then []
  else if nano % 1000000 = 0 then '.' :: lastDigits 3 (nano / 1000000)
  else if nano % 1000 = 0 then '.' :: lastDigits 6 (nano / 1000)
  else '.' :: lastDigits 9 nano

open Text.Decimal in
def renderChars (t : Instant) : List Char :=
  yearChars t.date.year ++ '-' :: lastDigits 2 t.date.month ++ '-' :: lastDigits 2 t.date.day ++
    'T' :: lastDigits 2 t.hour ++ ':' :: lastDigits 2 t.minute ++ ':' :: lastDigits 2 t.second ++
    fractionChars t.nano ++ ['Z']

def render (t : Instant) : String := String.ofList (renderChars t)

/-! ### Reading -/

/-- A number of one to `width` digits and what follows it. -/
def number? (width : Nat) (cs : List Char) : Option (Nat × List Char) :=
  let ds := (cs.take width).takeWhile Text.Decimal.isDigit
  (Text.Decimal.value? ds).map fun n => (n, cs.drop ds.length)

/-- A number of any length; its value must fit into 64 bits. -/
def longNumber? (cs : List Char) : Option (Int × List Char) :=
  let ds := cs.takeWhile Text.Decimal.isDigit
  match Text.Decimal.value? ds with
  | some n => if (Checked.fit? n).isSome then some (n, cs.drop ds.length) else none
  | none => none

/-- Up to four digits, or a sign and any number of digits. -/
def year? (cs : List Char) : Option (Int × List Char) :=
  match Text.trimLeft cs with
  | '-' :: cs => (longNumber? cs).map fun (n, rest) => (-n, rest)
  | '+' :: cs => longNumber? cs
  | cs => (number? 4 cs).map fun (n, rest) => ((n : Int), rest)

/-- A separator after blanks. -/
def separator? (c : Char) (cs : List Char) : Option (List Char) :=
  match Text.trimLeft cs with
  | d :: rest => if d = c then some rest else none
  | [] => none

def twoDigits? (cs : List Char) : Option (Nat × List Char) := number? 2 (Text.trimLeft cs)

def date? (cs : List Char) : Option (Date × List Char) := do
  let (year, cs) ← year? cs
  let cs ← separator? '-' cs
  let (month, cs) ← twoDigits? cs
  let cs ← separator? '-' cs
  let (day, cs) ← twoDigits? cs
  pure (⟨year, month, day⟩, cs)

/-- The fraction behind a point: its first nine digits. -/
def fraction? (cs : List Char) : Option (Nat × List Char) :=
  match cs with
  | '.' :: cs => do
    let (n, _) ← number? 9 cs
    let ds := cs.takeWhile Text.Decimal.isDigit
    pure (n * Nat.pow 10 (9 - min 9 ds.length), cs.drop ds.length)
  | cs => some (0, cs)

structure Clock where
  hour : Nat
  minute : Nat
  second : Nat
  nano : Nat

def clock? (cs : List Char) : Option (Clock × List Char) := do
  let (hour, cs) ← twoDigits? cs
  let cs ← separator? ':' cs
  let (minute, cs) ← twoDigits? cs
  let cs ← separator? ':' cs
  let (second, cs) ← twoDigits? cs
  let (nano, cs) ← fraction? cs
  if hour < 24 ∧ minute < 60 ∧ second ≤ 60 then pure (⟨hour, minute, second, nano⟩, cs) else none

def isUtcWord (cs : List Char) : Bool := (cs.take 3).map Char.toUpper == ['U', 'T', 'C']

def isColonOrBlank (c : Char) : Bool := c = ':' || Text.isBlank c

/-- The minutes of an offset of hours and minutes. -/
def offsetBody? (cs : List Char) : Option (Nat × List Char) :=
  match cs with
  | a :: b :: cs =>
    match Text.Decimal.value? [a, b], cs.dropWhile isColonOrBlank with
    | some h, c :: d :: rest =>
      match Text.Decimal.value? [c, d] with
      | some m => if m < 60 then some (h * 60 + m, rest) else none
      | none => none
    | _, _ => none
  | _ => none

/-- The offset from UTC in minutes and what follows it. -/
def offset? (cs : List Char) : Option (Int × List Char) :=
  let cs := Text.trimLeft cs
  if isUtcWord cs then some (0, cs.drop 3)
  else
    match cs with
    | [] => none
    | c :: rest =>
      if c = 'Z' ∨ c = 'z' then some (0, rest)
      else if c = '+' then (offsetBody? rest).map fun (m, rest) => ((m : Int), rest)
      else if c = '-' ∨ c = '\u2212' then
        (offsetBody? rest).map fun (m, rest) => (-(m : Int), rest)
      else none

/-- The instant at which a clock that is `offset` minutes ahead of UTC shows that date and time. -/
def ofLocal? (d : Date) (c : Clock) (offset : Int) : Option Instant :=
  let minutes : Int := c.hour * 60 + c.minute - offset
  let date := if minutes < 0 then d.previous else if minutes < 1440 then d else d.next
  let ofDay := (minutes % 1440).toNat
  if d.isValid ∧ date.isValid ∧ -1440 < offset ∧ offset < 1440 then
    some ⟨date, ofDay / 60, ofDay % 60, c.second, c.nano⟩
  else none

def parseChars? (cs : List Char) : Option Instant := do
  let (d, cs) ← date? cs
  match cs with
  | [] => none
  | t :: cs =>
    if t = 'T' ∨ t = 't' ∨ t = ' ' then
      let (c, cs) ← clock? cs
      let (offset, cs) ← offset? cs
      if (Text.trimLeft cs).isEmpty then ofLocal? d c offset else none
    else none

def parse? (s : String) : Option Instant := parseChars? s.toList

end Instant

end PoolIndexer
