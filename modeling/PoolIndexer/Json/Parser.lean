import PoolIndexer.Json.Basic
import PoolIndexer.Text.Decimal
import PoolIndexer.Text.Hex

/-!
# Json.Parser — one document per text

A text is read when it is one value between blanks.  The tree is lenient where a reader may skip: a
number outside 64 bits keeps its token, and an unpaired surrogate leaves a string without text.
-/

namespace PoolIndexer.Json

def isJsonBlank (c : Char) : Bool := c = ' ' || c = '\n' || c = '\t' || c = '\r'

def skipBlank (cs : List Char) : List Char := cs.dropWhile isJsonBlank

/-! ### Strings -/

def hexDigit? (c : Char) : Option Nat :=
  if c.toNat < 128 then Text.Hex.digitValue? (UInt8.ofNat c.toNat) else none

def hexUnit? (a b c d : Char) : Option Nat :=
  match hexDigit? a, hexDigit? b, hexDigit? c, hexDigit? d with
  | some h, some i, some j, some k => some (((h * 16 + i) * 16 + j) * 16 + k)
  | _, _, _, _ => none

def shortEscape? (c : Char) : Option Nat :=
  match c with
  | '"' => some 34
  | '\\' => some 92
  | '/' => some 47
  | 'b' => some 8
  | 'f' => some 12
  | 'n' => some 10
  | 'r' => some 13
  | 't' => some 9
  | _ => none

/-- The code units of a string up to its closing quote, and what follows it. -/
def stringUnits (acc : List Nat) : List Char → Option (List Nat × List Char)
  | [] => none
  | '"' :: cs => some (acc.reverse, cs)
  | '\\' :: 'u' :: a :: b :: c :: d :: cs =>
    match hexUnit? a b c d with
    | some n => stringUnits (n :: acc) cs
    | none => none
  | '\\' :: e :: cs =>
    match shortEscape? e with
    | some n => stringUnits (n :: acc) cs
    | none => none
  | c :: cs =>
    if c.toNat < 0x20 || c = '\\' then none else stringUnits (c.toNat :: acc) cs

def isHigh (n : Nat) : Bool := 0xd800 ≤ n && n ≤ 0xdbff

def isLow (n : Nat) : Bool := 0xdc00 ≤ n && n ≤ 0xdfff

/-- Joins pairs of surrogates; nothing if one is unpaired. -/
def joinUnits : List Nat → Option (List Char)
  | [] => some []
  | [n] => if isHigh n || isLow n then none else some [Char.ofNat n]
  | n :: m :: rest =>
    if isHigh n && isLow m then
      (joinUnits rest).map (Char.ofNat (0x10000 + (n - 0xd800) * 0x400 + (m - 0xdc00)) :: ·)
    else if isHigh n || isLow n then none
    else (joinUnits (m :: rest)).map (Char.ofNat n :: ·)

/-- A string whose opening quote has been read. -/
def stringBody (cs : List Char) : Option (Option String × List Char) :=
  (stringUnits [] cs).map fun (units, rest) => ((joinUnits units).map String.ofList, rest)

/-! ### Numbers -/

def fraction? : List Char → Option (List Char × List Char)
  | '.' :: cs =>
    let ds := cs.takeWhile Text.Decimal.isDigit
    if ds.isEmpty then none else some ('.' :: ds, cs.dropWhile Text.Decimal.isDigit)
  | cs => some ([], cs)

def splitSign : List Char → List Char × List Char
  | '-' :: cs => (['-'], cs)
  | '+' :: cs => (['+'], cs)
  | cs => ([], cs)

def exponent? (cs : List Char) : Option (List Char × List Char) :=
  match cs with
  | [] => some ([], [])
  | e :: rest =>
    if e = 'e' || e = 'E' then
      let (sign, rest) := splitSign rest
      let ds := rest.takeWhile Text.Decimal.isDigit
      if ds.isEmpty then none
      else some (e :: sign ++ ds, rest.dropWhile Text.Decimal.isDigit)
    else some ([], cs)

/-- A run of digits without a superfluous zero in front. -/
def isWholePart : List Char → Bool
  | [] => false
  | ['0'] => true
  | c :: _ => c != '0'

/-- The number with these digits, sign and further token text. -/
def ofToken (negative : Bool) (ds more : List Char) : Json :=
  let token := String.ofList ((if negative then ['-'] else []) ++ ds ++ more)
  if more.isEmpty then
    match Text.Decimal.value? ds with
    | some n =>
      if negative then
        if 0 < n ∧ (Checked.fit? (-(n : Int))).isSome then .whole (-(n : Int)) else .real token
      else if n < UInt64.size then .whole n
      else .real token
    | none => .real token
  else .real token

def unsigned (negative : Bool) (cs : List Char) : Option (Json × List Char) :=
  let ds := cs.takeWhile Text.Decimal.isDigit
  if isWholePart ds then
    match fraction? (cs.dropWhile Text.Decimal.isDigit) with
    | none => none
    | some (frac, rest) =>
      match exponent? rest with
      | none => none
      | some (expo, rest) => some (ofToken negative ds (frac ++ expo), rest)
  else none

def number : List Char → Option (Json × List Char)
  | '-' :: cs => unsigned true cs
  | cs => unsigned false cs

/-! ### Values -/

/-- Items between commas up to the closing character; at most `fuel` of them. -/
def items (item : List Char → Option (α × List Char)) (close : Char) :
    Nat → List Char → Option (List α × List Char)
  | 0, _ => none
  | fuel + 1, cs =>
    match item cs with
    | none => none
    | some (x, cs) =>
      match skipBlank cs with
      | [] => none
      | c :: cs =>
        if c = ',' then (items item close fuel cs).map fun (xs, rest) => (x :: xs, rest)
        else if c = close then some ([x], cs)
        else none

/-- The items behind an opening bracket. -/
def bracketed (item : List Char → Option (α × List Char)) (close : Char) (fuel : Nat)
    (cs : List Char) : Option (List α × List Char) :=
  match skipBlank cs with
  | [] => none
  | c :: rest => if c = close then some ([], rest) else items item close fuel (c :: rest)

def field (value : List Char → Option (Json × List Char)) (cs : List Char) :
    Option ((Option String × Json) × List Char) :=
  match skipBlank cs with
  | '"' :: rest =>
    match stringBody rest with
    | none => none
    | some (key, rest) =>
      match skipBlank rest with
      | ':' :: rest => (value rest).map fun (v, rest) => ((key, v), rest)
      | _ => none
  | _ => none

/-- One value; `fuel` bounds its depth and the length of its lists. -/
def value : Nat → List Char → Option (Json × List Char)
  | 0, _ => none
  | fuel + 1, cs =>
    match skipBlank cs with
    | 'n' :: 'u' :: 'l' :: 'l' :: rest => some (.null, rest)
    | 't' :: 'r' :: 'u' :: 'e' :: rest => some (.bool true, rest)
    | 'f' :: 'a' :: 'l' :: 's' :: 'e' :: rest => some (.bool false, rest)
    | '"' :: rest => (stringBody rest).map fun (s, rest) => (.string s, rest)
    | '[' :: rest =>
      (bracketed (value fuel) ']' fuel rest).map fun (xs, rest) => (.array xs, rest)
    | '\x7b' :: rest =>
      (bracketed (field (value fuel)) '\x7d' fuel rest).map fun (fs, rest) => (.object fs, rest)
    | rest => number rest

def parseChars (cs : List Char) : Option Json :=
  match value (cs.length + 1) cs with
  | some (j, rest) => if (skipBlank rest).isEmpty then some j else none
  | none => none

def parse (s : String) : Option Json := parseChars s.toList

end PoolIndexer.Json
