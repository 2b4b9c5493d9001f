import PoolIndexer.Text.Decimal

/-!
# Base64 — the padded standard alphabet, read strictly

Four symbols carry three octets.  All quads but the last hold four symbols; the last may end in one
or two `=`, which must bring it to four characters, and the unused bits of its last symbol must be
zero.
-/

namespace PoolIndexer.Text.Base64

inductive Fault where
  /-- An octet that is no symbol where it stands. -/
  | badSymbol (octet : UInt8) (index : Nat)
  /-- A single symbol is left over behind the last quad. -/
  | badLength (length : Nat)
  | badPadding
  /-- The last symbol has bits that belong to no octet. -/
  | badLastSymbol (octet : UInt8) (index : Nat)
  deriving DecidableEq

def Fault.message : Fault → String
  | .badSymbol b i =>
    "Invalid symbol " ++ Decimal.showNat b.toNat ++ ", offset " ++ Decimal.showNat i ++ "."
  | .badLength n => "Invalid input length: " ++ Decimal.showNat n
  | .badPadding => "Invalid padding"
  | .badLastSymbol b i =>
    "Invalid last symbol " ++ Decimal.showNat b.toNat ++ ", offset " ++ Decimal.showNat i ++ "."

def pad : UInt8 := 61

def symbolValue? (b : UInt8) : Option Nat :=
  let n := b.toNat
  if 65 ≤ n && n ≤ 90 then some (n - 65)
  else if 97 ≤ n && n ≤ 122 then some (n - 71)
  else if 48 ≤ n && n ≤ 57 then some (n + 4)
  else if n = 43 then some 62
  else if n = 47 then some 63
  else none

def symbol (n : Nat) : UInt8 :=
  if n < 26 then UInt8.ofNat (n + 65)
  else if n < 52 then UInt8.ofNat (n + 71)
  else if n < 62 then UInt8.ofNat (n - 4)
  else if n = 62 then 43
  else 47

/-! ### Writing -/

def encode : List UInt8 → List UInt8
  | [] => []
  | [a] => [symbol (a.toNat / 4), symbol (a.toNat % 4 * 16), pad, pad]
  | [a, b] =>
    [symbol (a.toNat / 4), symbol (a.toNat % 4 * 16 + b.toNat / 16), symbol (b.toNat % 16 * 4), pad]
  | a :: b :: c :: rest =>
    symbol (a.toNat / 4) :: symbol (a.toNat % 4 * 16 + b.toNat / 16) ::
      symbol (b.toNat % 16 * 4 + c.toNat / 64) :: symbol (c.toNat % 64) :: encode rest

/-! ### Reading -/

/-- The symbols of the last quad, each with its octet, and the number of pads behind them. -/
structure Tail where
  symbols : List (UInt8 × Nat)
  pads : Nat

/-- Reads the last quad, which begins at `start`; `seen` octets of it are behind. -/
def readTail (start : Nat) : Nat → Tail → List UInt8 → Except Fault Tail
  | _, t, [] => .ok t
  | seen, t, b :: rest =>
    if b = pad then
      if seen < 2 then .error (.badSymbol b (start + seen))
      else readTail start (seen + 1) { t with pads := t.pads + 1 } rest
    else if 0 < t.pads then .error (.badSymbol pad (start + t.symbols.length))
    else
      match symbolValue? b with
      | none => .error (.badSymbol b (start + seen))
      | some v => readTail start (seen + 1) { t with symbols := t.symbols ++ [(b, v)] } rest

/-- The octets of the last quad. -/
def finish (start : Nat) (t : Tail) : Except Fault (List UInt8) :=
  if (t.symbols.length + t.pads) % 4 ≠ 0 ∧ 2 ≤ t.symbols.length then .error .badPadding
  else
    match t.symbols with
    | [] => .ok []
    | [_] => .error (.badLength (start + 1))
    | [(_, v), (b, w)] =>
      if w % 16 ≠ 0 then .error (.badLastSymbol b (start + 1))
      else .ok [UInt8.ofNat (v * 4 + w / 16)]
    | [(_, v), (_, w), (b, x)] =>
      if x % 4 ≠ 0 then .error (.badLastSymbol b (start + 2))
      else .ok [UInt8.ofNat (v * 4 + w / 16), UInt8.ofNat (w % 16 * 16 + x / 4)]
    | (_, v) :: (_, w) :: (_, x) :: (_, y) :: _ =>
      .ok [UInt8.ofNat (v * 4 + w / 16), UInt8.ofNat (w % 16 * 16 + x / 4),
        UInt8.ofNat (x % 4 * 64 + y)]

def decodeTail (start : Nat) (octets : List UInt8) : Except Fault (List UInt8) :=
  match readTail start 0 ⟨[], 0⟩ octets with
  | .error f => .error f
  | .ok t => finish start t

/-- Reads quads as long as more than four octets are left. -/
def decodeFrom (start : Nat) : List UInt8 → Except Fault (List UInt8)
  | a :: b :: c :: d :: e :: rest =>
    match symbolValue? a, symbolValue? b, symbolValue? c, symbolValue? d with
    | none, _, _, _ => .error (.badSymbol a start)
    | some _, none, _, _ => .error (.badSymbol b (start + 1))
    | some _, some _, none, _ => .error (.badSymbol c (start + 2))
    | some _, some _, some _, none => .error (.badSymbol d (start + 3))
    | some v, some w, some x, some y =>
      (decodeFrom (start + 4) (e :: rest)).map
        ([UInt8.ofNat (v * 4 + w / 16), UInt8.ofNat (w % 16 * 16 + x / 4),
          UInt8.ofNat (x % 4 * 64 + y)] ++ ·)
  | octets => decodeTail start octets

/-- A single octet behind whole quads that is neither symbol nor pad is reported first. -/
def decode (octets : List UInt8) : Except Fault (List UInt8) :=
  match octets.getLast? with
  | some b =>
    if octets.length % 4 = 1 ∧ b ≠ pad ∧ (symbolValue? b).isNone then
      .error (.badSymbol b (octets.length - 1))
    else decodeFrom 0 octets
  | none => .ok []

end PoolIndexer.Text.Base64
