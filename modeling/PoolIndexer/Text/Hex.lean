/-!
# Hex — octets as pairs of hexadecimal digits

Writing takes the case of the digits as an argument; reading accepts both cases and refuses a text
of odd length before it looks at any digit.
-/

namespace PoolIndexer.Text.Hex

inductive Fault where
  | oddLength
  /-- The octet that is no digit and its place in the text. -/
  | badDigit (octet : UInt8) (index : Nat)
  deriving DecidableEq

def lowerDigit (n : Nat) : Char :=
  if n < 10 then Char.ofNat (48 + n) else Char.ofNat (87 + n)

def upperDigit (n : Nat) : Char :=
  if n < 10 then Char.ofNat (48 + n) else Char.ofNat (55 + n)

def encodeWith (digit : Nat → Char) : List UInt8 → List Char
  | [] => []
  | b :: bs => digit (b.toNat / 16) :: digit (b.toNat % 16) :: encodeWith digit bs

def lower (bs : List UInt8) : String := String.ofList (encodeWith lowerDigit bs)

def upper (bs : List UInt8) : String := String.ofList (encodeWith upperDigit bs)

def digitValue? (b : UInt8) : Option Nat :=
  let n := b.toNat
  if 48 ≤ n && n ≤ 57 then some (n - 48)
  else if 65 ≤ n && n ≤ 70 then some (n - 55)
  else if 97 ≤ n && n ≤ 102 then some (n - 87)
  else none

def pairs (index : Nat) : List UInt8 → Except Fault (List UInt8)
  | [] => .ok []
  | [_] => .error .oddLength
  | a :: b :: rest =>
    match digitValue? a, digitValue? b with
    | none, _ => .error (.badDigit a index)
    | some _, none => .error (.badDigit b (index + 1))
    | some h, some l => (pairs (index + 2) rest).map (UInt8.ofNat (16 * h + l) :: ·)

/-- The octets written by the octets of a text. -/
def decode (octets : List UInt8) : Except Fault (List UInt8) :=
  if octets.length % 2 = 1 then .error .oddLength else pairs 0 octets

def decodeText (s : String) : Except Fault (List UInt8) := decode s.toUTF8.toList

end PoolIndexer.Text.Hex
