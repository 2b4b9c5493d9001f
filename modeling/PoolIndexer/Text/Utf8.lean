import PoolIndexer.Text.Decimal

/-!
# Utf8 — octets read as text, and where they stop being text

A well-formed sequence has the shape of table 3-7 of the Unicode standard: the second octet of some
leads has a narrower range, so that no surrogate, no overlong form and nothing above `10FFFF` is
read.  A fault names the first octet that begins no well-formed sequence and how many octets of it
can be skipped, or says that the text ended inside a sequence.
-/

namespace PoolIndexer.Text.Utf8

inductive Fault where
  /-- `skip` octets from `index` begin no character. -/
  | invalid (skip index : Nat)
  /-- The octets from `index` on begin a character that is cut short. -/
  | incomplete (index : Nat)
  deriving DecidableEq

def Fault.message : Fault → String
  | .invalid skip index =>
    "invalid utf-8 sequence of " ++ Decimal.showNat skip ++ " bytes from index " ++
      Decimal.showNat index
  | .incomplete index => "incomplete utf-8 byte sequence from index " ++ Decimal.showNat index

def isContinuation (b : UInt8) : Bool := 0x80 ≤ b.toNat && b.toNat ≤ 0xbf

/-- Whether `b` may follow the lead octet of a sequence of three or four. -/
def isSecond (lead b : UInt8) : Bool :=
  let l := lead.toNat
  let n := b.toNat
  let lo := if l = 0xe0 then 0xa0 else if l = 0xf0 then 0x90 else 0x80
  let hi := if l = 0xed then 0x9f else if l = 0xf4 then 0x8f else 0xbf
  lo ≤ n && n ≤ hi

def join2 (a b : UInt8) : Char := Char.ofNat ((a.toNat % 32) * 64 + b.toNat % 64)

def join3 (a b c : UInt8) : Char :=
  Char.ofNat (((a.toNat % 16) * 64 + b.toNat % 64) * 64 + c.toNat % 64)

def join4 (a b c d : UInt8) : Char :=
  Char.ofNat ((((a.toNat % 8) * 64 + b.toNat % 64) * 64 + c.toNat % 64) * 64 + d.toNat % 64)

/-- What stands at the front of the octets. -/
inductive Front where
  | character (c : Char) (width : Nat)
  | bad (skip : Nat)
  | cut

/-- The first character of `a :: rest`. -/
def front (a : UInt8) (rest : List UInt8) : Front :=
  let n := a.toNat
  if n < 0x80 then .character (Char.ofNat n) 1
  else if n < 0xc2 || 0xf5 ≤ n then .bad 1
  else
    match rest with
    | [] => .cut
    | b :: rest =>
      if n < 0xe0 then if isContinuation b then .character (join2 a b) 2 else .bad 1
      else if !isSecond a b then .bad 1
      else
        match rest with
        | [] => .cut
        | c :: rest =>
          if !isContinuation c then .bad 2
          else if n < 0xf0 then .character (join3 a b c) 3
          else
            match rest with
            | [] => .cut
            | d :: _ => if isContinuation d then .character (join4 a b c d) 4 else .bad 3

/-- The characters from position `index` on, `skip` octets of the last one still to be passed. -/
def decodeFrom (index skip : Nat) : List UInt8 → Except Fault (List Char)
  | [] => .ok []
  | a :: rest =>
    match skip with
    | skip + 1 => decodeFrom (index + 1) skip rest
    | 0 =>
      match front a rest with
      | .character c width => (decodeFrom (index + 1) (width - 1) rest).map (c :: ·)
      | .bad skip => .error (.invalid skip index)
      | .cut => .error (.incomplete index)

def decode (octets : List UInt8) : Except Fault String :=
  (decodeFrom 0 0 octets).map String.ofList

def encode (s : String) : List UInt8 := s.toUTF8.toList

end PoolIndexer.Text.Utf8
