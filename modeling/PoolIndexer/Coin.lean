import PoolIndexer.Text.Blank
import PoolIndexer.Text.Decimal

/-!
# Coin — an amount of an asset, in units of `10⁻⁸`

`"<amount> <asset>"` is one coin; a list of coins stands between commas.  The bank writes the amount
and the denomination without a blank.
-/

namespace PoolIndexer

structure Coin where
  asset : String
  e8 : Int64
  deriving DecidableEq

namespace Coin

/-- No coin at all: no asset, amount zero. -/
def none : Coin := ⟨"", 0⟩

def parseChars? (cs : List Char) : Option Coin :=
  match Text.words cs with
  | [amount, asset] =>
    match Text.Decimal.int64? amount with
    | some e8 => if 0 ≤ e8.toInt then some ⟨String.ofList asset, e8⟩ else Option.none
    | Option.none => Option.none
  | _ => Option.none

def parse? (s : String) : Option Coin := parseChars? s.toList

def render (c : Coin) : List Char := Text.Decimal.ofInt c.e8.toInt ++ ' ' :: c.asset.toList

/-- The parts of a list of coins that are not blank, without the blanks around them. -/
def parts (cs : List Char) : List (List Char) :=
  ((Text.splitOn (· = ',') cs).map Text.trim).filter fun p => !p.isEmpty

/-- Every part must be a coin. -/
def parseList? (s : String) : Option (List Coin) := (parts s.toList).mapM parseChars?

/-- An amount directly followed by a denomination. -/
def parseDenom? (s : String) : Option (Int64 × String) :=
  let cs := s.toList
  let amount := cs.takeWhile Text.Decimal.isDigit
  let denom := cs.dropWhile Text.Decimal.isDigit
  if denom.isEmpty then Option.none
  else (Text.Decimal.int64? amount).map fun n => (n, String.ofList denom)

end Coin

end PoolIndexer
