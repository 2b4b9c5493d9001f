import PoolIndexer.Text.Hex
import PoolIndexer.Text.Printable

/-!
# Quoted — a text shown between quotes

The quote itself, the backslash and the common controls get a short escape; every other character
that is not printable is written by its code point in braces.
-/

namespace PoolIndexer.Text.Quoted

def hexDigits (n : Nat) : List Char :=
  if n < 16 then [Hex.lowerDigit n] else hexDigits (n / 16) ++ [Hex.lowerDigit (n % 16)]

/-- The code point of `c` between braces. -/
def byCodePoint (c : Char) : List Char := "\\u\x7b".toList ++ hexDigits c.toNat ++ ['\x7d']

def escape (quote c : Char) : List Char :=
  if c = '\x00' then ['\\', '0']
  else if c = '\t' then ['\\', 't']
  else if c = '\r' then ['\\', 'r']
  else if c = '\n' then ['\\', 'n']
  else if c = quote || c = '\\' then ['\\', c]
  else if isPrintable c then [c]
  else byCodePoint c

/-- A text between double quotes. -/
def text (s : String) : String :=
  String.ofList ('"' :: s.toList.flatMap (escape '"') ++ ['"'])

/-- A character between single quotes. -/
def character (c : Char) : String := String.ofList ('\'' :: escape '\'' c ++ ['\''])

end PoolIndexer.Text.Quoted
