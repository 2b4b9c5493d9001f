import PoolIndexer.Json.Basic
import PoolIndexer.Text.Decimal
import PoolIndexer.Text.Hex

/-!
# Json.Printer — a document without blanks

Fields are written in their order.  Quotes, backslashes and the controls below `0x20` are escaped,
all other characters stand for themselves.
-/

namespace PoolIndexer.Json

def escapeChar (c : Char) : List Char :=
  match c with
  | '"' => ['\\', '"']
  | '\\' => ['\\', '\\']
  | '\n' => ['\\', 'n']
  | '\r' => ['\\', 'r']
  | '\t' => ['\\', 't']
  | '\x08' => ['\\', 'b']
  | '\x0c' => ['\\', 'f']
  | c =>
    if c.toNat < 0x20 then
      ['\\', 'u', '0', '0', Text.Hex.lowerDigit (c.toNat / 16), Text.Hex.lowerDigit (c.toNat % 16)]
    else [c]

def quote (s : String) : List Char := '"' :: s.toList.flatMap escapeChar ++ ['"']

/-- A string without text is written as the empty string. -/
def quoteOr (s : Option String) : List Char := quote (s.getD "")

def commaSeparated : List (List Char) → List Char
  | [] => []
  | [x] => x
  | x :: xs => x ++ ',' :: commaSeparated xs

mutual

def renderChars : Json → List Char
  | .null => ['n', 'u', 'l', 'l']
  | .bool true => ['t', 'r', 'u', 'e']
  | .bool false => ['f', 'a', 'l', 's', 'e']
  | .whole n => Text.Decimal.ofInt n
  | .real token => token.toList
  | .string s => quoteOr s
  | .array xs => '[' :: commaSeparated (renderItems xs) ++ [']']
  | .object fs => '\x7b' :: commaSeparated (renderFields fs) ++ ['\x7d']

def renderItems : List Json → List (List Char)
  | [] => []
  | x :: xs => renderChars x :: renderItems xs

def renderFields : List (Option String × Json) → List (List Char)
  | [] => []
  | (k, v) :: fs => (quoteOr k ++ ':' :: renderChars v) :: renderFields fs

end

def render (j : Json) : String := String.ofList (renderChars j)

end PoolIndexer.Json
