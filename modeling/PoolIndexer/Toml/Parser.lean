import PoolIndexer.Instant
import PoolIndexer.Json.Parser
import PoolIndexer.Toml.Tree

/-!
# Toml.Parser — a configuration text as a tree

Lines are headers, key-value pairs, comments or blank.  Whole numbers have 64 bits; other numbers
keep their token, and a date or time becomes an object that fits no text and no number.
-/

namespace PoolIndexer.Toml

/-- What has been read and the rest of the text. -/
abbrev Parsed (α : Type) := Option (α × List Char)

/-! ### Blanks, comments and line ends -/

def isSpace (c : Char) : Bool := c = ' ' || c = '\t'

def skipSpace (cs : List Char) : List Char := cs.dropWhile isSpace

/-- Characters that may stand in comments and, quotes apart, in strings. -/
def isPlain (c : Char) : Bool := c = '\t' || (32 ≤ c.toNat && c.toNat ≠ 127)

/-- The text behind a line end. -/
def lineEnd? : List Char → Option (List Char)
  | '\n' :: cs => some cs
  | '\r' :: '\n' :: cs => some cs
  | _ => none

def skipComment (cs : List Char) : List Char :=
  match cs with
  | '#' :: rest => rest.dropWhile isPlain
  | _ => cs

/-- Skips blanks, comments and line ends; `fuel` bounds the number of lines. -/
def skipLines : Nat → List Char → List Char
  | 0, cs => cs
  | fuel + 1, cs =>
    let rest := skipComment (skipSpace cs)
    match lineEnd? rest with
    | some rest => skipLines fuel rest
    | none => rest

/-! ### Strings -/

def scalar? (n : Nat) : Option Char := if n.isValidChar then some (Char.ofNat n) else none

def hexScalar? (digits : List Char) : Option Char := do
  let values ← digits.mapM Json.hexDigit?
  scalar? (values.foldl (fun n d => 16 * n + d) 0)

def shortEscape? (c : Char) : Option Char :=
  match c with
  | 'b' => some '\x08'
  | 't' => some '\t'
  | 'n' => some '\n'
  | 'f' => some '\x0c'
  | 'r' => some '\r'
  | '"' => some '"'
  | '\\' => some '\\'
  | _ => none

/-- The character that an escape behind its backslash stands for. -/
def escape? (cs : List Char) : Parsed Char :=
  match cs with
  | 'u' :: rest =>
    if rest.length < 4 then none else (hexScalar? (rest.take 4)).map fun c => (c, rest.drop 4)
  | 'U' :: rest =>
    if rest.length < 8 then none else (hexScalar? (rest.take 8)).map fun c => (c, rest.drop 8)
  | c :: rest => (shortEscape? c).map fun c => (c, rest)
  | [] => none

/-- A string on one line, up to its closing quote. -/
def basic (acc : List Char) : Nat → List Char → Parsed String
  | 0, _ | _, [] => none
  | fuel + 1, c :: cs =>
    if c = '"' then some (String.ofList acc.reverse, cs)
    else if c = '\\' then
      match escape? cs with
      | some (e, cs) => basic (e :: acc) fuel cs
      | none => none
    else if isPlain c then basic (c :: acc) fuel cs
    else none

/-- A string without escapes on one line, up to its closing quote. -/
def literal (cs : List Char) : Parsed String :=
  let body := cs.takeWhile fun c => isPlain c && c ≠ '\''
  match cs.dropWhile fun c => isPlain c && c ≠ '\'' with
  | '\'' :: rest => some (String.ofList body, rest)
  | _ => none

/-- Up to two quotes may stand right before the three that close. -/
def closing (quote : Char) (acc : List Char) (cs : List Char) : String × List Char :=
  let more := (cs.take 2).takeWhile (· = quote)
  (String.ofList (acc.reverse ++ more), cs.drop more.length)

def isClosing (quote : Char) (cs : List Char) : Bool := cs.take 3 = [quote, quote, quote]

/-- Skips the blanks and line ends behind a backslash at the end of a line. -/
def joinLines? (cs : List Char) : Option (List Char) :=
  match lineEnd? (skipSpace cs) with
  | some rest => some (skipLinesOnly rest.length rest)
  | none => none
where
  skipLinesOnly : Nat → List Char → List Char
    | 0, cs => cs
    | fuel + 1, cs =>
      match lineEnd? (skipSpace cs) with
      | some rest => skipLinesOnly fuel rest
      | none => skipSpace cs

/-- A string over several lines, up to its three closing quotes. -/
def longString (quote : Char) (acc : List Char) : Nat → List Char → Parsed String
  | 0, _ | _, [] => none
  | fuel + 1, c :: cs =>
    if isClosing quote (c :: cs) then some (closing quote acc (cs.drop 2))
    else
      match lineEnd? (c :: cs) with
      | some rest => longString quote ('\n' :: acc) fuel rest
      | none =>
        if c = '\\' && quote = '"' then
          match joinLines? cs with
          | some rest => longString quote acc fuel rest
          | none =>
            match escape? cs with
            | some (e, rest) => longString quote (e :: acc) fuel rest
            | none => none
        else if isPlain c then longString quote (c :: acc) fuel cs
        else none

/-- A string that may stand as a value. -/
def string? (cs : List Char) : Parsed String :=
  match cs with
  | [] => none
  | q :: rest =>
    if q ≠ '"' && q ≠ '\'' then none
    else if isClosing q cs then
      let body := rest.drop 2
      longString q [] (body.length + 1) ((lineEnd? body).getD body)
    else if q = '"' then basic [] (rest.length + 1) rest
    else literal rest

/-! ### Keys -/

def isBareChar (c : Char) : Bool :=
  ('a' ≤ c && c ≤ 'z') || ('A' ≤ c && c ≤ 'Z') || Text.Decimal.isDigit c || c = '_' || c = '-'

def simpleKey? (cs : List Char) : Parsed String :=
  match cs with
  | '"' :: rest => basic [] (rest.length + 1) rest
  | '\'' :: rest => literal rest
  | _ =>
    let name := cs.takeWhile isBareChar
    if name.isEmpty then none else some (String.ofList name, cs.dropWhile isBareChar)

/-- The tables on the way and the last key, and the rest behind blanks. -/
def keyPath : Nat → List Char → Parsed (List String × String)
  | 0, _ => none
  | fuel + 1, cs =>
    match simpleKey? (skipSpace cs) with
    | none => none
    | some (key, cs) =>
      match skipSpace cs with
      | '.' :: rest =>
        (keyPath fuel rest).map fun ((path, last), rest) => ((key :: path, last), rest)
      | rest => some (([], key), rest)

/-! ### Numbers and dates -/

/-- The digits of a run in which single underscores stand between digits. -/
def grouped? (isDigit : Char → Bool) : List Char → Option (List Char)
  | [] => none
  | [c] => if isDigit c then some [c] else none
  | c :: '_' :: rest => if isDigit c then (grouped? isDigit rest).map (c :: ·) else none
  | c :: rest => if isDigit c then (grouped? isDigit rest).map (c :: ·) else none

def radixValue? (radix : Nat) (cs : List Char) : Option Json := do
  let digits ← grouped? (fun c => ((Json.hexDigit? c).getD radix) < radix) cs
  let values ← digits.mapM Json.hexDigit?
  let n := values.foldl (fun n d => radix * n + d) 0
  if (Checked.fit? n).isSome then some (.whole n) else none

def decimalDigits? (cs : List Char) : Option (List Char) := do
  let digits ← grouped? Text.Decimal.isDigit cs
  if Json.isWholePart digits then some digits else none

def integer? (token : List Char) : Option Json :=
  match token with
  | '0' :: 'x' :: rest => radixValue? 16 rest
  | '0' :: 'o' :: rest => radixValue? 8 rest
  | '0' :: 'b' :: rest => radixValue? 2 rest
  | _ => do
    let (sign, rest) := Json.splitSign token
    let digits ← decimalDigits? rest
    let n ← Text.Decimal.value? digits
    let signed : Int := if sign = ['-'] then -(n : Int) else n
    if (Checked.fit? signed).isSome then some (.whole signed) else none

def isExponent (cs : List Char) : Bool :=
  (grouped? Text.Decimal.isDigit (Json.splitSign cs).2).isSome

def isExponentMark (c : Char) : Bool := c = 'e' || c = 'E'

/-- A fraction, an exponent, or both behind the whole part. -/
def isReal (token : List Char) : Bool :=
  let body := (Json.splitSign token).2
  let mantissa := body.takeWhile (!isExponentMark ·)
  let expo := body.dropWhile (!isExponentMark ·)
  let whole := mantissa.takeWhile (· ≠ '.')
  let frac := mantissa.dropWhile (· ≠ '.')
  body = "inf".toList || body = "nan".toList ||
    ((decimalDigits? whole).isSome && (!frac.isEmpty || !expo.isEmpty) &&
      (frac.isEmpty || (grouped? Text.Decimal.isDigit (frac.drop 1)).isSome) &&
      (expo.isEmpty || isExponent (expo.drop 1)))

/-- The number of a run of exactly `width` digits. -/
def fixed? (width : Nat) (cs : List Char) : Option Nat :=
  if cs.length = width then Text.Decimal.value? cs else none

def isDate (cs : List Char) : Bool :=
  match cs with
  | a :: b :: c :: d :: '-' :: e :: f :: '-' :: g :: h :: [] =>
    match fixed? 4 [a, b, c, d], fixed? 2 [e, f], fixed? 2 [g, h] with
    | some year, some month, some day =>
      1 ≤ month && month ≤ 12 && 1 ≤ day && day ≤ Date.daysInMonth year month
    | _, _, _ => false
  | _ => false

def isTime (cs : List Char) : Bool :=
  match cs with
  | a :: b :: ':' :: c :: d :: ':' :: e :: f :: rest =>
    (match fixed? 2 [a, b], fixed? 2 [c, d], fixed? 2 [e, f] with
      | some hour, some minute, some second => hour ≤ 23 && minute ≤ 59 && second ≤ 60
      | _, _, _ => false) &&
    (match rest with
      | [] => true
      | '.' :: ds => !ds.isEmpty && ds.all Text.Decimal.isDigit
      | _ => false)
  | _ => false

def isOffset (cs : List Char) : Bool :=
  match cs with
  | ['Z'] | ['z'] => true
  | s :: a :: b :: ':' :: c :: d :: [] =>
    (s = '+' || s = '-') &&
    (match fixed? 2 [a, b], fixed? 2 [c, d] with
      | some hour, some minute => hour ≤ 23 && minute ≤ 59
      | _, _ => false)
  | _ => false

def isTimeChar (c : Char) : Bool := Text.Decimal.isDigit c || c = ':' || c = '.'

/-- A time with or without an offset. -/
def isZonedTime (cs : List Char) : Bool :=
  let offset := cs.dropWhile isTimeChar
  isTime (cs.takeWhile isTimeChar) && (offset.isEmpty || isOffset offset)

def isDateTime (cs : List Char) : Bool :=
  isTime cs || isDate cs ||
    (isDate (cs.take 10) && (match cs.drop 10 with
      | sep :: rest => (sep = 'T' || sep = 't' || sep = ' ') && isZonedTime rest
      | [] => false))

def isTokenChar (c : Char) : Bool := isBareChar c || c = '+' || c = '.' || c = ':'

/-- A token; a blank between a date and a time belongs to it. -/
def token (cs : List Char) : List Char × List Char :=
  let front := cs.takeWhile isTokenChar
  let rest := cs.dropWhile isTokenChar
  match rest with
  | ' ' :: d :: _ =>
    if isDate front && Text.Decimal.isDigit d then
      (front ++ ' ' :: (rest.drop 1).takeWhile isTokenChar, (rest.drop 1).dropWhile isTokenChar)
    else (front, rest)
  | _ => (front, rest)

/-- The value of a token without quotes or brackets. -/
def atom? (t : List Char) : Option Json :=
  if t = "true".toList then some (.bool true)
  else if t = "false".toList then some (.bool false)
  else
    match integer? t with
    | some j => some j
    | none =>
      if isReal t then some (.real (String.ofList t))
      else if isDateTime t then some (.record [("datetime", .text (String.ofList t))])
      else none

/-! ### Values -/

/-- The items of an array up to its closing bracket. -/
def items (value : List Char → Parsed Json) (acc : List Json) : Nat → List Char → Parsed (List Json)
  | 0, _ => none
  | fuel + 1, cs =>
    match skipLines cs.length cs with
    | ']' :: rest => some (acc.reverse, rest)
    | cs =>
      match value cs with
      | none => none
      | some (j, cs) =>
        match skipLines cs.length cs with
        | ']' :: rest => some ((j :: acc).reverse, rest)
        | ',' :: rest => items value (j :: acc) fuel rest
        | _ => none

/-- A key, `=` and a value. -/
def pair? (value : List Char → Parsed Json) (cs : List Char) :
    Parsed ((List String × String) × Json) :=
  match keyPath cs.length cs with
  | some (path, '=' :: rest) => (value (skipSpace rest)).map fun (j, rest) => ((path, j), rest)
  | _ => none

/-- The pairs of an inline table up to its closing brace. -/
def pairs (value : List Char → Parsed Json) : Nat → Fields → List Char → Parsed Fields
  | 0, _, _ => none
  | fuel + 1, fields, cs =>
    match pair? value cs with
    | none => none
    | some (((path, key), j), cs) =>
      match fields.addPath path key j .header with
      | none => none
      | some fields =>
        match skipSpace cs with
        | '\x7d' :: rest => some (fields, rest)
        | ',' :: rest => pairs value fuel fields rest
        | _ => none

/-- One value; `fuel` bounds its depth and the length of its lists. -/
def value : Nat → List Char → Parsed Json
  | 0, _ => none
  | fuel + 1, cs =>
    match cs with
    | '[' :: rest => (items (value fuel) [] fuel rest).map fun (xs, rest) => (.array xs, rest)
    | '\x7b' :: rest =>
      match skipSpace rest with
      | '\x7d' :: rest => some (.object [], rest)
      | _ =>
        (pairs (value fuel) fuel [] rest).map fun (fields, rest) =>
          (.object (fieldsJson fields), rest)
    | q :: _ =>
      if q = '"' || q = '\'' then (string? cs).map fun (s, rest) => (.text s, rest)
      else
        let (t, rest) := token cs
        (atom? t).map fun j => (j, rest)
    | [] => none

/-! ### Documents -/

/-- The tables so far and the path of the one that is open. -/
structure Document where
  root : Fields
  path : List String

namespace Document

def empty : Document := ⟨[], []⟩

/-- Opens the table of a header. -/
def openTable (d : Document) (array : Bool) (path : List String) (key : String) :
    Option Document :=
  let enter := if array then Fields.extend key else Fields.setHeader key
  (d.root.change false (fun _ fields => enter fields) path .header).map fun root =>
    ⟨root, path ++ [key]⟩

def add (d : Document) (path : List String) (key : String) (j : Json) : Option Document :=
  (d.root.change false (fun origin fields => fields.addPath path key j origin) d.path .header).map
    fun root => { d with root }

end Document

/-- A header behind its first bracket. -/
def header? (d : Document) (cs : List Char) : Parsed Document :=
  let (array, body) := match cs with
    | '[' :: rest => (true, rest)
    | _ => (false, cs)
  match keyPath (body.length + 1) body with
  | none => none
  | some ((path, key), rest) =>
    let rest := match array, rest with
      | true, ']' :: ']' :: rest => some rest
      | false, ']' :: rest => some rest
      | _, _ => none
    rest.bind fun rest => (d.openTable array path key).map fun d => (d, rest)

def line? (d : Document) (cs : List Char) : Parsed Document :=
  match cs with
  | [] => some (d, [])
  | c :: rest =>
    if c = '#' || c = '\n' || c = '\r' then some (d, cs)
    else if c = '[' then header? d rest
    else
      match pair? (value (cs.length + 1)) cs with
      | none => none
      | some (((path, key), j), rest) => (d.add path key j).map fun d => (d, rest)

def lines : Nat → Document → List Char → Option Document
  | 0, _, _ => none
  | fuel + 1, d, cs =>
    match line? d (skipSpace cs) with
    | none => none
    | some (d, cs) =>
      match skipComment (skipSpace cs) with
      | [] => some d
      | cs =>
        match lineEnd? cs with
        | some rest => lines fuel d rest
        | none => none

/-- The document of a text; a mark of the octet order in front does not count. -/
def parse (s : String) : Option Json :=
  let cs := match s.toList with
    | '\ufeff' :: rest => rest
    | cs => cs
  (lines (cs.length + 1) .empty cs).map fun d => .object (fieldsJson d.root)

end PoolIndexer.Toml
