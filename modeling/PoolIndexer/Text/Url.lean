import PoolIndexer.Text.Blank
import PoolIndexer.Text.Decimal
import PoolIndexer.Text.Hex
import PoolIndexer.Text.Utf8

/-!
# Url — whether a text is an absolute URL

A URL begins with a scheme and a colon.  The network schemes need a host behind any number of
slashes; other schemes have a host only behind two slashes.  Blanks and controls around the text,
and tabs and line breaks inside it, do not count.  Names outside ASCII are taken as they are.
-/

namespace PoolIndexer.Text.Url

def isAlpha (c : Char) : Bool := ('a' ≤ c && c ≤ 'z') || ('A' ≤ c && c ≤ 'Z')

def isHexDigit (c : Char) : Bool :=
  Decimal.isDigit c || ('a' ≤ c && c ≤ 'f') || ('A' ≤ c && c ≤ 'F')

def isEdge (c : Char) : Bool := c.toNat ≤ 32

def isLineBreak (c : Char) : Bool := c = '\t' || c = '\n' || c = '\r'

/-- The characters of a text that count. -/
def significant (cs : List Char) : List Char :=
  ((cs.dropWhile isEdge).reverse.dropWhile isEdge).reverse.filter (!isLineBreak ·)

/-! ### Schemes -/

inductive Scheme where
  /-- Needs a host. -/
  | network
  | file
  | other
  deriving DecidableEq

def Scheme.ofName (name : List Char) : Scheme :=
  let name := String.ofList (name.map Char.toLower)
  if ["http", "https", "ws", "wss", "ftp"].contains name then .network
  else if name = "file" then .file
  else .other

def isSchemeChar (c : Char) : Bool :=
  isAlpha c || Decimal.isDigit c || c = '+' || c = '-' || c = '.'

/-- The scheme and what stands behind its colon. -/
def scheme? (cs : List Char) : Option (Scheme × List Char) :=
  match cs.dropWhile isSchemeChar with
  | ':' :: rest => if (cs.head?.map isAlpha).getD false then
      some (.ofName (cs.takeWhile isSchemeChar), rest) else none
  | _ => none

/-! ### Addresses -/

/-- The number of one part of an address in decimal, octal or hexadecimal; a number of more than 32
bits counts as too large for any part. -/
def addressPart? : List Char → Option Nat
  | [] => none
  | '0' :: 'x' :: ds | '0' :: 'X' :: ds =>
    if ds.all isHexDigit then
      some (ds.foldl (fun n c => 16 * n + ((Hex.digitValue? (UInt8.ofNat c.toNat)).getD 0)) 0)
    else none
  | ['0'] => some 0
  | '0' :: ds =>
    if ds.all fun c => '0' ≤ c && c ≤ '7' then
      some (ds.foldl (fun n c => 8 * n + (c.toNat - 48)) 0)
    else none
  | ds => Decimal.value? ds

/-- Labels without the empty one behind a point at the end. -/
def labels (host : List Char) : List (List Char) :=
  let parts := splitOn (· = '.') host
  if parts.getLast? = some [] then parts.dropLast else parts

/-- A host whose last label is a number has to be an address. -/
def endsInNumber (host : List Char) : Bool :=
  match (labels host).getLast? with
  | some last => (!last.isEmpty && last.all Decimal.isDigit) || (addressPart? last).isSome
  | none => false

/-- At most four parts; the last one fills up what the others leave. -/
def isAddress4 (host : List Char) : Bool :=
  let parts := labels host
  match parts.mapM addressPart? with
  | none => false
  | some numbers =>
    parts.length ≤ 4 && numbers.dropLast.all (· ≤ 255) &&
      (numbers.getLast?.getD 0) < Nat.pow 256 (5 - parts.length)

/-- Four decimal numbers below 256 without leading zeros. -/
def isDotted (cs : List Char) : Bool :=
  let parts := splitOn (· = '.') cs
  parts.length = 4 && parts.all fun p =>
    match Decimal.value? p with
    | some n => n ≤ 255 && Decimal.digits n = p
    | none => false

/-- How many of the eight groups of an address a list of groups fills; only the last one may be
dotted. -/
def groupCount? : List (List Char) → Option Nat
  | [] => some 0
  | [g] =>
    if !g.isEmpty && g.length ≤ 4 && g.all isHexDigit then some 1
    else if isDotted g then some 2
    else none
  | g :: rest =>
    if !g.isEmpty && g.length ≤ 4 && g.all isHexDigit then (groupCount? rest).map (· + 1) else none

/-- The texts before and behind the first two colons in a row. -/
def gap? : List Char → Option (List Char × List Char)
  | [] => none
  | ':' :: ':' :: rest => some ([], rest)
  | c :: rest => (gap? rest).map fun (a, b) => (c :: a, b)

def groups (cs : List Char) : List (List Char) := if cs.isEmpty then [] else splitOn (· = ':') cs

/-- Eight groups, or fewer around one gap. -/
def isAddress6 (cs : List Char) : Bool :=
  match gap? cs with
  | none => groupCount? (groups cs) = some 8
  | some (before, after) =>
    before.all (· ≠ '.') &&
      match groupCount? (groups before), groupCount? (groups after) with
      | some m, some n => m + n ≤ 7
      | _, _ => false

/-! ### Hosts -/

/-- Replaces percent escapes by the octets they stand for. -/
def percentDecode : List UInt8 → List UInt8
  | [] => []
  | 37 :: h :: l :: rest =>
    match Hex.digitValue? h, Hex.digitValue? l with
    | some a, some b => UInt8.ofNat (16 * a + b) :: percentDecode rest
    | _, _ => 37 :: percentDecode (h :: l :: rest)
  | b :: rest => b :: percentDecode rest

def isForbidden (c : Char) : Bool := " #/:<>?@[\\]^|".toList.contains c

/-- Forbidden in a name that stands for a machine. -/
def isForbiddenInDomain (c : Char) : Bool :=
  isForbidden c || c = '%' || c.toNat < 32 || c.toNat = 127 || (128 ≤ c.toNat && isBlank c)

def bracketed? (host : List Char) : Option Bool :=
  match host with
  | '[' :: rest => some (rest.getLast? = some ']' && isAddress6 rest.dropLast)
  | _ => none

/-- A host of the special schemes: an address or a name. -/
def isDomain (host : List Char) : Bool :=
  match bracketed? host with
  | some ok => ok
  | none =>
    match Utf8.decode (percentDecode (Utf8.encode (String.ofList host))) with
    | .error _ => false
    | .ok name =>
      let name := name.toList
      !name.isEmpty && !name.any isForbiddenInDomain && (!endsInNumber name || isAddress4 name)

/-- A host of any other scheme. -/
def isOpaqueHost (host : List Char) : Bool :=
  match bracketed? host with
  | some ok => ok
  | none => !host.any fun c => isForbidden c || c.toNat = 0

/-! ### Authorities -/

def endsAuthority (special : Bool) (c : Char) : Bool :=
  c = '/' || c = '?' || c = '#' || (special && c = '\\')

/-- The text up to a colon outside brackets, and the rest. -/
def hostPart (inBrackets : Bool) : List Char → List Char × List Char
  | [] => ([], [])
  | c :: rest =>
    if c = ':' && !inBrackets then ([], c :: rest)
    else
      let inside := if c = '[' then true else if c = ']' then false else inBrackets
      let (host, rest) := hostPart inside rest
      (c :: host, rest)

def isPort (cs : List Char) : Bool :=
  match cs with
  | [] => true
  | ':' :: ds => ds.isEmpty || (match Decimal.value? ds with
    | some n => n < UInt16.size
    | none => false)
  | _ => false

/-- The text behind the last `@`, and whether there is a name in front of it. -/
def dropUser (authority : List Char) : List Char × Bool :=
  if authority.contains '@' then
    let host := (authority.reverse.takeWhile (· ≠ '@')).reverse
    (host, host.length + 1 < authority.length)
  else (authority, false)

/-- User, host and port. -/
def isAuthority (scheme : Scheme) (authority : List Char) : Bool :=
  let (rest, hasUser) := dropUser authority
  let (host, port) := hostPart false rest
  match scheme with
  | .other =>
    isOpaqueHost host && isPort port &&
      (!host.isEmpty || (port.isEmpty && !hasUser && !authority.contains '@'))
  | _ => isDomain host && isPort port

def isDriveLetter : List Char → Bool
  | [c, d] => isAlpha c && (d = ':' || d = '|')
  | _ => false

/-- What may stand behind the colon of a scheme. -/
def isRest (scheme : Scheme) (cs : List Char) : Bool :=
  match scheme with
  | .network =>
    let cs := cs.dropWhile fun c => c = '/' || c = '\\'
    isAuthority .network (cs.takeWhile (!endsAuthority true ·))
  | .other =>
    match cs with
    | '/' :: '/' :: cs => isAuthority .other (cs.takeWhile (!endsAuthority false ·))
    | _ => true
  | .file =>
    match cs with
    | a :: b :: cs =>
      if (a = '/' || a = '\\') && (b = '/' || b = '\\') then
        let host := cs.takeWhile (!endsAuthority true ·)
        host.isEmpty || isDriveLetter host || isDomain host
      else true
    | _ => true

def isAbsolute (s : String) : Bool :=
  match scheme? (significant s.toList) with
  | some (scheme, rest) => isRest scheme rest
  | none => false

end PoolIndexer.Text.Url
