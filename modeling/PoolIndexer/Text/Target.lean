import PoolIndexer.Text.Url

/-!
# Target — what a URL asks its server for

The target of a request is the path and the query of its URL.  Points in the path are resolved, and
characters that may not stand in a path or a query are written as escaped octets.
-/

namespace PoolIndexer.Text.Url

/-- A path, and the query behind it if there is one. -/
structure Target where
  path : String
  query : Option String
  deriving DecidableEq

def escapedOctet (b : UInt8) : List Char :=
  ['%', Hex.upperDigit (b.toNat / 16), Hex.upperDigit (b.toNat % 16)]

/-- Escapes the characters that `special` names, and all that are not printable ASCII. -/
def escapeWith (special : List Char) (cs : List Char) : List Char :=
  cs.flatMap fun c =>
    if c.toNat ≤ 32 || 127 ≤ c.toNat || special.contains c then
      (Utf8.encode (String.ofList [c])).flatMap escapedOctet
    else [c]

def escapePath : List Char → List Char := escapeWith ['"', '#', '<', '>', '?', '\x60', '\x7b', '\x7d']

def escapeQuery : List Char → List Char := escapeWith ['"', '#', '<', '>', '\'']

/-! ### Paths -/

def isPathSlash (c : Char) : Bool := c = '/' || c = '\\'

/-- A segment with its escaped points in the open. -/
def plainPoints : List Char → List Char
  | '%' :: '2' :: 'e' :: rest | '%' :: '2' :: 'E' :: rest => '.' :: plainPoints rest
  | c :: rest => c :: plainPoints rest
  | [] => []

/-- Adds a segment to those before it, the last of which stands first. -/
def addSegment (before : List (List Char)) (segment : List Char) (isLast : Bool) :
    List (List Char) :=
  match plainPoints segment with
  | ['.', '.'] => if isLast then [] :: before.tail else before.tail
  | ['.'] => if isLast then [] :: before else before
  | _ => escapePath segment :: before

def resolve (before : List (List Char)) : List (List Char) → List (List Char)
  | [] => before.reverse
  | s :: rest => resolve (addSegment before s rest.isEmpty) rest

/-- The text of an absolute path. -/
def pathText (cs : List Char) : String :=
  let segments := match splitOn isPathSlash cs with
    | [] :: rest@(_ :: _) => rest
    | parts => parts
  String.ofList ((resolve [] segments).flatMap ('/' :: ·))

/-! ### URLs -/

/-- What stands behind the authority of a network URL. -/
def behindAuthority (cs : List Char) : List Char :=
  (cs.dropWhile isPathSlash).dropWhile (!endsAuthority true ·)

/-- The target of a URL for requests over HTTP. -/
def target? (url : String) : Option Target :=
  match scheme? (significant url.toList) with
  | some (.network, rest) =>
    if isRest .network rest then
      let visible := (behindAuthority rest).takeWhile (· ≠ '#')
      let path := pathText (visible.takeWhile (· ≠ '?'))
      match visible.dropWhile (· ≠ '?') with
      | _ :: query => some ⟨path, some (String.ofList (escapeQuery query))⟩
      | [] => some ⟨path, none⟩
    else none
  | _ => none

/-- Adds names with values to the query. -/
def Target.withPairs (t : Target) (pairs : List (String × String)) : Target :=
  let added := "&".intercalate (pairs.map fun (k, v) => k ++ "=" ++ v)
  if pairs.isEmpty then t
  else
    match t.query with
    | none | some "" => { t with query := some added }
    | some q => { t with query := some (q ++ "&" ++ added) }

/-- The target as it is sent. -/
def Target.text (t : Target) : String :=
  match t.query with
  | none | some "" => t.path
  | some q => t.path ++ "?" ++ q

end PoolIndexer.Text.Url
