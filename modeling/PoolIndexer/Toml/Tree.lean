import PoolIndexer.Json.Basic

/-!
# Toml.Tree — tables while they are being filled

A table is made by a header, implied by the header of a table below it, or made by a dotted key.
Only an implied table can still get a header, and only a table made by dotted keys can be extended by
one.  An array of tables is extended at its last table.
-/

namespace PoolIndexer.Toml

inductive Origin where
  | header
  | implied
  | dotted
  deriving DecidableEq

inductive Node where
  /-- A finished value; an inline table is one. -/
  | value (j : Json)
  | table (origin : Origin) (fields : List (String × Node))
  | tables (items : List (List (String × Node)))

abbrev Fields := List (String × Node)

namespace Fields

def put (key : String) (n : Node) : Fields → Fields
  | [] => [(key, n)]
  | (k, m) :: rest => if k = key then (k, n) :: rest else (k, m) :: put key n rest

/-- Changes the table at the end of a path and makes the tables on the way that are missing.  `f`
gets the origin and the fields of that table. -/
def change (dotted : Bool) (f : Origin → Fields → Option Fields) :
    List String → Origin → Fields → Option Fields
  | [], origin, fields => f origin fields
  | key :: path, _, fields =>
    match fields.lookup key with
    | none =>
      let origin := if dotted then .dotted else .implied
      (change dotted f path origin []).map fun sub => fields.put key (.table origin sub)
    | some (.value _) => none
    | some (.tables items) =>
      match items.getLast? with
      | none => none
      | some last =>
        (change dotted f path .header last).map fun sub =>
          fields.put key (.tables (items.dropLast ++ [sub]))
    | some (.table origin sub) =>
      if dotted && origin = .header then none
      else (change dotted f path origin sub).map fun sub => fields.put key (.table origin sub)

/-- Gives a table a header. -/
def setHeader (key : String) (fields : Fields) : Option Fields :=
  match fields.lookup key with
  | none => some (fields.put key (.table .header []))
  | some (.table .implied sub) => some (fields.put key (.table .header sub))
  | some _ => none

/-- Begins another table of an array. -/
def extend (key : String) (fields : Fields) : Option Fields :=
  match fields.lookup key with
  | none => some (fields.put key (.tables [[]]))
  | some (.tables items) => some (fields.put key (.tables (items ++ [[]])))
  | some _ => none

/-- Adds a value under a key that is the end of a path with or without dots. -/
def add (throughDots : Bool) (key : String) (j : Json) (origin : Origin) (fields : Fields) :
    Option Fields :=
  if (origin = .dotted) ≠ throughDots || (fields.lookup key).isSome then none
  else some (fields.put key (.value j))

/-- Adds a value under a dotted path, seen from a table. -/
def addPath (path : List String) (key : String) (j : Json) (origin : Origin) (fields : Fields) :
    Option Fields :=
  change true (add (!path.isEmpty) key j) path origin fields

end Fields

/-! ### Finished trees -/

mutual

def Node.toJson : Node → Json
  | .value j => j
  | .table _ fields => .object (fieldsJson fields)
  | .tables items => .array (itemsJson items)

def fieldsJson : List (String × Node) → List (Option String × Json)
  | [] => []
  | (k, n) :: rest => (some k, n.toJson) :: fieldsJson rest

def itemsJson : List (List (String × Node)) → List Json
  | [] => []
  | item :: rest => .object (fieldsJson item) :: itemsJson rest

end

end PoolIndexer.Toml
