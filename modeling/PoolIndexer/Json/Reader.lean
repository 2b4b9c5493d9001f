import PoolIndexer.Json.Basic
import PoolIndexer.Checked

/-!
# Json.Reader — typed values out of a tree

A record is read from an object, whose unknown fields are skipped and whose known fields may occur
once, or from an array that lists a front part of the fields in their order.
-/

namespace PoolIndexer.Json

def text? : Json → Option String
  | .string s => s
  | _ => none

def bool? : Json → Option Bool
  | .bool b => some b
  | _ => none

def int64? : Json → Option Int64
  | .whole n => Checked.fit? n
  | _ => none

/-- A whole number in `[0, 2 ^ bits)`. -/
def word? (bits : Nat) : Json → Option Nat
  | .whole (.ofNat n) => if n < Nat.pow 2 bits then some n else none
  | _ => none

def list? (item : Json → Option α) : Json → Option (List α)
  | .array xs => xs.mapM item
  | _ => none

/-- `null` reads as no value. -/
def optional? (item : Json → Option α) : Json → Option (Option α)
  | .null => some none
  | j => (item j).map some

/-- The last field of that name. -/
def field? (j : Json) (name : String) : Option Json :=
  match j with
  | .object fs => (fs.reverse.find? fun (k, _) => k = some name).map (·.2)
  | _ => none

/-- The values of the one field of that name, `some none` if there is none. -/
def atMostOnce (name : String) (fields : List (Option String × Json)) : Option (Option Json) :=
  match fields.filter fun (k, _) => k = some name with
  | [] => some none
  | [(_, v)] => some (some v)
  | _ => none

/-- The values given for the fields of a record, in the order of `names`. -/
def fields? (names : List String) : Json → Option (List (Option Json))
  | .object fs =>
    if fs.all fun (k, _) => k.isSome then names.mapM fun n => atMostOnce n fs else none
  | .array xs =>
    if xs.length ≤ names.length then
      some (xs.map some ++ List.replicate (names.length - xs.length) none)
    else none
  | _ => none

/-- A field that has to be given. -/
def required (item : Json → Option α) : Option Json → Option α
  | some j => item j
  | none => none

/-- A field that has a default. -/
def orElse (item : Json → Option α) (fallback : α) : Option Json → Option α
  | some j => item j
  | none => some fallback

end PoolIndexer.Json
