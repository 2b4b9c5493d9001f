/-!
# Json — a document as a tree

Fields keep their order and may repeat.  A number is a whole number of 64 bits or stays the token
it was written with.  A string whose escapes name an unpaired surrogate has no text; such a string
may be skipped but not read.
-/

namespace PoolIndexer

inductive Json where
  | null
  | bool (b : Bool)
  | whole (n : Int)
  | real (token : String)
  | string (text : Option String)
  | array (items : List Json)
  | object (fields : List (Option String × Json))

namespace Json

def text (s : String) : Json := .string (some s)

def record (fields : List (String × Json)) : Json :=
  .object (fields.map fun (k, v) => (some k, v))

def int64 (n : Int64) : Json := .whole n.toInt

def nat (n : Nat) : Json := .whole n

def ofOption (f : α → Json) : Option α → Json
  | none => .null
  | some a => f a

def list (f : α → Json) (xs : List α) : Json := .array (xs.map f)

end Json

end PoolIndexer
