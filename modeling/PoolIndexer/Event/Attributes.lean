import PoolIndexer.Coin
import PoolIndexer.Event.Raw
import PoolIndexer.Text.Base64
import PoolIndexer.Text.Quoted
import PoolIndexer.Text.Utf8

/-!
# Event.Attributes — typed reads of the attributes of one event

The first attribute of a key counts.  A failed read names the kind of the event, the key and what
was found there.
-/

namespace PoolIndexer

inductive AttributeError where
  | missing (kind key : String)
  | notInteger (kind key value : String)
  | notCoin (kind key value : String)
  | notDecodable (kind key reason : String)
  | invalid (kind reason : String)
  deriving DecidableEq

def AttributeError.message : AttributeError → String
  | .missing kind key => kind ++ ": missing attribute " ++ key
  | .notInteger kind key value =>
    kind ++ ": attribute " ++ key ++ "=" ++ Text.Quoted.text value ++ " is not an integer"
  | .notCoin kind key value =>
    kind ++ ": attribute " ++ key ++ "=" ++ Text.Quoted.text value ++ " is not a coin"
  | .notDecodable kind key reason =>
    kind ++ ": attribute " ++ key ++ " could not be decoded: " ++ reason
  | .invalid kind reason => kind ++ ": " ++ reason

structure Attributes where
  kind : String
  pairs : List (String × String)

namespace Attributes

def decodeText (kind key text : String) : Except AttributeError String :=
  match Text.Base64.decode (Text.Utf8.encode text) with
  | .error f => .error (.notDecodable kind key f.message)
  | .ok octets =>
    match Text.Utf8.decode octets with
    | .error f => .error (.notDecodable kind key f.message)
    | .ok s => .ok s

def decodePair (kind : String) (a : Attribute) : Except AttributeError (String × String) := do
  let key ← decodeText kind a.key a.key
  let value ← decodeText kind key a.value
  pure (key, value)

/-- The attributes of an event, read from base64 where the chain writes them so. -/
def ofRaw (e : RawEvent) (base64 : Bool) : Except AttributeError Attributes :=
  if base64 then (e.attributes.mapM (decodePair e.kind)).map fun pairs => ⟨e.kind, pairs⟩
  else .ok ⟨e.kind, e.attributes.map fun a => (a.key, a.value)⟩

def get? (as : Attributes) (key : String) : Option String := as.pairs.lookup key

def get (as : Attributes) (key : String) : Except AttributeError String :=
  match as.get? key with
  | some v => .ok v
  | none => .error (.missing as.kind key)

def getOrEmpty (as : Attributes) (key : String) : String := (as.get? key).getD ""

def readInt (as : Attributes) (key value : String) : Except AttributeError Int64 :=
  match Text.Decimal.int64? (Text.trim value.toList) with
  | some n => .ok n
  | none => .error (.notInteger as.kind key value)

def int (as : Attributes) (key : String) : Except AttributeError Int64 := do
  let value ← as.get key
  as.readInt key value

/-- An absent or empty value reads as zero. -/
def intOrZero (as : Attributes) (key : String) : Except AttributeError Int64 :=
  match as.get? key with
  | none => .ok 0
  | some value => if value = "" then .ok 0 else as.readInt key value

def bool? : String → Option Bool
  | "true" | "True" | "1" => some true
  | "false" | "False" | "0" => some false
  | _ => none

def bool (as : Attributes) (key : String) : Except AttributeError Bool := do
  let value ← as.get key
  match bool? value with
  | some b => pure b
  | none =>
    .error (.invalid as.kind
      ("attribute " ++ key ++ "=" ++ Text.Quoted.text value ++ " is not a boolean"))

def coin (as : Attributes) (key : String) : Except AttributeError Coin := do
  let value ← as.get key
  match Coin.parse? value with
  | some c => pure c
  | none => .error (.notCoin as.kind key value)

/-- A list between commas; an empty value is an empty list. -/
def coins (as : Attributes) (key : String) : Except AttributeError (List Coin) := do
  let value ← as.get key
  match Coin.parseList? value with
  | some cs => pure cs
  | none => .error (.notCoin as.kind key value)

/-- The value of the first of these keys that is there. -/
def firstOf (as : Attributes) (key other : String) : Except AttributeError String :=
  match as.get? key with
  | some v => .ok v
  | none =>
    match as.get? other with
    | some v => .ok v
    | none => .error (.missing as.kind key)

end Attributes

end PoolIndexer
