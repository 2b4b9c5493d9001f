/-!
# Event.Raw — events as the chain emits them
-/

namespace PoolIndexer

structure Attribute where
  key : String
  value : String
  deriving DecidableEq

/-- A kind and its attributes in the order of emission. -/
structure RawEvent where
  kind : String
  attributes : List Attribute
  deriving DecidableEq

namespace RawEvent

def ofKind (kind : String) : RawEvent := ⟨kind, []⟩

def push (e : RawEvent) (key value : String) : RawEvent :=
  { e with attributes := e.attributes ++ [⟨key, value⟩] }

end RawEvent

end PoolIndexer
