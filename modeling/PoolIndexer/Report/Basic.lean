import PoolIndexer.Json.Basic

/-!
# Report.Basic — results as JSON

Each kind of result has one JSON form.  Missing values are null, pairs are arrays of two.
-/

namespace PoolIndexer

class ToJson (α : Type) where
  toJson : α → Json

export ToJson (toJson)

instance : ToJson Json := ⟨id⟩
instance : ToJson String := ⟨.text⟩
instance : ToJson Bool := ⟨.bool⟩
instance : ToJson Int64 := ⟨.int64⟩
instance : ToJson Nat := ⟨.nat⟩
instance [ToJson α] : ToJson (Option α) := ⟨.ofOption toJson⟩
instance [ToJson α] : ToJson (List α) := ⟨.list toJson⟩
instance [ToJson α] [ToJson β] : ToJson (α × β) := ⟨fun (a, b) => .array [toJson a, toJson b]⟩

/-- An outcome is its value or its error. -/
instance [ToJson ε] [ToJson α] : ToJson (Except ε α) := ⟨fun
  | .ok a => toJson a
  | .error e => toJson e⟩

namespace Report

/-- An error without further words. -/
def error (kind : String) : Json := .record [("error", .text kind)]

def errorWith (kind message : String) : Json :=
  .record [("error", .text kind), ("message", .text message)]

end Report

end PoolIndexer
