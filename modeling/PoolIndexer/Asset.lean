/-!
# Asset — how the name of an asset places it among the ledgers of a pool

A pool holds a layer-1 asset `CHAIN.SYMBOL` against the chain's own unit.  A synth `CHAIN/SYMBOL` is
minted against the pool of the same name written with a point.
-/

namespace PoolIndexer

inductive AssetClass where
  /-- The chain's own unit, the rune side of every pool. -/
  | native
  | layer1
  | synth
  deriving DecidableEq

def AssetClass.name : AssetClass → String
  | .native => "native"
  | .layer1 => "layer1"
  | .synth => "synth"

namespace Asset

/-- Equality up to the case of ASCII letters. -/
def sameName (a b : String) : Bool := a.toList.map Char.toLower == b.toList.map Char.toLower

def replaceFirst (old new : Char) : List Char → List Char
  | [] => []
  | c :: cs => if c = old then new :: cs else c :: replaceFirst old new cs

/-- The pool that backs an asset: a synth is backed by its layer-1 asset, which is its own pool. -/
def pool (asset : String) : String := String.ofList (replaceFirst '/' '.' asset.toList)

end Asset

/-- The names under which the chain's own unit goes; the first one is canonical. -/
structure NativeNames where
  names : List String
  deriving DecidableEq

namespace NativeNames

def default : NativeNames := ⟨["THOR.RUNE"]⟩

def contains (natives : NativeNames) (asset : String) : Bool :=
  natives.names.any (Asset.sameName · asset)

def classify (natives : NativeNames) (asset : String) : AssetClass :=
  if natives.contains asset then .native
  else if asset.toList.contains '/' then .synth
  else .layer1

def canonical (natives : NativeNames) : String := natives.names.headD "THOR.RUNE"

/-- The asset that a denomination of the chain's bank stands for. -/
def ofDenom (natives : NativeNames) (denom : String) : String :=
  if Asset.sameName denom "rune" then natives.canonical
  else String.ofList (denom.toList.map Char.toUpper)

/-! ### Classes -/

theorem classify_eq_native_iff {natives : NativeNames} {asset : String} :
    natives.classify asset = .native ↔ natives.contains asset = true := by
  unfold classify
  split
  · simp_all
  · split <;> simp_all

end NativeNames

end PoolIndexer
