import PoolIndexer.Asset
import PoolIndexer.Event.Typed

/-!
# Event.Direction — which way a swap crosses its pool
-/

namespace PoolIndexer

/-- Which side of a swap is native and whether the other is a synth. -/
inductive SwapDirection where
  | runeToAsset
  | assetToRune
  | runeToSynth
  | synthToRune
  deriving DecidableEq

namespace SwapDirection

def code : SwapDirection → Int64
  | .runeToAsset => 0
  | .assetToRune => 1
  | .runeToSynth => 2
  | .synthToRune => 3

/-- Exactly one side of the swap must be native. -/
def of? (natives : NativeNames) (e : Swap) : Option SwapDirection :=
  match natives.classify e.source.asset, natives.classify e.target.asset with
  | .native, .layer1 => some .runeToAsset
  | .layer1, .native => some .assetToRune
  | .native, .synth => some .runeToSynth
  | .synth, .native => some .synthToRune
  | _, _ => none

end SwapDirection

namespace Swap

/-- The pool that backs the side that is not native. -/
def backingPool (natives : NativeNames) (e : Swap) : String :=
  if natives.contains e.source.asset then Asset.pool e.target.asset else Asset.pool e.source.asset

/-- The pool a swap settles against: the one it names, else the backing one. -/
def settlementPool (natives : NativeNames) (e : Swap) : String :=
  if e.pool = "" then e.backingPool natives else e.pool

end Swap

end PoolIndexer
