/-!
# Chain.Backoff — waiting longer after each failure

Times are milliseconds.
-/

namespace PoolIndexer

structure Backoff where
  initial : Nat
  max : Nat
  current : Nat
  deriving DecidableEq

namespace Backoff

def ofBounds (initial max : Nat) : Backoff := ⟨initial, max, initial⟩

/-- The time to wait now; the next one is twice as long, up to the bound. -/
def next (b : Backoff) : Nat × Backoff :=
  (b.current, { b with current := min (2 * b.current) b.max })

def reset (b : Backoff) : Backoff := { b with current := b.initial }

end Backoff

end PoolIndexer
