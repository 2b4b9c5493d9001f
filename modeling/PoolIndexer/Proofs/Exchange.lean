import PoolIndexer.Exchange

/-!
# Proofs.Exchange — exchanges one after the other

* `bind_of_ok`, `bind_of_error`: an exchange goes on after a success only.
* `each`: exchanges that are made in a row, whatever becomes of those before.
-/

namespace PoolIndexer

namespace Exchange

variable {ε σ α β : Type} {x : Exchange ε σ α} {s s' : σ}

theorem bind_of_ok {a : α} (h : x s = (.ok a, s')) (f : α → Exchange ε σ β) : (x >>= f) s = f a s' := by
  show andThen x f s = _
  rw [andThen, h]

theorem bind_of_error {e : ε} (h : x s = (.error e, s')) (f : α → Exchange ε σ β) : (x >>= f) s = (.error e, s') := by
  show andThen x f s = _
  rw [andThen, h]

/-- Makes all requests, whatever becomes of those before. -/
def each : List (Exchange ε σ α) → σ → List (Except ε α) × σ
  | [], s => ([], s)
  | x :: xs, s =>
    let (result, s) := x s
    let (results, s) := each xs s
    (result :: results, s)

theorem each_cons (x : Exchange ε σ α) (xs : List (Exchange ε σ α)) (s : σ) :
    each (x :: xs) s = ((x s).1 :: (each xs (x s).2).1, (each xs (x s).2).2) := rfl

end Exchange

end PoolIndexer
