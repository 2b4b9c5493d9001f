/-!
# Exchange — work with a partner that keeps a state

An exchange answers with a value or an error, and leaves the partner in a new state either way.
-/

namespace PoolIndexer

abbrev Exchange (ε σ α : Type) := σ → Except ε α × σ

namespace Exchange

variable {ε σ α β : Type}

def done (a : α) : Exchange ε σ α := fun s => (.ok a, s)

def fail (e : ε) : Exchange ε σ α := fun s => (.error e, s)

/-- Goes on after a success only. -/
def andThen (x : Exchange ε σ α) (f : α → Exchange ε σ β) : Exchange ε σ β := fun s =>
  match x s with
  | (.ok a, s) => f a s
  | (.error e, s) => (.error e, s)

/-- Goes on after an error only. -/
def orElse (x : Exchange ε σ α) (f : ε → Exchange ε σ α) : Exchange ε σ α := fun s =>
  match x s with
  | (.ok a, s) => (.ok a, s)
  | (.error e, s) => f e s

/-- An answer that is known without asking. -/
def known : Except ε α → Exchange ε σ α
  | .ok a => done a
  | .error e => fail e

instance : Monad (Exchange ε σ) where
  pure := done
  bind := andThen

end Exchange

end PoolIndexer
