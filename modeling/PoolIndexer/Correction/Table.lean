import PoolIndexer.Checked
import PoolIndexer.Event.Direction

/-!
# Correction.Table — amendments to the events of certain heights

A mutation may change or discard an event before it is recorded; an injection adds an event behind
the ordinary ones of its block.  Entries keep the order in which they were registered, and entries
for another chain are not registered.  Two rules always hold: a swap has exactly one native side,
and below a cutoff a withdrawal of zero units is only announced, not done.
-/

namespace PoolIndexer

inductive Verdict where
  | keep
  | discard (reason : String)
  deriving DecidableEq

structure Mutation where
  name : String
  /-- The event after the mutation and what becomes of it. -/
  patch : Event → Except Overflow (Event × Verdict)

structure CorrectionTable where
  chainId : String
  natives : NativeNames
  pendingCutoff : Option Int64
  mutations : List (Int64 × Mutation)
  injections : List (Int64 × Event)

namespace CorrectionTable

def ofChain (chainId : String) (natives : NativeNames) : CorrectionTable :=
  ⟨chainId, natives, none, [], []⟩

/-- Whether an entry for that chain, or for every chain, belongs to the table. -/
def inScope (t : CorrectionTable) (chainId : Option String) : Bool :=
  match chainId with
  | none => true
  | some id => id = t.chainId

def mutate (t : CorrectionTable) (height : Int64) (chainId : Option String) (m : Mutation) :
    CorrectionTable :=
  if t.inScope chainId then { t with mutations := t.mutations ++ [(height, m)] } else t

def inject (t : CorrectionTable) (height : Int64) (chainId : Option String) (e : Event) :
    CorrectionTable :=
  if t.inScope chainId then { t with injections := t.injections ++ [(height, e)] } else t

def mutationsAt (t : CorrectionTable) (height : Int64) : List Mutation :=
  (t.mutations.filter fun p => p.1 = height).map (·.2)

/-- The events added to the block of that height. -/
def injected (t : CorrectionTable) (height : Int64) : List Event :=
  (t.injections.filter fun p => p.1 = height).map (·.2)

def hasCorrections (t : CorrectionTable) (height : Int64) : Bool :=
  !(t.mutationsAt height).isEmpty || !(t.injected height).isEmpty

/-- The rules that hold at every height. -/
def standing (t : CorrectionTable) (height : Int64) (e : Event) : Verdict :=
  match e with
  | .swap s =>
    if (SwapDirection.of? t.natives s).isNone then
      .discard ("swap " ++ s.source.asset ++ " -> " ++ s.target.asset ++
        " does not have exactly one native side")
    else .keep
  | .withdraw w =>
    match t.pendingCutoff with
    | some cutoff =>
      if w.units.toInt = 0 ∧ height.toInt < cutoff.toInt then
        .discard "pending withdraw with zero units"
      else .keep
    | none => .keep
  | _ => .keep

/-- Runs mutations in order up to the first discard. -/
def run : List Mutation → Event → Except Overflow (Event × Verdict)
  | [], e => .ok (e, .keep)
  | m :: ms, e =>
    match m.patch e with
    | .error o => .error o
    | .ok (e, .keep) => run ms e
    | .ok (e, .discard reason) => .ok (e, .discard (m.name ++ ": " ++ reason))

def apply (t : CorrectionTable) (height : Int64) (e : Event) :
    Except Overflow (Event × Verdict) :=
  match t.standing height e with
  | .discard reason => .ok (e, .discard reason)
  | .keep => run (t.mutationsAt height) e

end CorrectionTable

end PoolIndexer
