import PoolIndexer.Event.Id
import PoolIndexer.Json.Basic

/-!
# Log — what the stages report while they work

An entry is a level, a message and named values.  Event ids stay unencoded until an entry is shown,
because an id that does not fit into 64 bits cannot be shown.
-/

namespace PoolIndexer

inductive LogLevel where
  | error
  | warn
  | info
  | debug
  deriving DecidableEq

namespace LogLevel

def name : LogLevel → String
  | .error => "ERROR"
  | .warn => "WARN"
  | .info => "INFO"
  | .debug => "DEBUG"

/-- Higher ranks say more. -/
def rank : LogLevel → Nat
  | .error => 1
  | .warn => 2
  | .info => 3
  | .debug => 4

/-- The level of a name or a number from 1 to 5; of any other text, the level of information.  Five
lets everything through. -/
def rankOf (text : String) : Nat :=
  match Text.Decimal.word? 64 text.toList with
  | some n => if 1 ≤ n ∧ n ≤ 5 then n else info.rank
  | none =>
    match String.ofList (text.toList.map Char.toUpper) with
    | "ERROR" => error.rank
    | "WARN" => warn.rank
    | "DEBUG" => debug.rank
    | "TRACE" => 5
    | _ => info.rank

end LogLevel

inductive LogValue where
  | int (n : Int64)
  | count (n : Nat)
  | text (s : String)
  | eventId (e : EventId)

structure LogEntry where
  level : LogLevel
  message : String
  fields : List (String × LogValue)

abbrev Log := List LogEntry

def LogValue.toJson : LogValue → Except Overflow Json
  | .int n => .ok (.int64 n)
  | .count n => .ok (.nat n)
  | .text s => .ok (.text s)
  | .eventId e => e.encode.map fun n => .text (Text.Decimal.showInt64 n)

/-- The named values of an entry with its message among them. -/
def LogEntry.toJson (e : LogEntry) : Except Overflow Json := do
  let fields ← e.fields.mapM fun (k, v) => (v.toJson).map fun j => (k, j)
  pure (.record (fields ++ [("message", .text e.message)]))

/-- What is shown of a log up to a level, and whether all of it can be shown; nothing is shown behind
an entry that cannot. -/
def Log.shown (rank : Nat) : Log → List (LogLevel × Json) × Bool
  | [] => ([], true)
  | e :: rest =>
    if rank < e.level.rank then shown rank rest
    else
      match e.toJson with
      | .error _ => ([], false)
      | .ok j =>
        let (more, complete) := shown rank rest
        ((e.level, j) :: more, complete)

end PoolIndexer
