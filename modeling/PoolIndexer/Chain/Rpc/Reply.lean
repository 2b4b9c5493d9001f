import PoolIndexer.Block.Json
import PoolIndexer.Fault

/-!
# Chain.Rpc.Reply — what a node answers

A reply holds a result or an error.  There are three kinds of results: the state of the node, the
headers of a range of heights, and the events of one height.  Numbers may be written as text.  A node
lists the events of a block by phase, or in one list where the attribute `mode` tells the phase.
-/

namespace PoolIndexer

namespace Rpc

/-- An error that the node reports. -/
structure Refusal where
  code : Int64
  message : String
  data : Option String

structure Header where
  height : Int64
  time : Instant
  /-- The hash of the block as it is written. -/
  hash : String

structure BlockResults where
  height : Int64
  txs : List TxResult
  beginEvents : List RawEvent
  endEvents : List RawEvent
  /-- The events of both phases in one list. -/
  mixedEvents : List RawEvent

/-! ### Reading -/

/-- A whole number or its text. -/
def number? : Json → Option Int64
  | .string s => s.bind fun s => Text.Decimal.int64? s.toList
  | j => j.int64?

def refusalOfJson? (j : Json) : Option Refusal :=
  match j.fields? ["code", "message", "data"] with
  | some [code, message, data] => do
    let code ← Json.required Json.int64? code
    let message ← Json.required Json.text? message
    let data ← Json.orElse (Json.optional? Json.text?) none data
    pure ⟨code, message, data⟩
  | _ => none

/-- A part that may be null; in an object it may also be missing. -/
def nullable (isObject : Bool) (item : Json → Option α) (part : Option Json) : Option (Option α) :=
  match part with
  | some j => Json.optional? item j
  | none => if isObject then some none else none

def isObject : Json → Bool
  | .object _ => true
  | _ => false

/-- The result and the error of a reply. -/
def replyOfJson? (item : Json → Option α) (j : Json) : Option (Option α × Option Refusal) :=
  match j.fields? ["result", "error"] with
  | some [result, refusal] => do
    let result ← nullable (isObject j) item result
    let refusal ← nullable (isObject j) refusalOfJson? refusal
    pure (result, refusal)
  | _ => none

/-- The only field of a record. -/
def single? (name : String) (item : Json → Option α) (j : Json) : Option α :=
  match j.fields? [name] with
  | some [part] => Json.required item part
  | _ => none

/-- The height of a node. -/
def statusOfJson? : Json → Option Int64 :=
  single? "sync_info" (single? "latest_block_height" number?)

def headerOfJson? (j : Json) : Option Header :=
  match j.fields? ["block_id", "header"] with
  | some [id, header] => do
    let hash ← Json.required (single? "hash" Json.text?) id
    let header ← Json.required (Json.fields? ["height", "time"]) header
    match header with
    | [height, time] => do
      let height ← Json.required number? height
      let time ← Json.required (fun j => j.text?.bind Instant.parse?) time
      pure ⟨height, time, hash⟩
    | _ => none
  | _ => none

def headersOfJson? : Json → Option (List Header) :=
  single? "block_metas" (Json.list? headerOfJson?)

/-- A list that may be null or missing. -/
def listOrNothing (item : Json → Option α) (part : Option Json) : Option (List α) :=
  match part with
  | none | some .null => some []
  | some j => j.list? item

def resultsOfJson? (j : Json) : Option BlockResults :=
  match j.fields? ["height", "txs_results", "begin_block_events", "end_block_events",
    "finalize_block_events"] with
  | some [height, txs, beginEvents, endEvents, mixedEvents] => do
    let height ← Json.required number? height
    let txs ← listOrNothing TxResult.ofJson? txs
    let beginEvents ← listOrNothing RawEvent.ofJson? beginEvents
    let endEvents ← listOrNothing RawEvent.ofJson? endEvents
    let mixedEvents ← listOrNothing RawEvent.ofJson? mixedEvents
    pure ⟨height, txs, beginEvents, endEvents, mixedEvents⟩
  | _ => none

/-! ### Phases -/

/-- Takes the first attribute `mode` out of a list. -/
def takeMode : List Attribute → Option String × List Attribute
  | [] => (none, [])
  | a :: rest =>
    if a.key = "mode" then (some a.value, rest)
    else
      let (mode, rest) := takeMode rest
      (mode, a :: rest)

/-- An event without its mode, and whether it belongs to the beginning of the block. -/
def phased (e : RawEvent) : Bool × RawEvent :=
  let (mode, attributes) := takeMode e.attributes
  (mode = some "BeginBlock", { e with attributes })

namespace BlockResults

/-- The events of a block by phase. -/
structure Phases where
  beginEvents : List RawEvent
  txs : List TxResult
  endEvents : List RawEvent
  deriving DecidableEq

/-- Splits the mixed events by their mode; they stand behind the events of their phase. -/
def phases (r : BlockResults) : Phases where
  beginEvents := r.beginEvents ++ ((r.mixedEvents.map phased).filter (·.1)).map (·.2)
  txs := r.txs
  endEvents := r.endEvents ++ ((r.mixedEvents.map phased).filter (!·.1)).map (·.2)

end BlockResults

end Rpc

end PoolIndexer
