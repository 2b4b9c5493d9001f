import PoolIndexer.Block.Basic
import PoolIndexer.Json.Parser
import PoolIndexer.Json.Printer
import PoolIndexer.Json.Reader

/-!
# Block.Json — the text form of blocks and events

Lists that are left out are empty, a code that is left out is zero and a value that is left out is
the empty text.  The hash is written in upper-case hexadecimal and read in either case.
-/

namespace PoolIndexer

namespace Attribute

def toJson (a : Attribute) : Json := .record [("key", .text a.key), ("value", .text a.value)]

def ofJson? (j : Json) : Option Attribute :=
  match j.fields? ["key", "value"] with
  | some [key, value] => do
    let key ← Json.required Json.text? key
    let value ← Json.orElse Json.text? "" value
    pure ⟨key, value⟩
  | _ => none

end Attribute

namespace RawEvent

def toJson (e : RawEvent) : Json :=
  .record [("type", .text e.kind), ("attributes", .list Attribute.toJson e.attributes)]

def ofJson? (j : Json) : Option RawEvent :=
  match j.fields? ["type", "attributes"] with
  | some [kind, attributes] => do
    let kind ← Json.required Json.text? kind
    let attributes ← Json.orElse (Json.list? Attribute.ofJson?) [] attributes
    pure ⟨kind, attributes⟩
  | _ => none

def listOfJson? : Json → Option (List RawEvent) := Json.list? ofJson?

end RawEvent

namespace TxResult

def toJson (t : TxResult) : Json :=
  .record [("code", .nat t.code.toNat), ("events", .list RawEvent.toJson t.events)]

def ofJson? (j : Json) : Option TxResult :=
  match j.fields? ["code", "events"] with
  | some [code, events] => do
    let code ← Json.orElse (Json.word? 32) 0 code
    let events ← Json.orElse RawEvent.listOfJson? [] events
    pure ⟨UInt32.ofNat code, events⟩
  | _ => none

end TxResult

namespace Block

def toJson (b : Block) : Json :=
  .record [("height", .int64 b.height), ("timestamp", .text b.timestamp.render),
    ("hash", .text b.hashHex), ("begin_events", .list RawEvent.toJson b.beginEvents),
    ("txs", .list TxResult.toJson b.txs), ("end_events", .list RawEvent.toJson b.endEvents)]

def hashOfJson? (j : Json) : Option (List UInt8) :=
  j.text?.bind fun s => (Text.Hex.decodeText s).toOption

def ofJson? (j : Json) : Option Block :=
  match j.fields? ["height", "timestamp", "hash", "begin_events", "txs", "end_events"] with
  | some [height, timestamp, hash, beginEvents, txs, endEvents] => do
    let height ← Json.required Json.int64? height
    let timestamp ← Json.required (fun j => j.text?.bind Instant.parse?) timestamp
    let hash ← Json.required hashOfJson? hash
    let beginEvents ← Json.orElse RawEvent.listOfJson? [] beginEvents
    let txs ← Json.orElse (Json.list? TxResult.ofJson?) [] txs
    let endEvents ← Json.orElse RawEvent.listOfJson? [] endEvents
    pure ⟨height, timestamp, hash, beginEvents, txs, endEvents⟩
  | _ => none

def render (b : Block) : String := b.toJson.render

def parse? (s : String) : Option Block := (Json.parse s).bind ofJson?

end Block

end PoolIndexer
