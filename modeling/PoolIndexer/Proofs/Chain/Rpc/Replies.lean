import PoolIndexer.Proofs.Block.Json
import PoolIndexer.Proofs.Chain.Rpc.Requests

/-!
# Proofs.Chain.Rpc.Replies — replies in their usual form

* `replyJson`, `headersJson`, `BlockResults.toJson`: a reply with a result, and the results with headers and events.
* `headersOfJson?_headersJson`, `BlockResults.ofJson?_toJson`: such results are read back.
* `Client.answer_of_reply`: what a node sends in this form is what comes of the request.
-/

namespace PoolIndexer

namespace Rpc

open Json

/-! ### Headers -/

def Header.toJson (h : Header) : Json :=
  .record [("block_id", .record [("hash", .text h.hash)]),
    ("header", .record [("height", .int64 h.height), ("time", .text h.time.render)])]

def headersJson (hs : List Header) : Json := .record [("block_metas", .list Header.toJson hs)]

theorem record_ne_null (fields : List (String × Json)) : Json.record fields ≠ .null := fun h => Json.noConfusion h

theorem single?_record {α : Type} (name : String) (item : Json → Option α) (part : Json) :
    single? name item (.record [(name, part)]) = item part := by
  have hfields : (Json.record [(name, part)]).fields? [name] = some [some part] :=
    @fields?_record [(name, part)] (by simp)
  rw [single?, hfields]
  rfl

theorem Header.plain_toJson (h : Header) : Plain h.toJson := by
  refine .record (List.forall_mem_cons.2 ⟨.record ?_, List.forall_mem_singleton.2 (.record ?_)⟩)
  · exact List.forall_mem_singleton.2 (.text h.hash)
  · exact List.forall_mem_cons.2 ⟨.int64 h.height, List.forall_mem_singleton.2 (.text _)⟩

theorem Header.ofJson?_toJson {h : Header} (hvalid : h.time.IsValid) : headerOfJson? h.toJson = some h := by
  have hfields : h.toJson.fields? ["block_id", "header"] = some [some (.record [("hash", .text h.hash)]),
      some (.record [("height", .int64 h.height), ("time", .text h.time.render)])] := by
    rw [toJson]
    exact fields?_record (show ["block_id", "header"].Nodup by decide)
  have hinner : (Json.record [("height", .int64 h.height), ("time", .text h.time.render)]).fields? ["height", "time"] =
      some [some (.int64 h.height), some (.text h.time.render)] :=
    fields?_record (show ["height", "time"].Nodup by decide)
  have hhash : single? "hash" Json.text? (.record [("hash", .text h.hash)]) = some h.hash := single?_record ..
  have hheight : number? (.int64 h.height) = some h.height := Checked.fit?_toInt h.height
  have htime : (Json.text h.time.render).text?.bind Instant.parse? = some h.time := by
    show (some h.time.render).bind Instant.parse? = _
    rw [Option.bind_some, Instant.parse?_render hvalid]
  unfold headerOfJson?
  rw [hfields]
  simp only [required, hhash, hinner, hheight, htime, Option.bind_eq_bind, Option.bind_some]
  rfl

theorem plain_headersJson (hs : List Header) : Plain (headersJson hs) :=
  .record (List.forall_mem_singleton.2 (.list Header.plain_toJson hs))

theorem headersOfJson?_headersJson {hs : List Header} (hvalid : ∀ h ∈ hs, h.time.IsValid) :
    headersOfJson? (headersJson hs) = some hs := by
  rw [headersOfJson?, headersJson, single?_record]
  exact list?_list fun h hh => Header.ofJson?_toJson (hvalid h hh)

/-! ### Events -/

namespace BlockResults

def toJson (r : BlockResults) : Json :=
  .record [("height", .int64 r.height), ("txs_results", .list TxResult.toJson r.txs),
    ("begin_block_events", .list RawEvent.toJson r.beginEvents), ("end_block_events", .list RawEvent.toJson r.endEvents),
    ("finalize_block_events", .list RawEvent.toJson r.mixedEvents)]

theorem plain_toJson (r : BlockResults) : Plain r.toJson := by
  refine .record fun f hf => ?_
  simp only [List.mem_cons, List.not_mem_nil, or_false] at hf
  rcases hf with rfl | rfl | rfl | rfl | rfl
  · exact .int64 _
  · exact .list TxResult.plain_toJson _
  · exact .list RawEvent.plain_toJson _
  · exact .list RawEvent.plain_toJson _
  · exact .list RawEvent.plain_toJson _

theorem ofJson?_toJson (r : BlockResults) : resultsOfJson? r.toJson = some r := by
  have hfields : r.toJson.fields? ["height", "txs_results", "begin_block_events", "end_block_events",
      "finalize_block_events"] = some [some (.int64 r.height), some (.list TxResult.toJson r.txs),
        some (.list RawEvent.toJson r.beginEvents), some (.list RawEvent.toJson r.endEvents),
        some (.list RawEvent.toJson r.mixedEvents)] := by
    rw [toJson]
    exact fields?_record (show ["height", "txs_results", "begin_block_events", "end_block_events",
      "finalize_block_events"].Nodup by decide)
  have hheight : number? (.int64 r.height) = some r.height := Checked.fit?_toInt r.height
  have htxs : listOrNothing TxResult.ofJson? (some (.list TxResult.toJson r.txs)) = some r.txs :=
    list?_list fun t _ => t.ofJson?_toJson
  have hevents : ∀ es, listOrNothing RawEvent.ofJson? (some (.list RawEvent.toJson es)) = some es :=
    RawEvent.listOfJson?_list
  unfold resultsOfJson?
  rw [hfields]
  simp only [required, hheight, htxs, hevents, Option.bind_eq_bind, Option.bind_some]
  rfl

end BlockResults

/-! ### Replies -/

/-- A reply with a result. -/
def replyJson (result : Json) : Json := .record [("result", result)]

namespace Client

/-- A result that can be read is what comes of a request that is answered with it. -/
theorem answer_of_reply {α : Type} {c : Client} {answers : String → Response} {method target : String}
    {query : List (String × String)} {item : Json → Option α} {result : Json} {a : α}
    (htarget : c.target? method query = some target) (hanswer : answers target = .body (replyJson result).render)
    (hplain : result.Plain) (hnull : result ≠ .null) (hitem : item result = some a) :
    c.answer answers method query item = .ok a := by
  have hfields : (replyJson result).fields? ["result", "error"] = some [some result, none] := rfl
  have hoptional : Json.optional? item result = some (some a) := by
    cases result <;> simp_all [Json.optional?]
  have hread : replyOfJson? item (replyJson result) = some (some a, none) := by
    rw [replyOfJson?, hfields]
    dsimp only [nullable, isObject, replyJson, Json.record]
    rw [hoptional]
    rfl
  have hparse : Json.parse (replyJson result).render = some (replyJson result) :=
    Json.parse_render (.record (by simpa using hplain))
  rw [answer, htarget]
  dsimp only
  rw [hanswer, readResponse, readBody, hparse, Option.bind_some, hread]

end Client

end Rpc

end PoolIndexer
