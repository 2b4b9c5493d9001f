import PoolIndexer.Chain.Rpc.Client
import PoolIndexer.Json.Printer

/-!
# Chain.Rpc.Canned — a node that answers from a table

A request is answered by the first reply for its target that is not used up; without one the answer
is the text `not found`.
-/

namespace PoolIndexer

namespace Rpc

structure CannedReply where
  target : String
  response : Response
  /-- How often the reply may still be used; nothing stands for no limit. -/
  left : Option Nat

structure Canned where
  replies : List CannedReply
  /-- The targets of all requests. -/
  requests : List String

namespace Canned

/-- Answers from the replies, and the replies after that. -/
def use (target : String) : List CannedReply → Response × List CannedReply
  | [] => (.body "not found", [])
  | r :: rest =>
    if r.target = target && r.left ≠ some 0 then
      (r.response, { r with left := r.left.map (· - 1) } :: rest)
    else
      let (response, rest) := use target rest
      (response, r :: rest)

def transport : Transport Canned := fun target s =>
  let (response, replies) := use target s.replies
  (response, ⟨replies, s.requests ++ [target]⟩)

/-! ### Reading -/

def isSet (j : Json) (name : String) : Bool := ((j.field? name).bind Json.bool?).getD false

/-- A text is sent as it is, any other value as JSON. -/
def bodyText : Option Json → String
  | some (.string s) => s.getD ""
  | some j => j.render
  | none => Json.null.render

def replyOfJson (j : Json) : CannedReply where
  target := ((j.field? "path").bind Json.text?).getD ""
  response :=
    if isSet j "interrupt" then .silence
    else if isSet j "drop" then .failed
    else if isSet j "timeout" then .timedOut
    else .body (bodyText (j.field? "body"))
  left := (j.field? "times").bind (Json.word? 64)

def ofReplies (js : List Json) : Canned := ⟨js.map replyOfJson, []⟩

end Canned

end Rpc

end PoolIndexer
