import PoolIndexer.Chain.Archive.Writer
import PoolIndexer.Chain.Node
import PoolIndexer.Json.Reader

/-!
# Chain.Scripted — a node whose behaviour is written down

It counts down the failures it is told to have, leaves out the heights it is told to skip, and makes
every other block out of its height.  It remembers what it has been asked for.
-/

namespace PoolIndexer

inductive NodeRequest where
  | head
  | blocks (low high : Int64)
  deriving DecidableEq

structure ScriptedNode where
  head : Int64
  skip : List Int64
  /-- How many requests for blocks fail. -/
  failures : Nat
  /-- How many requests for the head fail. -/
  headFailures : Nat
  /-- What it has been asked for. -/
  requests : List NodeRequest

namespace ScriptedNode

/-- The empty block of a height; its hash is the last octet of the height. -/
def block (height : Int64) : Block where
  height := height
  timestamp := .ofSeconds (1600000000 + 6 * max (-1000) (min height.toInt 1000000))
  hash := [UInt8.ofNat (height.toInt % 256).toNat]
  beginEvents := []
  txs := []
  endEvents := []

def refusal : ChainError := .rpc (-1) "head"

def reset : ChainError := .http "connection reset"

def answerHead : Exchange NoAnswer ScriptedNode Int64 := fun s =>
  let s := { s with requests := s.requests ++ [.head] }
  if 0 < s.headFailures then
    (.error (.error refusal), { s with headFailures := s.headFailures - 1 })
  else (.ok s.head, s)

def answerBlocks (low high : Int64) : Exchange NoAnswer ScriptedNode (List Block) := fun s =>
  let s := { s with requests := s.requests ++ [.blocks low high] }
  if 0 < s.failures then (.error (.error reset), { s with failures := s.failures - 1 })
  else (.ok (((Node.heights low high).filter fun h => !s.skip.contains h).map block), s)

/-- A node with an empty chain that does not fail. -/
def idle : ScriptedNode := ⟨0, [], 0, 0, []⟩

/-- Changes what the script names. -/
def amendFrom (n : ScriptedNode) (script : Json) : ScriptedNode :=
  let field {α : Type} (name : String) (f : Json → Option α) (old : α) : α :=
    ((script.field? name).bind f).getD old
  { n with
    head := field "head" Json.int64? n.head
    skip := field "skip" (Json.list? Json.int64?) n.skip
    failures := field "failures" (Json.word? 32) n.failures
    headFailures := field "head_failures" (Json.word? 32) n.headFailures }

def node : Node ScriptedNode := ⟨answerHead, answerBlocks⟩

/-- The folder of an archive that the blocks of some heights have been written to. -/
def archived (blocksPerFile : Nat) (low high : Int64) : Folder :=
  match (Archive.Writer.ofSize blocksPerFile low).appendAll (.folder [])
    ((Node.heights low high).map block) with
  | (_, _, .folder f) => f
  | _ => []

end ScriptedNode

end PoolIndexer
