import PoolIndexer.Chain.Node
import PoolIndexer.Chain.Rpc.Reply
import PoolIndexer.Json.Parser
import PoolIndexer.Text.Quoted
import PoolIndexer.Text.Target

/-!
# Chain.Rpc.Client — a node behind HTTP

The head of the chain takes one request.  A range of blocks takes a request for the headers of every
twenty heights and then one for the events of each height; several of the latter may be under way at
a time, and their answers are taken in the order of the heights.
-/

namespace PoolIndexer

namespace Rpc

/-- What has become of a request. -/
inductive Response where
  | body (text : String)
  | failed
  | timedOut
  /-- The request stays open. -/
  | silence
  deriving DecidableEq

/-- Answers the target of a request and changes a state. -/
abbrev Transport (σ : Type) := String → σ → Response × σ

structure Client where
  /-- The address of the node. -/
  url : String
  /-- How many requests may be under way at a time. -/
  parallelism : Nat
  timeoutMs : Nat
  deriving DecidableEq

namespace Client

/-- A client of a node; slashes at the end of its address do not count. -/
def ofUrl (url : String) (parallelism timeoutMs : Nat) : Client :=
  ⟨String.ofList (url.toList.reverse.dropWhile (· = '/')).reverse, max parallelism 1, timeoutMs⟩

def noConnection : NoAnswer := .error (.http "")

def malformed : NoAnswer := .error (.decode "")

/-- The words of a node that refuses a request. -/
def Refusal.words (r : Refusal) : String :=
  match r.data with
  | some data => if data.isEmpty then r.message else r.message ++ ": " ++ data
  | none => r.message

/-- The result in the text of a reply. -/
def readBody (method : String) (item : Json → Option α) (text : String) : Except NoAnswer α :=
  match (Json.parse text).bind (replyOfJson? item) with
  | none => .error malformed
  | some (_, some r) => .error (.error (.rpc r.code (Refusal.words r)))
  | some (some result, none) => .ok result
  | some (none, none) =>
    .error (.error (.decode (method ++ " returned neither result nor error")))

def readResponse (c : Client) (method : String) (item : Json → Option α) :
    Response → Except NoAnswer α
  | .body text => readBody method item text
  | .failed => .error noConnection
  | .timedOut => .error (.error (.timeout c.timeoutMs))
  | .silence => .error .silence

section

variable {σ α : Type} (t : Transport σ) (c : Client)

/-- One request. -/
def call (method : String) (query : List (String × String)) (item : Json → Option α) :
    Exchange NoAnswer σ α := fun s =>
  match Text.Url.target? (c.url ++ "/" ++ method) with
  | none => (.error noConnection, s)
  | some target =>
    let (response, s) := t (target.withPairs query).text s
    (c.readResponse method item response, s)

def head : Exchange NoAnswer σ Int64 := c.call t "status" [] statusOfJson?

/-! ### Headers -/

/-- How many headers one request is answered with at most. -/
def headersPerCall : Int64 := 20

/-- The last height of the window that begins at `low`. -/
def windowEnd (low high : Int64) : Except Overflow Int64 := do
  let above ← Checked.add low headersPerCall
  let last ← Checked.sub above 1
  pure (Checked.smaller last high)

def requestHeaders (low high : Int64) : Exchange NoAnswer σ (List Header) :=
  c.call t "blockchain" [("minHeight", Text.Decimal.showInt64 low),
    ("maxHeight", Text.Decimal.showInt64 high)] headersOfJson?

/-- The window that begins at `low`, and where the next one begins. -/
def window (low high : Int64) : Except Overflow (Int64 × Int64) := do
  let last ← windowEnd low high
  let next ← Checked.add last 1
  pure (last, next)

theorem lt_of_window {low high last next : Int64} (h : window low high = .ok (last, next))
    (hle : low.toInt ≤ high.toInt) : low.toInt < next.toInt := by
  unfold window windowEnd at h
  cases habove : Checked.add low headersPerCall with
  | error o => simp [habove, bind, Except.bind] at h
  | ok above =>
    cases hlast : Checked.sub above 1 with
    | error o => simp [habove, hlast, bind, Except.bind] at h
    | ok stop =>
      cases hnext : Checked.add (Checked.smaller stop high) 1 with
      | error o => simp [habove, hlast, hnext, bind, Except.bind, pure, Except.pure] at h
      | ok next' =>
        simp only [habove, hlast, hnext, bind, Except.bind, pure, Except.pure, Except.ok.injEq,
          Prod.mk.injEq] at h
        obtain ⟨-, rfl⟩ := h
        rw [Checked.add_eq_ok_iff] at habove hnext
        rw [Checked.sub_eq_ok_iff] at hlast
        rw [Checked.toInt_smaller] at hnext
        have h1 : (1 : Int64).toInt = 1 := by decide
        have h20 : headersPerCall.toInt = 20 := by decide
        omega

/-- The headers of all windows from `low` up to `high`, the latest first. -/
def headers (high low : Int64) (known : List Header) : Exchange NoAnswer σ (List Header) := fun s =>
  if _hle : low.toInt ≤ high.toInt then
    match _h : window low high with
    | .error o => (.error (.overflow o), s)
    | .ok (last, next) =>
      match c.requestHeaders t low last s with
      | (.error e, s) => (.error e, s)
      | (.ok more, s) => headers high next (more.reverse ++ known) s
  else (.ok known, s)
termination_by (high.toInt - low.toInt + 1).toNat
decreasing_by
  have := lt_of_window _h _hle
  omega

/-! ### Events -/

/-- The events of one height; a reply for another height is a gap. -/
def results (height : Int64) : Exchange NoAnswer σ BlockResults := do
  let r ← c.call t "block_results" [("height", Text.Decimal.showInt64 height)] resultsOfJson?
  if r.height ≠ height then .fail (.error (.heightGap height r.height)) else pure r

/-- Starts requests as long as fewer than `width` are under way. -/
def startUpTo (ask : Int64 → Exchange NoAnswer σ α) :
    Nat → List Int64 → σ → List (Except NoAnswer α) × List Int64 × σ
  | 0, heights, s => ([], heights, s)
  | _ + 1, [], s => ([], [], s)
  | free + 1, h :: rest, s =>
    let (answer, s) := ask h s
    let (more, rest, s) := startUpTo ask free rest s
    (answer :: more, rest, s)

/-- Takes the answers in order and keeps `width` requests under way; the first error ends it. -/
def inOrder (ask : Int64 → Exchange NoAnswer σ α) :
    List Int64 → List (Except NoAnswer α) → σ → Except NoAnswer (List α) × σ
  | _, .error e :: _, s => (.error e, s)
  | [], [], s => (.ok [], s)
  | h :: rest, [], s =>
    match ask h s with
    | (.error e, s) => (.error e, s)
    | (.ok a, s) =>
      let (more, s) := inOrder ask rest [] s
      (more.map (a :: ·), s)
  | [], .ok a :: waiting, s =>
    let (more, s) := inOrder ask [] waiting s
    (more.map (a :: ·), s)
  | h :: rest, .ok a :: waiting, s =>
    let (answer, s) := ask h s
    let (more, s) := inOrder ask rest (waiting ++ [answer]) s
    (more.map (a :: ·), s)
termination_by heights waiting => 2 * heights.length + waiting.length

/-- Asks for every height with at most `width` requests under way. -/
def inParallel (width : Nat) (ask : Int64 → Exchange NoAnswer σ α) (heights : List Int64) :
    Exchange NoAnswer σ (List α) := fun s =>
  let (waiting, rest, s) := startUpTo ask width heights s
  inOrder ask rest waiting s

/-! ### Blocks -/

def noHeader (height : Int64) : NoAnswer :=
  .error (.decode ("no header for height " ++ Text.Decimal.showInt64 height))

/-- What is wrong with the text of a hash. -/
def hashWords : Text.Hex.Fault → String
  | .oddLength => "Odd number of digits"
  | .badDigit octet index =>
    "Invalid character " ++ Text.Quoted.character (Char.ofNat octet.toNat) ++ " at position " ++
      Text.Decimal.showNat index

def badHash (height : Int64) (fault : Text.Hex.Fault) : NoAnswer :=
  .error (.decode ("block hash at " ++ Text.Decimal.showInt64 height ++ ": " ++ hashWords fault))

/-- The block of a height out of its header and its events. -/
def assemble (known : List Header) (r : BlockResults) : Except NoAnswer Block :=
  match known.find? fun h => h.height = r.height with
  | none => .error (noHeader r.height)
  | some header =>
    match Text.Hex.decodeText header.hash with
    | .error fault => .error (badHash r.height fault)
    | .ok hash =>
      let p := r.phases
      .ok ⟨r.height, header.time, hash, p.beginEvents, p.txs, p.endEvents⟩

/-- The blocks from one height up to another. -/
def blocks (low high : Int64) : Exchange NoAnswer σ (List Block) :=
  if high.toInt < low.toInt then .done []
  else do
    let known ← c.headers t high low []
    let results ← inParallel c.parallelism (c.results t) (Node.heights low high)
    .known (results.mapM (assemble known))

/-- The node that the client talks to. -/
def node : Node σ := ⟨c.head t, c.blocks t⟩

end

end Client

end Rpc

end PoolIndexer
