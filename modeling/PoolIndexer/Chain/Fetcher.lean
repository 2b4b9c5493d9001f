import PoolIndexer.Chain.Archive.Writer
import PoolIndexer.Chain.Backoff
import PoolIndexer.Chain.Cursor
import PoolIndexer.Ingest.Ingestor

/-!
# Chain.Fetcher — blocks flow from a cursor into a queue

A fetcher puts the blocks from its start on into a queue of limited room.  At the head of the chain
it waits and asks again; after an error it waits, longer each time, and begins anew with a cursor at
the first height that the queue has not got.  Blocks that came from the node may be archived on the
way.  Times are milliseconds since the fetcher began.
-/

namespace PoolIndexer

structure BlockQueue where
  messages : List BlockMessage
  capacity : Nat
  /-- Whether it takes no more messages. -/
  closed : Bool

namespace BlockQueue

def room (q : BlockQueue) : Nat := q.capacity - q.messages.length

def push (q : BlockQueue) (m : BlockMessage) : BlockQueue :=
  { q with messages := q.messages ++ [m] }

theorem room_push (q : BlockQueue) (m : BlockMessage) : (q.push m).room = q.room - 1 := by
  simp [push, room]
  omega

end BlockQueue

/-- What a fetcher is about to do. -/
inductive FetchPhase where
  /-- Begin a new cursor. -/
  | scanning
  | reading (c : Cursor)
  /-- Put a message into the queue. -/
  | offering (c : Cursor) (m : BlockMessage)
  /-- Ask again at that time. -/
  | polling (c : Cursor) (wake : Nat)
  /-- Begin anew at that time. -/
  | failing (wake : Nat)
  /-- Wait for an answer that does not come. -/
  | hanging
  | stopped
  /-- An overflow has ended the fetcher. -/
  | broken

structure Fetcher (σ : Type) where
  node : Node σ
  /-- The state of the node. -/
  state : σ
  /-- Where the archive is. -/
  place : Place
  batchSize : Nat
  pollMs : Nat
  backoff : Backoff
  /-- Archives the blocks of the node, if they are archived. -/
  writer : Option Archive.Writer
  /-- The first height that the queue has not got. -/
  next : Int64
  queue : BlockQueue
  phase : FetchPhase
  now : Nat
  /-- How often a cursor has failed. -/
  errors : Nat
  /-- The head of the chain as far as it is known. -/
  chainHeight : Int64

namespace Fetcher

variable {σ : Type}

/-- A fetcher that has not done anything yet. -/
def start (node : Node σ) (state : σ) (place : Place) (batchSize pollMs : Nat) (backoff : Backoff)
    (writer : Option Archive.Writer) (first : Int64) (capacity : Nat) : Fetcher σ where
  node := node
  state := state
  place := place
  batchSize := batchSize
  pollMs := pollMs
  backoff := backoff
  writer := writer
  next := first
  queue := ⟨[], capacity, false⟩
  phase := .scanning
  now := 0
  errors := 0
  chainHeight := 0

/-! ### One move -/

/-- Waits after an error. -/
def fail (r : Fetcher σ) : Fetcher σ :=
  let (delay, backoff) := r.backoff.next
  { r with backoff, errors := r.errors + 1, phase := .failing (r.now + delay) }

/-- Archives a block; the first failure ends the archiving. -/
def writeThrough (r : Fetcher σ) (b : Block) : Except Overflow (Fetcher σ) :=
  match r.writer with
  | none => .ok r
  | some w =>
    match w.append r.place b with
    | (.ok _, w, place) => .ok { r with writer := some w, place }
    | (.error (.error _), _, place) => .ok { r with writer := none, place }
    | (.error (.overflow o), _, _) => .error o

/-- Gets ready to offer a block that the cursor has handed out. -/
def offer (r : Fetcher σ) (c : Cursor) (b : Block) : Fetcher σ :=
  let r := { r with backoff := r.backoff.reset, phase := .offering c ⟨b, c.atBatchEnd⟩ }
  if c.origin = some .node then
    match r.writeThrough b with
    | .ok r => r
    | .error _ => { r with phase := .broken }
  else r

/-- Notes the head of the chain. -/
def observe (r : Fetcher σ) (c : Cursor) : Fetcher σ :=
  { r with chainHeight := c.chainHeight.getD r.chainHeight }

/-- Goes on from the answer of the cursor. -/
def react (r : Fetcher σ) (c : Cursor) : Except NoAnswer Block → Fetcher σ
  | .ok b => (r.observe c).offer c b
  | .error (.overflow _) => { r with phase := .broken }
  | .error .silence => { r with phase := .hanging }
  | .error (.error .noData) => { r.observe c with phase := .polling c (r.now + r.pollMs) }
  | .error (.error _) => (r.observe c).fail

/-- Puts a message into the queue if there is room. -/
def send (r : Fetcher σ) (c : Cursor) (m : BlockMessage) : Fetcher σ :=
  if r.queue.closed then { r with phase := .stopped }
  else if r.queue.room = 0 then r
  else
    let queue := r.queue.push m
    match Checked.add r.next 1 with
    | .error _ => { r with queue, phase := .broken }
    | .ok next => { r with queue, next, phase := .reading c }

/-- One move of a fetcher that is not waiting. -/
def step (r : Fetcher σ) : Fetcher σ :=
  match r.phase with
  | .scanning =>
    match Cursor.start r.place r.batchSize r.next none with
    | .error _ => r.fail
    | .ok c => { r with phase := .reading c }
  | .reading c =>
    let (result, c, state) := c.next r.node r.place r.state
    { r with state }.react c result
  | .offering c m => r.send c m
  | _ => r

/-! ### Until it waits -/

def isWaiting (r : Fetcher σ) : Bool :=
  match r.phase with
  | .scanning | .reading _ => false
  | .offering .. => !r.queue.closed && r.queue.room = 0
  | _ => true

/-- How many moves there are at most before the fetcher waits. -/
def workLeft (r : Fetcher σ) : Nat :=
  match r.phase with
  | .scanning => 4 * r.queue.room + 3
  | .reading _ => 4 * r.queue.room + 2
  | .offering .. => 4 * r.queue.room + 1
  | _ => 0

theorem workLeft_react (r : Fetcher σ) (c : Cursor) (result : Except NoAnswer Block) :
    (r.react c result).workLeft ≤ 4 * r.queue.room + 1 := by
  unfold react
  split
  · unfold offer observe writeThrough workLeft
    grind
  all_goals simp [workLeft, fail]

theorem workLeft_step_lt (r : Fetcher σ) (h : r.isWaiting = false) :
    r.step.workLeft < r.workLeft := by
  unfold step
  split
  · rename_i hp
    split <;> simp [workLeft, hp, fail]
  · rename_i c hp
    refine Nat.lt_of_le_of_lt (workLeft_react ..) ?_
    simp [workLeft, hp]
  · rename_i c m hp
    unfold send
    simp only [isWaiting, hp] at h
    split
    · simp [workLeft, hp]
    · split
      · simp_all
      · have := BlockQueue.room_push r.queue m
        split <;> simp only [workLeft, hp] <;> omega
  · unfold isWaiting at h
    split at h <;> simp_all

/-- Moves until the fetcher waits. -/
def settle (r : Fetcher σ) : Fetcher σ :=
  if _h : r.isWaiting then r else r.step.settle
termination_by r.workLeft
decreasing_by exact workLeft_step_lt r (by simpa using _h)

theorem now_step (r : Fetcher σ) : r.step.now = r.now := by
  unfold step react offer observe writeThrough send fail
  grind

theorem now_settle (r : Fetcher σ) : r.settle.now = r.now := by
  fun_induction settle r with
  | case1 => rfl
  | case2 r _ ih => rw [ih, now_step]

/-! ### Time -/

/-- When a waiting fetcher wakes up by itself. -/
def alarm? (r : Fetcher σ) : Option Nat :=
  match r.phase with
  | .polling _ t | .failing t => some t
  | _ => none

/-- Wakes a fetcher whose time has come. -/
def wake (r : Fetcher σ) : Fetcher σ :=
  match r.phase with
  | .polling c t => if t ≤ r.now then { r with phase := .reading c } else r
  | .failing t => if t ≤ r.now then { r with phase := .scanning } else r
  | _ => r

/-- Does all that is to be done now. -/
def catchUp (r : Fetcher σ) : Fetcher σ := r.wake.settle

theorem now_catchUp (r : Fetcher σ) : r.catchUp.now = r.now := by
  rw [catchUp, now_settle]
  unfold wake
  split
  · split <;> rfl
  · split <;> rfl
  · rfl

/-- The time of the next alarm before `deadline`; a wait takes some time in any case. -/
def alarmBefore? (r : Fetcher σ) (deadline : Nat) : Option Nat :=
  match r.alarm? with
  | some t => if max t (r.now + 1) < deadline then some (max t (r.now + 1)) else none
  | none => none

theorem alarmBefore?_bounds {r : Fetcher σ} {deadline t : Nat}
    (h : r.alarmBefore? deadline = some t) : r.now < t ∧ t < deadline := by
  unfold alarmBefore? at h
  split at h
  · split at h
    · cases h
      omega
    · cases h
  · cases h

/-- Lets time pass up to `deadline`; what is due at the deadline itself is left for later. -/
def passTo (r : Fetcher σ) (deadline : Nat) : Fetcher σ :=
  let r' := r.catchUp
  match _h : r'.alarmBefore? deadline with
  | some t => { r' with now := t }.passTo deadline
  | none => { r' with now := max r'.now deadline }
termination_by deadline - r.now
decreasing_by
  have hb := alarmBefore?_bounds _h
  have hr : r'.now = r.now := now_catchUp r
  omega

def cancel (r : Fetcher σ) : Fetcher σ :=
  match r.phase with
  | .broken => r
  | _ => { r with phase := .stopped }

def isOver (r : Fetcher σ) : Bool :=
  match r.phase with
  | .stopped | .broken => true
  | _ => false

def isBroken (r : Fetcher σ) : Bool :=
  match r.phase with
  | .broken => true
  | _ => false

/-! ### The other end of the queue -/

/-- What a receiver gets. -/
inductive Received where
  | message (m : BlockMessage) (time : Nat)
  | timeout
  | closed

/-- The next message, or why there will be none without more time. -/
def poll (r : Fetcher σ) : Option (Received × Fetcher σ) :=
  match r.queue.messages with
  | m :: rest => some (.message m r.now, { r with queue := { r.queue with messages := rest } })
  | [] => if r.queue.closed || r.isOver then some (.closed, r) else none

/-- Waits for a message up to `deadline`. -/
def receive (r : Fetcher σ) (deadline : Nat) : Received × Fetcher σ :=
  match r.poll with
  | some answer => answer
  | none =>
    if deadline ≤ r.now then (.timeout, r)
    else
      let r' := r.catchUp
      match r'.poll with
      | some answer => answer
      | none =>
        match _h : r'.alarmBefore? deadline with
        | some t => { r' with now := t }.receive deadline
        | none => (.timeout, { r' with now := max r'.now deadline })
termination_by deadline - r.now
decreasing_by
  have hb := alarmBefore?_bounds _h
  have hr : r'.now = r.now := now_catchUp r
  omega

/-- Waits for up to `count` messages, `wait` for each, and stops at the first that does not come. -/
def receiveUpTo (wait : Nat) : Nat → Fetcher σ → List Received × Fetcher σ
  | 0, r => ([], r)
  | count + 1, r =>
    match r.receive (r.now + wait) with
    | (.message m t, r) =>
      let (more, r) := receiveUpTo wait count r
      (.message m t :: more, r)
    | (other, r) => ([other], r)

end Fetcher

end PoolIndexer
