import PoolIndexer.Chain.Fetcher
import PoolIndexer.Chain.Scripted
import PoolIndexer.Proofs.Chain.Cursor
import PoolIndexer.Proofs.Ingest.Order

/-!
# Proofs.Chain.Delivery — every block once and in order, whatever fails

* `Feed`: a fetcher together with the messages that have been taken out of its queue.
* `FetchAction`: a move of the fetcher, time that passes, a message that is taken, the end of the
  queue or of the fetcher, and at any moment another node or another archive.
* `Feed.Lasting`: a property that single moves keep lasts while time passes and while a message is waited for.
* `Feed.InStep`: the messages so far count up from the start, the counter of the fetcher is the
  height above them, and the cursor stands at that height, or right above it while its block is
  offered.
* `Feed.inStep_run`: all actions in any order keep this.
-/

namespace PoolIndexer

variable {σ : Type}

/-! ### The phases of a fetcher -/

/-- Where the cursor of a fetcher stands that is to deliver the height `next`. -/
def FetchPhase.StandsAt (next : Int) : FetchPhase → Prop
  | .reading c | .polling c _ => c.nextHeight.toInt = next
  | .offering c m => m.block.height.toInt = next ∧ c.nextHeight.toInt = next + 1
  | .scanning | .failing _ | .hanging | .stopped | .broken => True

namespace Fetcher

/-- The queue is as it was, and so is the height to be delivered, at which the cursor stands. -/
structure Keeps (r r' : Fetcher σ) : Prop where
  queue : r'.queue = r.queue
  next : r'.next = r.next
  stands : r'.phase.StandsAt r.next.toInt

/-- A message is in the queue and the next height is to be delivered. -/
structure Sends (r r' : Fetcher σ) (m : BlockMessage) : Prop where
  queue : r'.queue = r.queue.push m
  height : m.block.height.toInt = r.next.toInt
  next : r'.next.toInt = r.next.toInt + 1
  stands : r'.phase.StandsAt r'.next.toInt

/-- What a move may do. -/
def Moves (r r' : Fetcher σ) : Prop := r.Keeps r' ∨ ∃ m, r.Sends r' m

/-! ### One move -/

theorem keeps_fail (r : Fetcher σ) : r.Keeps r.fail := ⟨rfl, rfl, trivial⟩

theorem writeThrough_eq_ok {r r' : Fetcher σ} {b : Block} (h : r.writeThrough b = .ok r') :
    r'.queue = r.queue ∧ r'.next = r.next ∧ r'.phase = r.phase := by
  unfold writeThrough at h
  cases hwriter : r.writer with
  | none =>
    rw [hwriter] at h
    cases h
    exact ⟨rfl, rfl, rfl⟩
  | some w =>
    rw [hwriter] at h
    dsimp only at h
    split at h
    · cases h
      exact ⟨rfl, rfl, rfl⟩
    · cases h
      exact ⟨rfl, rfl, rfl⟩
    · cases h

/-- A block that was handed out is offered with the cursor right above it. -/
theorem keeps_offer {r : Fetcher σ} {c : Cursor} {b : Block} (hheight : b.height.toInt = r.next.toInt)
    (hcursor : c.nextHeight.toInt = r.next.toInt + 1) : r.Keeps (r.offer c b) := by
  unfold offer
  dsimp only
  split
  · split
    · rename_i r' hwrite
      obtain ⟨hqueue, hnext, hphase⟩ := writeThrough_eq_ok hwrite
      refine ⟨hqueue, hnext, ?_⟩
      rw [hphase]
      exact ⟨hheight, hcursor⟩
    · exact ⟨rfl, rfl, trivial⟩
  · exact ⟨rfl, rfl, hheight, hcursor⟩

/-- The answer to a request leaves the fetcher in step with its cursor. -/
theorem keeps_react {r : Fetcher σ} {c c' : Cursor} {result : Except NoAnswer Block}
    (hcursor : c.nextHeight.toInt = r.next.toInt) (h : c.Hands result c') : r.Keeps (r.react c' result) := by
  unfold react
  split
  · rename_i b
    obtain ⟨hheight, hnext⟩ := h
    have hb : b.height.toInt = r.next.toInt := by rw [hheight, hcursor]
    have hc' : c'.nextHeight.toInt = r.next.toInt + 1 := by rw [hnext, hcursor]
    have hoffer := keeps_offer (r := r.observe c') hb hc'
    exact ⟨hoffer.queue, hoffer.next, hoffer.stands⟩
  · exact ⟨rfl, rfl, trivial⟩
  · exact ⟨rfl, rfl, trivial⟩
  · have hstays : c'.nextHeight = c.nextHeight := h
    refine ⟨rfl, rfl, ?_⟩
    show c'.nextHeight.toInt = r.next.toInt
    rw [hstays, hcursor]
  · exact ⟨rfl, rfl, trivial⟩

theorem moves_send {r : Fetcher σ} {c : Cursor} {m : BlockMessage} (hheight : m.block.height.toInt = r.next.toInt)
    (hcursor : c.nextHeight.toInt = r.next.toInt + 1) (hphase : r.phase = .offering c m) :
    r.Moves (r.send c m) := by
  unfold send
  split
  · exact .inl ⟨rfl, rfl, trivial⟩
  · split
    · refine .inl ⟨rfl, rfl, ?_⟩
      rw [hphase]
      exact ⟨hheight, hcursor⟩
    · -- the cursor is above the counter already, so the counter can follow it
      have hadd : Checked.add r.next 1 = .ok c.nextHeight := Checked.add_eq_ok_iff.2 hcursor
      dsimp only
      rw [hadd]
      exact .inr ⟨m, rfl, hheight, hcursor, rfl⟩

/-- **One move**: the fetcher stays in step, and what it sends has the next height. -/
theorem moves_step {r : Fetcher σ} (h : r.phase.StandsAt r.next.toInt) : r.Moves r.step := by
  unfold step
  cases hphase : r.phase with
  | scanning =>
    dsimp only
    cases hstart : Cursor.start r.place r.batchSize r.next none with
    | error e => exact .inl (keeps_fail r)
    | ok c =>
      refine .inl ⟨rfl, rfl, ?_⟩
      show c.nextHeight.toInt = r.next.toInt
      rw [Cursor.nextHeight_start hstart]
  | reading c =>
    rw [hphase] at h
    have hhands := Cursor.hands_next r.node r.place c r.state
    have hreact := keeps_react (r := { r with state := (c.next r.node r.place r.state).2.2 }) h hhands
    exact .inl ⟨hreact.queue, hreact.next, hreact.stands⟩
  | offering c m =>
    rw [hphase] at h
    exact moves_send h.1 h.2 hphase
  | polling c wake => exact .inl ⟨rfl, rfl, h⟩
  | failing wake => exact .inl ⟨rfl, rfl, h⟩
  | hanging => exact .inl ⟨rfl, rfl, h⟩
  | stopped => exact .inl ⟨rfl, rfl, h⟩
  | broken => exact .inl ⟨rfl, rfl, h⟩

theorem keeps_wake {r : Fetcher σ} (h : r.phase.StandsAt r.next.toInt) : r.Keeps r.wake := by
  unfold wake
  split
  · rename_i c t hphase
    rw [hphase] at h
    split
    · exact ⟨rfl, rfl, h⟩
    · refine ⟨rfl, rfl, ?_⟩
      rw [hphase]
      exact h
  · split
    · exact ⟨rfl, rfl, trivial⟩
    · exact ⟨rfl, rfl, h⟩
  · exact ⟨rfl, rfl, h⟩

theorem keeps_cancel {r : Fetcher σ} (h : r.phase.StandsAt r.next.toInt) : r.Keeps r.cancel := by
  unfold cancel
  split
  · exact ⟨rfl, rfl, h⟩
  · exact ⟨rfl, rfl, trivial⟩

end Fetcher

/-! ### A fetcher and the messages taken from it -/

structure Feed (σ : Type) where
  fetcher : Fetcher σ
  /-- The messages that have been taken out of the queue, the first one first. -/
  taken : List BlockMessage

inductive FetchAction (σ : Type) where
  /-- One move of the fetcher. -/
  | move
  /-- The fetcher looks at its alarm. -/
  | wake
  /-- Time passes, and nobody moves. -/
  | idle (ms : Nat)
  /-- Time passes while the fetcher does what is due. -/
  | pass (deadline : Nat)
  /-- The first message is taken out of the queue. -/
  | take
  /-- A message is waited for and taken. -/
  | receive (deadline : Nat)
  /-- From now on the node answers like that one. -/
  | node (node : Node σ) (state : σ)
  /-- From now on the archive holds that. -/
  | archive (place : Place)
  /-- The queue takes no more messages. -/
  | close
  | cancel

namespace Feed

/-- Everything that has been put into the queue. -/
def sent (f : Feed σ) : List BlockMessage := f.taken ++ f.fetcher.queue.messages

def withFetcher (f : Feed σ) (r : Fetcher σ) : Feed σ := { f with fetcher := r }

/-- Takes what a receiver has been given. -/
def received (f : Feed σ) : Fetcher.Received × Fetcher σ → Feed σ
  | (.message m _, r) => ⟨r, f.taken ++ [m]⟩
  | (.timeout, r) | (.closed, r) => f.withFetcher r

def step (f : Feed σ) : FetchAction σ → Feed σ
  | .move => f.withFetcher f.fetcher.step
  | .wake => f.withFetcher f.fetcher.wake
  | .idle ms => f.withFetcher { f.fetcher with now := f.fetcher.now + ms }
  | .pass deadline => f.withFetcher (f.fetcher.passTo deadline)
  | .take =>
    match f.fetcher.poll with
    | some answer => f.received answer
    | none => f
  | .receive deadline => f.received (f.fetcher.receive deadline)
  | .node node state => f.withFetcher { f.fetcher with node, state }
  | .archive place => f.withFetcher { f.fetcher with place }
  | .close => f.withFetcher { f.fetcher with queue := { f.fetcher.queue with closed := true } }
  | .cancel => f.withFetcher f.fetcher.cancel

def run (f : Feed σ) (actions : List (FetchAction σ)) : Feed σ := actions.foldl step f

/-- A property that a single move of the fetcher or of its receiver keeps. -/
structure Lasting (I : Feed σ → Prop) : Prop where
  move : ∀ {f : Feed σ}, I f → I (f.withFetcher f.fetcher.step)
  wake : ∀ {f : Feed σ}, I f → I (f.withFetcher f.fetcher.wake)
  now : ∀ {f : Feed σ} (now : Nat), I f → I (f.withFetcher { f.fetcher with now })
  poll : ∀ {f : Feed σ} {answer : Fetcher.Received × Fetcher σ},
    f.fetcher.poll = some answer → I f → I (f.received answer)

namespace Lasting

variable {I : Feed σ → Prop} {f : Feed σ}

theorem settle (hI : Lasting I) (r : Fetcher σ) (h : I (f.withFetcher r)) : I (f.withFetcher r.settle) := by
  fun_induction Fetcher.settle r with
  | case1 r _ => exact h
  | case2 r _ ih => exact ih (hI.move h)

theorem catchUp (hI : Lasting I) (r : Fetcher σ) (h : I (f.withFetcher r)) : I (f.withFetcher r.catchUp) :=
  hI.settle r.wake (hI.wake h)

theorem passTo (hI : Lasting I) (deadline : Nat) (r : Fetcher σ) (h : I (f.withFetcher r)) :
    I (f.withFetcher (r.passTo deadline)) := by
  fun_induction Fetcher.passTo r deadline with
  | case1 r r' t _ ih => exact ih (hI.now t (hI.catchUp r h))
  | case2 r r' _ => exact hI.now _ (hI.catchUp r h)

theorem receive (hI : Lasting I) (deadline : Nat) (r : Fetcher σ) (h : I (f.withFetcher r)) :
    I (f.received (r.receive deadline)) := by
  fun_induction Fetcher.receive r deadline with
  | case1 r answer hanswer => exact hI.poll (f := f.withFetcher r) hanswer h
  | case2 r _ _ => exact h
  | case3 r _ _ r' answer hanswer => exact hI.poll (f := f.withFetcher r') hanswer (hI.catchUp r h)
  | case4 r _ _ r' _ t _ ih => exact ih (hI.now t (hI.catchUp r h))
  | case5 r _ _ r' _ _ => exact hI.now _ (hI.catchUp r h)

end Lasting

theorem sent_of_queue {f : Feed σ} {r : Fetcher σ} (h : r.queue = f.fetcher.queue) :
    (f.withFetcher r).sent = f.sent := by
  show f.taken ++ r.queue.messages = f.taken ++ f.fetcher.queue.messages
  rw [h]

theorem sent_of_push {f : Feed σ} {r : Fetcher σ} {m : BlockMessage} (h : r.queue = f.fetcher.queue.push m) :
    (f.withFetcher r).sent = f.sent ++ [m] := by
  show f.taken ++ r.queue.messages = f.taken ++ f.fetcher.queue.messages ++ [m]
  rw [h, List.append_assoc]
  rfl

/-- A message that is taken has been sent before. -/
theorem sent_received {f : Feed σ} {answer : Fetcher.Received × Fetcher σ} (h : f.fetcher.poll = some answer) :
    (f.received answer).sent = f.sent ∧
      ∃ queue, (f.received answer).fetcher = { f.fetcher with queue := queue } := by
  unfold Fetcher.poll at h
  split at h
  · rename_i m rest hmessages
    cases h
    refine ⟨?_, _, rfl⟩
    show f.taken ++ [m] ++ rest = f.taken ++ f.fetcher.queue.messages
    rw [hmessages, List.append_assoc]
    rfl
  · split at h
    · cases h
      exact ⟨rfl, _, rfl⟩
    · cases h

/-- The fetcher is in step with what it has sent. -/
structure InStep (start : Int) (f : Feed σ) : Prop where
  sent : Consecutive start f.sent
  next : f.fetcher.next.toInt = start + f.sent.length
  stands : f.fetcher.phase.StandsAt f.fetcher.next.toInt

section

variable {start : Int} {f : Feed σ}

theorem inStep_of_keeps {r : Fetcher σ} (h : f.InStep start) (hr : f.fetcher.Keeps r) :
    (f.withFetcher r).InStep start := by
  have hsent : (f.withFetcher r).sent = f.sent := sent_of_queue hr.queue
  refine ⟨hsent ▸ h.sent, ?_, ?_⟩
  · show r.next.toInt = start + (f.withFetcher r).sent.length
    rw [hsent, hr.next]
    exact h.next
  · show r.phase.StandsAt r.next.toInt
    rw [hr.next]
    exact hr.stands

theorem inStep_of_sends {r : Fetcher σ} {m : BlockMessage} (h : f.InStep start) (hr : f.fetcher.Sends r m) :
    (f.withFetcher r).InStep start := by
  have hsent : (f.withFetcher r).sent = f.sent ++ [m] := sent_of_push hr.queue
  refine ⟨?_, ?_, hr.stands⟩
  · rw [hsent]
    refine h.sent.append_singleton ?_
    rw [hr.height, h.next]
  · show r.next.toInt = start + (f.withFetcher r).sent.length
    rw [hsent, hr.next, h.next, List.length_append, List.length_singleton]
    omega

theorem inStep_move (h : f.InStep start) : (f.withFetcher f.fetcher.step).InStep start := by
  rcases Fetcher.moves_step h.stands with hkeeps | ⟨m, hsends⟩
  · exact inStep_of_keeps h hkeeps
  · exact inStep_of_sends h hsends

theorem inStep_poll {answer : Fetcher.Received × Fetcher σ} (hanswer : f.fetcher.poll = some answer)
    (h : f.InStep start) : (f.received answer).InStep start := by
  obtain ⟨hsent, queue, hfetcher⟩ := sent_received hanswer
  obtain ⟨hconsecutive, hnext, hstands⟩ := h
  rw [← hsent] at hconsecutive hnext
  exact ⟨hconsecutive, by rw [hfetcher]; exact hnext, by rw [hfetcher]; exact hstands⟩

theorem lasting_inStep : Lasting (InStep start : Feed σ → Prop) where
  move := inStep_move
  wake h := inStep_of_keeps h (Fetcher.keeps_wake h.stands)
  now _ h := inStep_of_keeps h ⟨rfl, rfl, h.stands⟩
  poll := inStep_poll

/-! ### All actions -/

theorem inStep_step (h : f.InStep start) (a : FetchAction σ) : (f.step a).InStep start := by
  cases a with
  | move => exact inStep_move h
  | wake => exact inStep_of_keeps h (Fetcher.keeps_wake h.stands)
  | idle ms => exact inStep_of_keeps h ⟨rfl, rfl, h.stands⟩
  | pass deadline => exact lasting_inStep.passTo deadline f.fetcher h
  | take =>
    unfold step
    cases hpoll : f.fetcher.poll with
    | none => exact h
    | some answer => exact inStep_poll hpoll h
  | receive deadline => exact lasting_inStep.receive deadline f.fetcher h
  | node node state => exact inStep_of_keeps h ⟨rfl, rfl, h.stands⟩
  | archive place => exact inStep_of_keeps h ⟨rfl, rfl, h.stands⟩
  | close => exact ⟨h.sent, h.next, h.stands⟩
  | cancel => exact inStep_of_keeps h (Fetcher.keeps_cancel h.stands)

/-- **Faults**: whatever happens, in whatever order, the fetcher stays in step. -/
theorem inStep_run (h : f.InStep start) (actions : List (FetchAction σ)) : (f.run actions).InStep start :=
  List.foldlRecOn actions step h fun _ h a _ => inStep_step h a

end

end Feed

/-- **Delivery**: whatever node and archive do over time, whatever fails and however often the fetcher
begins anew, the heights in its queue are `start`, `start + 1` and so on, none left out or repeated.  An
ingestor that waits for `start` never finds one of these blocks out of order. -/
theorem Fetcher.sent_inOrder (node : Node σ) (state : σ) (place : Place) (batchSize pollMs : Nat)
    (backoff : Backoff) (writer : Option Archive.Writer) (start : Int64) (capacity : Nat)
    (actions : List (FetchAction σ)) :
    let fetcher := Fetcher.start node state place batchSize pollMs backoff writer start capacity
    let sent := (Feed.run ⟨fetcher, []⟩ actions).sent
    sent.map (fun m => m.block.height.toInt) =
        (List.range sent.length).map (fun i : Nat => start.toInt + i) ∧
      ∀ (g : Ingestor) (expected got : Int64),
        ({ g with nextHeight := start }.consume sent).1 ≠
          .error (.error (.heightOutOfOrder expected got)) := by
  intro fetcher sent
  have hstart : Feed.InStep start.toInt ⟨fetcher, []⟩ := ⟨trivial, (Int.add_zero _).symm, trivial⟩
  have hsent : Consecutive start.toInt sent := (Feed.inStep_run hstart actions).sent
  refine ⟨hsent.map_height, fun g expected got hstop => ?_⟩
  have hwriting := Ingestor.consume_ofWriting (g := { g with nextHeight := start }) hsent
    (Prod.ext hstop rfl)
  exact hwriting

/-- A node that fails at first is asked again, and the two blocks it has arrive. -/
example :
    let node : ScriptedNode := { ScriptedNode.idle with head := 6, headFailures := 1 }
    let fetcher := Fetcher.start ScriptedNode.node node .absent 10 100 (.ofBounds 50 50) none 5 4
    ((Feed.run ⟨fetcher, []⟩ [.move, .move, .idle 50, .wake, .move, .move, .move, .move, .move,
      .take]).sent.map fun m => m.block.height) = [5, 6] := by
  decide +kernel

end PoolIndexer
