import PoolIndexer.Refresh.Refresher

/-!
# Refresh.Loop — when the refresher wakes up

The refresher sleeps until somebody calls it or an interval has passed.  Awake, it reads the time of
the latest committed block and converges to it; a failure waits for the next occasion.  Times are
milliseconds since the loop began.
-/

namespace PoolIndexer

inductive LoopState where
  | running
  | stopped
  /-- An overflow has ended the loop. -/
  | broken
  deriving DecidableEq

structure RefreshLoop where
  refresher : Refresher
  store : Store
  /-- The time of the latest committed block. -/
  committed : Option Int64
  calls : Signal
  /-- The time between two ticks. -/
  interval : Nat
  now : Nat
  state : LoopState

namespace RefreshLoop

def stopWith (l : RefreshLoop) (state : LoopState) : RefreshLoop :=
  { l with state, calls := l.calls.deafen }

/-- A loop that has had its first tick, before any commit; without an interval there is no loop. -/
def start (refresher : Refresher) (store : Store) (interval : Nat) : RefreshLoop :=
  let l : RefreshLoop := ⟨refresher, store, none, .fresh, interval, 0, .running⟩
  if interval = 0 then l.stopWith .broken else l

/-- Converges to the latest committed block. -/
def wake (l : RefreshLoop) : RefreshLoop :=
  match l.state, l.committed with
  | .running, some t =>
    match l.refresher.converge l.store (Refresher.targetOf t) false with
    | (.error (.overflow _), refresher, store) => { l with refresher, store }.stopWith .broken
    | (_, refresher, store) => { l with refresher, store }
  | _, _ => l

/-- Answers a waiting call. -/
def answerCall (l : RefreshLoop) : RefreshLoop :=
  match l.calls.tryTake with
  | (true, calls) => { l with calls }.wake
  | (false, _) => l

def wakeTimes : Nat → RefreshLoop → RefreshLoop
  | 0, l => l
  | n + 1, l => wakeTimes n l.wake

/-- How many ticks fall into the next `ms` milliseconds. -/
def ticksWithin (l : RefreshLoop) (ms : Nat) : Nat :=
  (l.now + ms) / l.interval - l.now / l.interval

/-- Lets time pass. -/
def pass (l : RefreshLoop) (ms : Nat) : RefreshLoop :=
  { wakeTimes (l.ticksWithin ms) l.answerCall with now := l.now + ms }

def cancel (l : RefreshLoop) : RefreshLoop :=
  match l.state with
  | .running => l.stopWith .stopped
  | _ => l

end RefreshLoop

end PoolIndexer
