/-!
# Refresh.Signal — a wake-up call that is remembered once

A signal has room for one call.  A call while another is waiting is dropped and counted; a call that
nobody can hear any more is lost without being counted.
-/

namespace PoolIndexer

structure Signal where
  pending : Bool
  /-- Whether anybody still listens. -/
  listening : Bool
  /-- How many can still call. -/
  callers : Nat
  dropped : Nat
  deriving DecidableEq

namespace Signal

def fresh : Signal := ⟨false, true, 1, 0⟩

/-- Calls once; says whether the call is queued. -/
def fire (s : Signal) : Bool × Signal :=
  if !s.listening then (false, s)
  else if s.pending then (false, { s with dropped := s.dropped + 1 })
  else (true, { s with pending := true })

def addCaller (s : Signal) : Signal := { s with callers := s.callers + 1 }

def dropCaller (s : Signal) : Signal := { s with callers := s.callers - 1 }

def deafen (s : Signal) : Signal := { s with listening := false, pending := false }

/-- Takes a waiting call, if there is one. -/
def tryTake (s : Signal) : Bool × Signal :=
  if s.pending then (true, { s with pending := false }) else (false, s)

/-- What somebody who waits for a call sees now. -/
inductive Wait where
  | signal
  | closed
  | pending
  deriving DecidableEq

def wait (s : Signal) : Wait × Signal :=
  if s.pending then (.signal, { s with pending := false })
  else if s.callers = 0 then (.closed, s)
  else (.pending, s)

end Signal

end PoolIndexer
