import AutoReset.Counter
import AutoReset.Fault
/-!
# The latch: one slot for one pending signal

A latch is the flag of an auto-reset event together with four running counters.
Posting sets the flag, taking clears it, and there is a single slot: a post that
finds the flag set is absorbed into the signal already there. Nothing here waits
or locks; an event guards its latch, and this file says what may be done to it.

Each operation first brings its counter up to date, and a counter that is full
ends the operation there. So an operation is an `AutoReset.Attempt`, and the
order of its parts shows in the latch that a fault leaves behind: `post` counts
before it looks at the flag, `take` clears the flag before it counts.

The counters tell how many signals are in the slot: posts less the absorbed ones
less the consumed ones (`AutoReset.Stats.pending`), a difference that does not
exist for counters which no latch can have.
-/

namespace AutoReset

/-- What the flag of an event says. -/
inductive State where
  /-- A signal is pending, and the next wait consumes it. -/
  | set
  /-- No signal is pending, and waits block. -/
  | unset
  deriving DecidableEq, Repr

/-- The name of a state. -/
def State.name : State → String
  | set => "Set"
  | unset => "Unset"

/-- The running counters of one event. -/
structure Stats where
  /-- Signals received. -/
  posts : Counter := 0
  /-- Signals that found one already pending. -/
  coalesced : Counter := 0
  /-- Waits that consumed a signal. -/
  consumed : Counter := 0
  /-- Bounded waits that ran out. -/
  timeouts : Counter := 0
  deriving DecidableEq, Repr

namespace Stats

/-- All counters at zero. -/
def zero : Stats := {}

/-- Signals received and not consumed: posts less absorbed less consumed, taken
off one after the other. -/
def pending (s : Stats) : Except Fault Counter :=
  match Counter.sub? s.posts s.coalesced with
  | none => .error .counterUnderflow
  | some kept =>
    match Counter.sub? kept s.consumed with
    | none => .error .counterUnderflow
    | some left => .ok left

end Stats

/-- The flag of an event and its counters. -/
structure Latch where
  /-- Is a signal pending? -/
  signaled : Bool := false
  /-- The running counters. -/
  stats : Stats := .zero
  deriving DecidableEq, Repr

namespace Latch

/-- The latch of a new event: nothing pending, nothing counted. -/
def fresh : Latch := {}

/-- The flag, as a state. -/
def state (l : Latch) : State :=
  if l.signaled then .set else .unset

/-! ### Counting -/

/-- Counts one signal received. -/
def countPost : Attempt Latch Unit := fun l =>
  match Counter.succ? l.stats.posts with
  | none => .error .counterOverflow l
  | some n => .ok () { l with stats.posts := n }

/-- Counts one signal absorbed into a pending one. -/
def countCoalesced : Attempt Latch Unit := fun l =>
  match Counter.succ? l.stats.coalesced with
  | none => .error .counterOverflow l
  | some n => .ok () { l with stats.coalesced := n }

/-- Counts one signal consumed. -/
def countConsumed : Attempt Latch Unit := fun l =>
  match Counter.succ? l.stats.consumed with
  | none => .error .counterOverflow l
  | some n => .ok () { l with stats.consumed := n }

/-- Counts one bounded wait that ran out. -/
def recordTimeout : Attempt Latch Unit := fun l =>
  match Counter.succ? l.stats.timeouts with
  | none => .error .counterOverflow l
  | some n => .ok () { l with stats.timeouts := n }

/-! ### Posting and taking -/

/-- Latches a signal. False says that one was pending already, which absorbs
this one. -/
def post : Attempt Latch Bool := do
  countPost
  if (← get).signaled then
    countCoalesced
    return false
  else
    modify fun l => { l with signaled := true }
    return true

/-- Consumes the pending signal. False says that there was none. -/
def take : Attempt Latch Bool := do
  if (← get).signaled then
    modify fun l => { l with signaled := false }
    countConsumed
    return true
  else
    return false

end Latch

end AutoReset
