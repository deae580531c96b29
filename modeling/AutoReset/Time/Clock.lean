import AutoReset.Time.Deadline
/-!
# Reading a running clock

Some questions to a deadline bring no instant along: they read the clock. A
computation in `AutoReset.Clocked` carries the clock with it, and the clock moves
on by a microsecond with every reading, so that two readings are never the same.
-/

namespace AutoReset

/-- A computation that reads a running clock. -/
abbrev Clocked (α : Type) := StateM Instant α

namespace Clock

/-- A microsecond, the time from one reading to the next. -/
def tick : Duration := ⟨0, 1000, Duration.zero.secs_lt, by decide⟩

/-- Where a clock that has run for a while may stand. -/
def settled : Instant := ⟨0x100000000, 0, by decide, by decide, Duration.zero.nanos_lt⟩

/-- The instant a duration later, and at most the last one. -/
def advance (now : Instant) (d : Duration) : Instant :=
  (now.add? d).getD .last

/-- Reads the clock. -/
def read : Clocked Instant := fun now => (now, advance now tick)

end Clock

namespace Deadline

/-- The deadline a timeout from now. -/
def after (timeout : Duration) : Clocked Deadline := do
  return startingAt (← Clock.read) timeout

/-- Has the deadline passed by now? -/
def isExpired (d : Deadline) : Clocked Bool := do
  return d.isExpiredAt (← Clock.read)

/-- The time left now. -/
def remaining (d : Deadline) : Clocked Duration := do
  return d.remainingAt (← Clock.read)

/-- The time passed by now. -/
def elapsed (d : Deadline) : Clocked Duration := do
  return d.elapsedAt (← Clock.read)

end Deadline

/-! ### What can be said without knowing the hour -/

/-- How much time is left, without the amount. -/
inductive Leftover where
  /-- None. -/
  | zero
  /-- The longest duration. -/
  | max
  /-- Anything between. -/
  | some
  deriving DecidableEq, Repr

/-- A time left, without the amount. -/
def Leftover.ofDuration (d : Duration) : Leftover :=
  if d.isZero then .zero else if d = .max then .max else .some

/-- What one look at a deadline tells. -/
structure Glance where
  /-- Has it passed? -/
  expired : Bool
  /-- How much time is left. -/
  remaining : Leftover
  /-- Is the time left no more than the timeout? -/
  withinTimeout : Bool
  /-- Has no time passed since the start? -/
  elapsedZero : Bool
  /-- Has less than a minute passed since the start? -/
  elapsedUnderMinute : Bool

/-- Looks at a deadline that was set with this timeout. -/
def Deadline.glance (d : Deadline) (timeout : Duration) : Clocked Glance := do
  let expired ← d.isExpired
  let remaining ← d.remaining
  let elapsed ← d.elapsed
  return {
    expired
    remaining := .ofDuration remaining
    withinTimeout := remaining ≤ timeout
    elapsedZero := elapsed.isZero
    elapsedUnderMinute := elapsed.secs < 60 }

/-- Sets a deadline from a given instant, or from now, and looks at it. -/
def Deadline.setAndGlance (start : Option Instant) (timeout : Duration) : Clocked Glance := do
  match start with
  | some i => (startingAt i timeout).glance timeout
  | none =>
    let d ← after timeout
    d.glance timeout

end AutoReset
