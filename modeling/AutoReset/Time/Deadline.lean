import AutoReset.Time.Instant
import AutoReset.Text.Tree
/-!
# Deadlines: the bound of one timed wait

A deadline is fixed once, when a bounded wait begins, and asked again after every
wakeup how much time is left; so waking too early never stretches the bound. A
timeout that leads past the last instant has no due time: such a deadline never
expires, and always has the longest duration left.
-/

namespace AutoReset

/-- The bound of one timed wait. -/
structure Deadline where
  /-- When the wait began. -/
  start : Instant
  /-- When it is to end; none if that is past the last instant. -/
  due : Option Instant
  deriving DecidableEq

namespace Deadline

/-- The deadline a timeout after an instant. -/
def startingAt (start : Instant) (timeout : Duration) : Deadline :=
  ⟨start, start.add? timeout⟩

/-- Has the deadline passed? -/
def isExpiredAt (d : Deadline) (now : Instant) : Bool :=
  match d.due with
  | some due => due ≤ now
  | none => false

/-- The time left, zero once the deadline has passed. -/
def remainingAt (d : Deadline) (now : Instant) : Duration :=
  match d.due with
  | some due => due.since now
  | none => .max

/-- The time passed since the wait began. -/
def elapsedAt (d : Deadline) (now : Instant) : Duration :=
  now.since d.start

end Deadline

/-! ### Texts -/

open Text

/-- An instant is a record of its seconds and nanoseconds. -/
def Instant.tree (i : Instant) : Tree :=
  record "Instant" [("tv_sec", .number i.secs), ("tv_nsec", .natural i.nanos)]

/-- A deadline is a record of its beginning and its due time. -/
def Deadline.tree (d : Deadline) : Tree :=
  record "Deadline"
    [("start", d.start.tree),
      ("deadline",
        match d.due with
        | some due => wrapper "Some" due.tree
        | none => .ofString "None")]

end AutoReset
