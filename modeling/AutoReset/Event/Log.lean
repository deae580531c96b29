import AutoReset.Fault
import AutoReset.Memory.Placement
import AutoReset.Time.Duration
/-!
# Log records

Four things that happen to an event are put on record: it was created, there was
no memory for it, it was released, and a bounded wait ran out. Each kind has its
level, and a logger takes in the records up to the level it was set to; a record
above that is not made at all. The sink behind a logger can be armed to fail: the
next record that is made is still taken in, and then the sink fails, once.

A written record hides what differs from run to run: addresses, sizes and times.
-/

namespace AutoReset

/-- How important a record is, most important first. -/
inductive Level where
  /-- Something failed. -/
  | error
  /-- Something is wrong. -/
  | warn
  /-- Something of note. -/
  | info
  /-- A detail. -/
  | debug
  /-- A step. -/
  | trace
  deriving DecidableEq, Repr

namespace Level

/-- The place of a level, most important first. -/
def rank : Level → Nat
  | error => 1
  | warn => 2
  | info => 3
  | debug => 4
  | trace => 5

/-- The name of a level in a record. -/
def name : Level → String
  | error => "ERROR"
  | warn => "WARN"
  | info => "INFO"
  | debug => "DEBUG"
  | trace => "TRACE"

end Level

/-- What is put on record. -/
inductive Record where
  /-- An event was created here. -/
  | created (address : Address)
  /-- There was no memory for an event of this size. -/
  | allocationFailed (size : Nat)
  /-- The event that was here was released. -/
  | released (address : Address)
  /-- A bounded wait ran out after this time. -/
  | timedOut (elapsed : Duration)
  deriving DecidableEq

namespace Record

/-- The level of a record. -/
def level : Record → Level
  | allocationFailed _ => .warn
  | created _ | released _ | timedOut _ => .trace

/-- What a record says. -/
def message : Record → String
  | created _ => "event created at <ptr>"
  | allocationFailed _ => "event allocation failed (<n> bytes)"
  | released _ => "event released at <ptr>"
  | timedOut _ => "event wait timed out after <elapsed>"

/-- The line written for a record: its level, its target and what it says. -/
def text (r : Record) : String :=
  r.level.name ++ " alice_event::event " ++ r.message

end Record

/-- Takes in records up to a level. -/
structure Logger where
  /-- The least important level that is taken in; none if logging is off. -/
  limit : Option Level := none
  /-- Does the sink fail at the next record? -/
  armed : Bool := false
  /-- The records taken in, oldest first. -/
  records : List Record := []

namespace Logger

/-- Is a record of this level made? -/
def admits (l : Logger) (level : Level) : Bool :=
  match l.limit with
  | none => false
  | some limit => level.rank ≤ limit.rank

/-- Puts something on record. -/
def put (r : Record) : Attempt Logger Unit := fun l =>
  if l.admits r.level then
    if l.armed then .error .sinkFailed { l with armed := false, records := l.records ++ [r] }
    else .ok () { l with records := l.records ++ [r] }
  else .ok () l

end Logger

end AutoReset
