/-!
# What can go wrong

Two kinds of failure are kept apart. An `AutoReset.EventError` is an answer: the
call returned, and says that it could not do what was asked. A
`AutoReset.Fault` is the end of a call in the middle: it unwinds to its caller
and leaves behind what it had already changed. `AutoReset.Attempt` is a
computation that may end in a fault, and that keeps the state reached by then.
-/

namespace AutoReset

/-- A failure that a call reports as its answer. -/
inductive EventError where
  /-- The allocator had no memory for the event. -/
  | allocationFailure
  /-- A bounded wait ran out before a signal arrived. -/
  | timeout
  deriving DecidableEq, Repr

namespace EventError

/-- The name of the failure. -/
def name : EventError → String
  | allocationFailure => "AllocationFailure"
  | timeout => "Timeout"

/-- The failure in words. -/
def message : EventError → String
  | allocationFailure => "event allocation failed"
  | timeout => "timed out waiting for event"

end EventError

/-- The cause for which a call ends in the middle. -/
inductive Fault where
  /-- A counter stood at its last value when it had to be increased. -/
  | counterOverflow
  /-- A difference of counters would have been negative. -/
  | counterUnderflow
  /-- The log sink failed while it took in a record. -/
  | sinkFailed
  /-- A width or a precision was too large for a format specification. -/
  | fieldTooLarge
  /-- A place was to be taken modulo a number of places that is zero. -/
  | remainderByZero
  deriving DecidableEq, Repr

/-- The cause in words. -/
def Fault.message : Fault → String
  | counterOverflow => "attempt to add with overflow"
  | counterUnderflow => "attempt to subtract with overflow"
  | sinkFailed => "log sink failed"
  | fieldTooLarge => "Formatting argument out of range"
  | remainderByZero => "attempt to calculate the remainder with a divisor of zero"

/-- A computation on a state that may end in a fault; the changes made before
the fault stay made. -/
abbrev Attempt (σ α : Type) := EStateM Fault σ α

namespace Attempt

variable {σ α β : Type}

/-- One computation after another goes on from where the first one ends, and not past a
fault. -/
theorem bind_apply (x : Attempt σ α) (f : α → Attempt σ β) (s : σ) :
    (x >>= f) s =
      match x s with
      | .ok a s => f a s
      | .error e s => .error e s := by
  show EStateM.bind x f s = _
  unfold EStateM.bind
  cases x s <;> rfl

theorem map_apply (f : α → β) (x : Attempt σ α) (s : σ) :
    (f <$> x) s =
      match x s with
      | .ok a s => .ok (f a) s
      | .error e s => .error e s := by
  show EStateM.map f x s = _
  unfold EStateM.map
  cases x s <;> rfl

theorem pure_apply (a : α) (s : σ) : (pure a : Attempt σ α) s = .ok a s := rfl

theorem get_apply (s : σ) : (get : Attempt σ σ) s = .ok s s := rfl

theorem modify_apply (f : σ → σ) (s : σ) : (modify f : Attempt σ Unit) s = .ok () (f s) := rfl

end Attempt

end AutoReset
