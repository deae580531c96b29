import AutoReset.Event.Access
/-!
# The steps of a script

A script is a list of steps over variables, each of which holds the owner of an
event or a handle. Where an operation can be had in more than one way, the step
says in which.
-/

namespace AutoReset.Script

/-- What a variable holds. -/
inductive Variable where
  /-- The owner of an event. -/
  | owner (o : Owner)
  /-- A handle, null or not. -/
  | handle (h : Handle)
  deriving DecidableEq

/-- How a handle is used. -/
inductive Via where
  /-- By its own operations. -/
  | handle
  /-- As a bare number. -/
  | foreign
  deriving DecidableEq, Repr

/-- Where a null handle comes from. -/
inductive NullSource where
  /-- The null handle itself. -/
  | constant
  /-- The handle that is there without being asked for. -/
  | default
  /-- The number zero. -/
  | raw
  deriving DecidableEq, Repr

/-- The null handle, by where it comes from. -/
def NullSource.handle : NullSource → Handle
  | constant => .null
  | default => Inhabited.default
  | raw => .ofRaw 0

/-- How a handle is copied. -/
inductive CopyVia where
  /-- As it is. -/
  | value
  /-- Through its number. -/
  | raw
  deriving DecidableEq, Repr

/-- The copy of a handle. -/
def CopyVia.copy : CopyVia → Handle → Handle
  | value, h => h
  | raw, h => .ofRaw h.raw

/-- Where a step takes the memory of an event from. -/
inductive Source where
  /-- The memory of the system. -/
  | system
  /-- The allocator that has this name now. -/
  | named (name : String)
  deriving DecidableEq, Repr

/-- One step of a script. -/
inductive Step where
  /-- Sets up an allocator of one's own under a name; one that had the name keeps
  its events. -/
  | allocator (name : String) (plan : FailurePlan)
  /-- Lets the log sink fail at the next record. -/
  | armLog
  /-- Creates an event and its owner. -/
  | new (v : String) (memory : Source)
  /-- Creates an event and a handle to it. -/
  | create (v : String) (memory : Source)
  /-- Creates an event and a handle to it, by bare number. -/
  | createForeign (v : String)
  /-- Takes a null handle. -/
  | null (v : String) (source : NullSource)
  /-- Copies a handle. -/
  | copy (v source : String) (via : CopyVia)
  /-- Compares two handles. -/
  | compare (v w : String)
  /-- Is a handle null? -/
  | isNull (v : String)
  /-- Does an owner see a signal pending? -/
  | isSignaled (v : String)
  /-- The text of what a variable holds. -/
  | text (v : String) (spec : Text.Spec)
  /-- Signals an event. -/
  | signal (v : String) (via : Via)
  /-- Waits for a signal. -/
  | wait (v : String) (via : Via)
  /-- Consumes a pending signal, if there is one. -/
  | tryWait (v : String)
  /-- Waits for a signal, but no longer than the timeout. -/
  | waitTimeout (v : String) (timeout : Duration)
  /-- Releases an event. -/
  | delete (v : String) (via : Via)
  /-- Turns an owner into a handle. -/
  | intoHandle (v : String)
  /-- Turns a handle into the owner. -/
  | intoOwner (v : String)

/-- The variable that a step is about. -/
def Step.subject? : Step → Option String
  | .allocator _ _ | .armLog => none
  | .new v _ | .create v _ | .createForeign v | .null v _ | .copy v _ _ | .compare v _
  | .isNull v | .isSignaled v | .text v _ | .signal v _ | .wait v _ | .tryWait v
  | .waitTimeout v _ | .delete v _ | .intoHandle v | .intoOwner v => some v

/-- The result of a step. -/
inductive Answer where
  /-- Nothing to report. -/
  | nothing
  /-- It worked. -/
  | ok
  /-- It was refused. -/
  | failed (e : EventError)
  /-- The bounded wait ran out; did it take as long as it was to? -/
  | timedOut (waitedFull : Bool)
  /-- It ended in a fault. -/
  | fault (f : Fault)
  /-- A handle came of it; is it null? -/
  | handle (isNull : Bool)
  /-- Yes or no. -/
  | truth (b : Bool)
  /-- How two handles compare: as values, as numbers and by their hashes. -/
  | comparison (eq ne rawEq hashEq : Bool)
  /-- A text. -/
  | text (s : Text.Shown)
  /-- How many sleepers returned because of it. -/
  | released (n : Nat)
  /-- The wait is over. -/
  | returned
  /-- The wait sleeps. -/
  | blocked
  /-- An owner came of it. -/
  | owner
  /-- No owner came of it. -/
  | noOwner

/-- Why a step makes no sense. -/
inductive Misuse where
  /-- The variable holds nothing. -/
  | undefinedVariable (v : String)
  /-- There is no such allocator. -/
  | undefinedAllocator (name : String)
  /-- The variable does not hold an owner. -/
  | notAnOwner (v : String)
  /-- The variable does not hold a handle. -/
  | notAHandle (v : String)
  deriving DecidableEq

/-- What is wrong with a step, in words. -/
def Misuse.message : Misuse → String
  | undefinedVariable v => "undefined variable " ++ v
  | undefinedAllocator name => "undefined allocator " ++ name
  | notAnOwner v => "not an owner: " ++ v
  | notAHandle v => "not a handle: " ++ v

end AutoReset.Script
