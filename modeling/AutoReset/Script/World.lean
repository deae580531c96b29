import AutoReset.Script.Step
import AutoReset.Table
/-!
# Names over the system

The state of a script: the system, what each variable holds, and which allocator
each name means. An event has at most one owner, and what a handle refers to may
be gone; so whoever releases an event, or turns a handle into the owner, takes the
other variables of that event out of use (`AutoReset.Script.World.forget`). A name
can pass from one allocator to another; the events of the first still go back to
the first.
-/

namespace AutoReset.Script

/-- The state of a script. -/
structure World where
  /-- The events and what they share. -/
  system : System := .empty
  /-- What each variable holds. -/
  vars : Table Variable := .empty
  /-- The number of the allocator that each name means. -/
  allocators : Table Nat := .empty

/-- A part of a script: it changes the state, unless a step makes no sense. -/
abbrev Act (α : Type) := StateT World (Except Misuse) α

/-- The event that a variable refers to. -/
def Variable.address? : Variable → Option Address
  | .owner o => some o.address
  | .handle h => h.address?

namespace World

/-- The event that a variable refers to, if it is there. -/
def cell? (w : World) (v : String) : Option Cell :=
  ((w.vars.get? v).bind Variable.address?).bind w.system.cell?

/-- The accounts of the allocators that have a name. -/
def ledgers (w : World) : Table Ledger :=
  w.allocators.filterMap w.system.ledger?

/-- Takes the variables of an event out of use. -/
def forget (w : World) (a : Address) : World :=
  { w with vars := w.vars.keep fun x => x.address? ≠ some a }

end World

namespace Act

/-- Runs something on the system. A fault ends it, not the script. -/
def perform {α : Type} (x : Attempt System α) : Act (Except Fault α) := fun w =>
  match x w.system with
  | .ok a system => .ok (.ok a, { w with system })
  | .error f system => .ok (.error f, { w with system })

/-- What a variable holds. -/
def lookup (v : String) : Act Variable := do
  match (← get).vars.get? v with
  | some x => return x
  | none => throw (.undefinedVariable v)

/-- The owner that a variable holds. -/
def owner (v : String) : Act Owner := do
  match ← lookup v with
  | .owner o => return o
  | .handle _ => throw (.notAnOwner v)

/-- The handle that a variable holds. -/
def handle (v : String) : Act Handle := do
  match ← lookup v with
  | .handle h => return h
  | .owner _ => throw (.notAHandle v)

/-- Lets a variable hold something. An owner that it held goes away, and its
event with it. -/
def assign (v : String) (x : Variable) : Act Unit := do
  let before := (← get).vars.get? v
  modify fun w => { w with vars := w.vars.set v x }
  match before with
  | some (.owner o) =>
    -- an owner that turned into what is put here has not gone away
    if x.address? ≠ some o.address then
      let _ ← perform o.drop
  | _ => return ()

/-- Takes a variable out of use. -/
def undefine (v : String) : Act Unit :=
  modify fun w => { w with vars := w.vars.erase v }

/-- The origin that a step names. -/
def origin (memory : Source) : Act Origin := do
  match memory with
  | .system => return .system
  | .named name =>
    match (← get).allocators.get? name with
    | some number => return .ledger number
    | none => throw (.undefinedAllocator name)

end Act

end AutoReset.Script
