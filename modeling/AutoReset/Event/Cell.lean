import AutoReset.Event.Call
import AutoReset.Memory.Placement
/-!
# An event at rest

Between two steps of a script every call on an event has either returned or gone
to sleep, and no sleeper has a wakeup due. An event at rest is then no more than
its latch and the sleepers, and a call runs from rest to rest
(`AutoReset.Cell.enter`): it makes its stay inside the lock, and if it posted a
signal, the sleeper that it wakes makes another stay. It is the one that has
slept longest; it finds the signal, so it returns, and the others sleep on.

The cell also remembers where its memory came from.
-/

namespace AutoReset

/-- Where the memory of an event comes from. -/
inductive Origin where
  /-- The memory of the system. -/
  | system
  /-- An allocator of one's own, by its number. -/
  | ledger (number : Nat)
  deriving DecidableEq

/-- A call that sleeps, and when it was made. -/
structure Sleeper where
  /-- The call. -/
  call : Call
  /-- When it was made. -/
  since : Instant
  deriving DecidableEq

/-- An event at rest. -/
structure Cell where
  /-- The flag and the counters. -/
  latch : Latch
  /-- The calls that sleep, longest first. -/
  sleepers : List Sleeper
  /-- Where the memory of the cell came from. -/
  origin : Origin

/-- What came of a call that ran from rest to rest. -/
structure Passage where
  /-- The answer; none if the call sleeps. -/
  reply : Option Reply
  /-- The sleeper that returned because of the call, with its answer. -/
  released : Option (Sleeper × Reply) := none

namespace Cell

/-- The memory that an event takes up. -/
def layout : Layout := ⟨72, 8, by decide⟩

/-- A new event. -/
def fresh (origin : Origin) : Cell := ⟨.fresh, [], origin⟩

/-- Works on the latch of the cell. -/
def onLatch {α : Type} (x : Attempt Latch α) : Attempt Cell α := fun c =>
  match x c.latch with
  | .ok a l => .ok a { c with latch := l }
  | .error f l => .error f { c with latch := l }

/-- The number of calls that sleep. -/
def blocked (c : Cell) : Nat := c.sleepers.length

/-- Puts a call to sleep, behind those that sleep already. -/
def lull (s : Sleeper) : Attempt Cell Unit :=
  modify fun c => { c with sleepers := c.sleepers ++ [s] }

/-- Lets a woken call make another stay: it returns with an answer or goes back
to sleep. -/
def resume (s : Sleeper) (now : Instant) : Attempt Cell (Option Reply) := do
  match ← onLatch (s.call.inside s.since now) with
  | .answer r => return some r
  | .announce => return some .done
  | .sleep _ =>
    lull s
    return none

/-- Wakes the call that has slept longest. -/
def wakeLongest (now : Instant) : Attempt Cell (Option (Sleeper × Reply)) := do
  match (← get).sleepers with
  | [] => return none
  | s :: rest =>
    modify fun c => { c with sleepers := rest }
    return (← resume s now).map (s, ·)

/-- Runs a call from rest to rest. -/
def enter (c : Call) (now : Instant) : Attempt Cell Passage := do
  match ← onLatch (c.inside now now) with
  | .answer r => return { reply := some r }
  | .announce => return { reply := some .done, released := ← wakeLongest now }
  | .sleep _ =>
    lull ⟨c, now⟩
    return { reply := none }

/-- Wakes the call that fell asleep last because its time has run out. -/
def expire (now : Instant) : Attempt Cell (Option Reply) := do
  match (← get).sleepers.getLast? with
  | none => return none
  | some s =>
    modify fun c => { c with sleepers := c.sleepers.dropLast }
    resume s now

end Cell

end AutoReset
