import AutoReset.Event.System
import AutoReset.Text.Tree
import AutoReset.Latch.Text
/-!
# Three ways to hold an event

An event is reached in one of three ways.

* An `AutoReset.Owner` has the event to itself: it exists only where there is an
  event, and releases it when it goes away.
* A `AutoReset.Handle` is a number that can be copied at will. The number zero is
  the null handle; it stands for no event, and every operation on it returns at
  once. A handle does not know whether its event is still there.
* The functions of `AutoReset.Foreign` take the bare number, for callers that
  know no more than that. They hand it on to the handle.

What an operation does with what it was given is an `AutoReset.Entry`: it makes a
call on an event, or it has an answer without one. Ownership moves between owner
and handle without the event noticing.
-/

namespace AutoReset

/-- What an operation comes to. -/
inductive Entry where
  /-- A call on the event at an address. -/
  | call (a : Address) (c : Call)
  /-- An answer at once, without an event. -/
  | skip (r : Reply)
  deriving DecidableEq

/-- Runs an operation from rest to rest. -/
def System.run (now : Instant) : Entry → Attempt System Passage
  | .call a c => System.enter now a c
  | .skip r => return { reply := some r }

/-- The one owner of an event. -/
structure Owner where
  /-- Where the event is. -/
  address : Address
  deriving DecidableEq

/-- A number that stands for an event, or for none if it is zero. -/
structure Handle where
  /-- The number. -/
  raw : Nat
  deriving DecidableEq

instance : Hashable Handle := ⟨fun h => hash h.raw⟩

/-! ### Handles -/

namespace Handle

/-- The handle of no event. -/
def null : Handle := ⟨0⟩

instance : Inhabited Handle := ⟨null⟩

/-- The handle of an event. -/
def ofAddress (a : Address) : Handle := ⟨a.value⟩

/-- The handle that a number stands for. -/
def ofRaw (raw : Nat) : Handle := ⟨raw⟩

/-- Is this the handle of no event? -/
def isNull (h : Handle) : Bool := h.raw = 0

/-- The event of a handle. -/
def address? (h : Handle) : Option Address :=
  if pos : 0 < h.raw then some ⟨h.raw, pos⟩ else none

/-- A call on the event of a handle; without an event, the answer given here. -/
def entry (h : Handle) (c : Call) (otherwise : Reply) : Entry :=
  match h.address? with
  | some a => .call a c
  | none => .skip otherwise

/-- Sleeps until there is a signal, and consumes it. -/
def wait (h : Handle) : Entry := h.entry .wait .done

/-- Consumes a pending signal, if there is one. -/
def tryWait (h : Handle) : Entry := h.entry .tryWait (.flag false)

/-- Latches a signal and wakes one sleeper. -/
def signal (h : Handle) : Entry := h.entry .signal .done

/-- Creates an event; the null handle if there is no memory. -/
def create (policy : Placement) (origin : Origin) : Attempt System Handle := do
  match ← System.create policy origin with
  | some a => return .ofAddress a
  | none => return .null

/-- Releases the event of a handle. -/
def delete (h : Handle) : Attempt System Unit :=
  match h.address? with
  | some a => System.release a
  | none => return ()

/-- The owner that a handle turns into. -/
def intoOwner? (h : Handle) : Option Owner :=
  h.address?.map Owner.mk

@[simp] theorem address?_ofAddress (a : Address) : (ofAddress a).address? = some a := by
  simp [address?, ofAddress, a.pos]

@[simp] theorem address?_null : null.address? = none := rfl

theorem address?_eq_none_iff {h : Handle} : h.address? = none ↔ h = null := by
  obtain ⟨raw⟩ := h
  by_cases hr : 0 < raw
  · simp [address?, null, hr]
    omega
  · simp [address?, null, hr]
    omega

end Handle

/-! ### Owners -/

namespace Owner

/-- Creates an event, or says that there is no memory. -/
def create (policy : Placement) (origin : Origin) : Attempt System (Except EventError Owner) := do
  match ← System.create policy origin with
  | some a => return .ok ⟨a⟩
  | none => return .error .allocationFailure

/-- Sleeps until there is a signal, and consumes it. -/
def wait (o : Owner) : Entry := .call o.address .wait

/-- Consumes a pending signal, if there is one. -/
def tryWait (o : Owner) : Entry := .call o.address .tryWait

/-- Latches a signal and wakes one sleeper. -/
def signal (o : Owner) : Entry := .call o.address .signal

/-- Is a signal pending? -/
def isSignaled (o : Owner) : Entry := .call o.address .isSignaled

/-- Sleeps until there is a signal, but no longer than the timeout. -/
def waitTimeout (o : Owner) (timeout : Duration) : Entry := .call o.address (.waitTimeout timeout)

/-- Releases the event when its owner goes away. -/
def drop (o : Owner) : Attempt System Unit := System.release o.address

/-- Releases the event. -/
def delete (o : Owner) : Attempt System Unit := o.drop

/-- The handle that an owner turns into; the event stays. -/
def intoHandle (o : Owner) : Handle := .ofAddress o.address

end Owner

/-! ### Bare numbers -/

namespace Foreign

/-- Creates an event in the memory of the system; zero if there is none. -/
def create (policy : Placement) : Attempt System Nat := do
  return (← Handle.create policy .system).raw

/-- Sleeps until there is a signal, and consumes it. -/
def wait (raw : Nat) : Entry := (Handle.ofRaw raw).wait

/-- Latches a signal and wakes one sleeper. -/
def signal (raw : Nat) : Entry := (Handle.ofRaw raw).signal

/-- Releases an event. -/
def delete (raw : Nat) : Attempt System Unit := (Handle.ofRaw raw).delete

end Foreign

/-! ### Texts -/

open Text

/-- An owner is a record of its address and the state of its event. -/
def Owner.tree (o : Owner) (state : State) : Tree :=
  record "Event" [("cell", .pointer o.address.value), ("state", state.tree)]

/-- A handle is a name around its number. -/
def Handle.tree (h : Handle) : Tree :=
  wrapper "EventHandle" (.pointer h.raw)

end AutoReset
