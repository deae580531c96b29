import AutoReset.Event.Cell
import AutoReset.Event.Ledger
import AutoReset.Event.Log
import AutoReset.Time.Clock
/-!
# Events in memory

The system holds the events that exist, each at its address, with the memory and
the allocators that they came from, and the logger. Three operations reach it: an
event is created, a call on an event runs from rest to rest, and an event is
released. Events share nothing but the memory and the logger; a call touches the
one cell at its address.

Allocators are numbered in the order in which they are set up, and none ever takes
the place of another (`AutoReset.System.ledger?_setUp_of_lt`); so an event can say
by a number where its memory came from.

A call is made at a reading of the clock, and takes no time until it sleeps. A
bounded wait can be let run out: then the clock moves on to its deadline
(`AutoReset.System.waitOut`).

An event goes back to the allocator that it came from. Its memory is back before
the release is put on record, and a new event is in place before its creation is;
a log sink that fails changes neither.
-/

namespace AutoReset

/-- The events that exist, and what they share. -/
structure System where
  /-- The memory of the system. -/
  heap : Heap := .empty
  /-- The event at each address. -/
  cells : Address → Option Cell := fun _ => none
  /-- The allocators of one's own, first one first. -/
  ledgers : List Ledger := []
  /-- What takes in the log records. -/
  logger : Logger := {}

namespace System

/-- The system without an event. -/
def empty : System := {}

/-- The event at an address. -/
def cell? (s : System) (a : Address) : Option Cell := s.cells a

/-- Puts an event, or none, at an address. -/
def place (s : System) (a : Address) (c : Option Cell) : System :=
  { s with cells := fun b => if b = a then c else s.cells b }

@[simp] theorem cell?_place_self (s : System) (a : Address) (c : Option Cell) :
    (s.place a c).cell? a = c := by
  simp [cell?, place]

theorem cell?_place_of_ne (s : System) {a b : Address} (c : Option Cell) (h : b ≠ a) :
    (s.place a c).cell? b = s.cell? b := by
  simp [cell?, place, h]

/-- The allocator with a number. -/
def ledger? (s : System) (number : Nat) : Option Ledger := s.ledgers[number]?

/-- Sets up an allocator, and says which number it got. -/
def setUp (plan : FailurePlan) : Attempt System Nat :=
  modifyGet fun s => (s.ledgers.length, { s with ledgers := s.ledgers ++ [{ plan }] })

/-- **Setting up an allocator leaves the others where they are.** -/
theorem ledger?_setUp_of_lt {s s' : System} {plan : FailurePlan} {n number : Nat}
    (h : setUp plan s = .ok n s') (hn : number < s.ledgers.length) :
    s'.ledger? number = s.ledger? number := by
  cases h
  exact List.getElem?_append_left hn

/-- Puts something on record. -/
def log (r : Record) : Attempt System Unit := fun s =>
  match s.logger.put r with
  | .ok () logger => .ok () { s with logger }
  | .error f logger => .error f { s with logger }

/-- Works on the event at an address, if there is one. -/
def onCell {α : Type} (a : Address) (x : Attempt Cell α) : Attempt System (Option α) := fun s =>
  match s.cell? a with
  | none => .ok none s
  | some c =>
    match x c with
    | .ok r c => .ok (some r) (s.place a (some c))
    | .error f c => .error f (s.place a (some c))

/-! ### Creating and releasing -/

variable (policy : Placement)

/-- Asks for memory for one event. There is none from an allocator that does not
exist. -/
def askMemory (origin : Origin) (s : System) : Option Address × System :=
  match origin with
  | .system =>
    let (a, heap) := s.heap.alloc policy Cell.layout
    (a, { s with heap })
  | .ledger number =>
    match s.ledger? number with
    | none => (none, s)
    | some l =>
      let (a, l, heap) := l.alloc policy Cell.layout s.heap
      (a, { s with heap, ledgers := s.ledgers.set number l })

/-- Gives the memory of one event back to where it came from. -/
def giveBack (origin : Origin) (a : Address) (s : System) : System :=
  match origin with
  | .system => { s with heap := s.heap.dealloc ⟨a, Cell.layout⟩ }
  | .ledger number =>
    match s.ledger? number with
    | none => s
    | some l =>
      let (l, heap) := l.dealloc a Cell.layout s.heap
      { s with heap, ledgers := s.ledgers.set number l }

/-- Creates an event. Without memory for it nothing is created. -/
def create (origin : Origin) : Attempt System (Option Address) := do
  match ← modifyGet (askMemory policy origin) with
  | none =>
    log (.allocationFailed Cell.layout.size)
    return none
  | some a =>
    modify fun s => s.place a (some (.fresh origin))
    -- from here on the event exists, whatever becomes of the record
    log (.created a)
    return some a

/-- Releases the event at an address. -/
def release (a : Address) : Attempt System Unit := do
  match (← get).cell? a with
  | none => return ()
  | some c =>
    -- the cell is read first: it knows where its memory has to go
    modify fun s => (s.place a none).giveBack c.origin a
    log (.released a)

/-! ### Calls -/

/-- Puts a bounded wait that ran out on record, if that is what the answer says. -/
def logTimeout (since now : Instant) (r : Option Reply) : Attempt System Unit :=
  if r = some .timedOut then log (.timedOut (now.since since)) else return ()

/-- Runs a call on the event at an address from rest to rest. -/
def enter (now : Instant) (a : Address) (c : Call) : Attempt System Passage := do
  match ← onCell a (Cell.enter c now) with
  | none => return { reply := some .done }
  | some p =>
    logTimeout now now p.reply
    return p

/-- Runs a bounded wait to its end: if it sleeps, the clock moves on to its
deadline, and it wakes. Gives the reading of the clock at the end as well. -/
def waitOut (now : Instant) (a : Address) (timeout : Duration) :
    Attempt System (Passage × Instant) := do
  let p ← enter now a (.waitTimeout timeout)
  match p.reply with
  | some _ => return (p, now)
  | none =>
    let later := Clock.advance now ((Deadline.startingAt now timeout).remainingAt now)
    let r := (← onCell a (Cell.expire later)).join
    logTimeout now later r
    return ({ p with reply := r }, later)

/-- Runs a bounded wait to its end if the timeout is short enough, and else only
until it sleeps. -/
def waitPatiently (patience : Duration) (now : Instant) (a : Address) (timeout : Duration) :
    Attempt System (Passage × Instant) :=
  if timeout ≤ patience then waitOut now a timeout
  else return (← enter now a (.waitTimeout timeout), now)

end System

/-! ### What a run does not choose -/

/-- What a run of steps does not choose: where blocks are placed, which timeouts are
waited out, and what the clock says when a step is made. -/
structure Setting where
  /-- Where blocks are placed. -/
  policy : Placement := .firstFit
  /-- The longest timeout that is waited out: twenty milliseconds. -/
  patience : Duration := ⟨0, 20000000, by decide, by decide⟩
  /-- What the clock says when a step is made. -/
  now : Instant := Clock.settled

end AutoReset
