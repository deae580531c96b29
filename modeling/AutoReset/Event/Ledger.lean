import AutoReset.Memory.Heap
/-!
# Allocators that keep a ledger

An allocator of one's own stands in front of the memory of the system. It fails
where its plan says so, hands every other request on, and keeps a ledger: how
often it was asked, how often there was memory, which blocks are still out, and
how many came back that were not out, or under another layout than they went out
with.
-/

namespace AutoReset

/-- Which requests fail. -/
inductive FailurePlan where
  /-- All of them. -/
  | always
  /-- Those with these numbers, counted from zero. -/
  | only (numbers : List Nat)

/-- Does the request with this number fail? -/
def FailurePlan.fails : FailurePlan → Nat → Bool
  | always, _ => true
  | only numbers, n => numbers.contains n

/-- What an allocator has kept account of. -/
structure Ledger where
  /-- Which requests fail. -/
  plan : FailurePlan
  /-- How often memory was asked for. -/
  attempts : Nat := 0
  /-- How often there was some. -/
  total : Nat := 0
  /-- How many blocks came back that were not out, or under another layout. -/
  mismatched : Nat := 0
  /-- The blocks that are out. -/
  outstanding : List Block := []

namespace Ledger

/-- How many blocks are out. -/
def live (l : Ledger) : Nat := l.outstanding.length

/-- Asks for memory: the plan may refuse, else the system is asked. -/
def alloc (policy : Placement) (layout : Layout) (l : Ledger) (heap : Heap) :
    Option Address × Ledger × Heap :=
  let asked := { l with attempts := l.attempts + 1 }
  if l.plan.fails l.attempts then (none, asked, heap)
  else
    match heap.alloc policy layout with
    | (none, heap) => (none, asked, heap)
    | (some a, heap) =>
      (some a,
        { asked with total := l.total + 1, outstanding := ⟨a, layout⟩ :: l.outstanding }, heap)

/-- Takes a block back, under the layout that it is said to have. -/
def dealloc (address : Address) (layout : Layout) (l : Ledger) (heap : Heap) : Ledger × Heap :=
  match l.outstanding.find? (fun b => b.address = address) with
  | none => ({ l with mismatched := l.mismatched + 1 }, heap)
  | some b =>
    ({ l with
        mismatched := if b.layout = layout then l.mismatched else l.mismatched + 1
        outstanding := l.outstanding.erase b },
      heap.dealloc b)

end Ledger

end AutoReset
