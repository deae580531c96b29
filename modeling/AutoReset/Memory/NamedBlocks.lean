import AutoReset.Memory.Heap
import AutoReset.Table
/-!
# Blocks of memory under names

A list of steps works on the memory of the system, and calls its blocks by name.
A name stands for a block from its allocation until it is given back; resizing
puts the new block under the same name, or keeps the old one if there is no room.
-/

namespace AutoReset

namespace NamedBlocks

/-- What is done under a name. -/
inductive Command where
  /-- Allocate a block. -/
  | alloc (l : Layout)
  /-- Allocate a block of zeros. -/
  | allocZeroed (l : Layout)
  /-- Give the block another size. -/
  | realloc (size : Nat)
  /-- Write a byte over the first places. -/
  | fill (byte : UInt8) (n : Nat)
  /-- Read what was written. -/
  | read
  /-- Give the block back. -/
  | dealloc

/-- A step: a command and the name it is about. -/
structure Step where
  /-- The name of the block. -/
  name : String
  /-- What is done. -/
  command : Command

/-- The result of a step. -/
inductive Result where
  /-- Nothing to report. -/
  | nothing
  /-- The address that came of an allocation, for a layout with this alignment. -/
  | placed (address : Option Address) (align : Nat)
  /-- How many bytes were written. -/
  | written (n : Nat)
  /-- The bytes read. -/
  | bytes (contents : List UInt8)

/-- Is the address a multiple of the alignment? No address counts as one. -/
def isAligned (address : Option Address) (align : Nat) : Bool :=
  match address with
  | none => true
  | some a => a.value % align = 0

/-- The memory, and the blocks that have a name. -/
structure World where
  /-- The memory of the system. -/
  heap : Heap := .empty
  /-- The named blocks. -/
  blocks : Table Block := .empty

variable (policy : Placement)

/-- Puts the block that came of an allocation under its name. -/
def World.place (w : World) (name : String) (l : Layout) : Option Address × Heap → Result × World
  | (none, heap) => (.placed none l.align, { w with heap })
  | (some a, heap) =>
    (.placed (some a) l.align, { heap, blocks := w.blocks.set name ⟨a, l⟩ })

/-- Runs one step. Nothing comes of a step on a name without a block. -/
def step? (w : World) (s : Step) : Option (Result × World) :=
  match s.command, w.blocks.get? s.name with
  | .alloc l, _ => some (w.place s.name l (w.heap.alloc policy l))
  | .allocZeroed l, _ => some (w.place s.name l (w.heap.allocZeroed policy l))
  | _, none => none
  | .realloc size, some b =>
    some (w.place s.name { b.layout with size } (w.heap.realloc policy b size))
  | .fill byte n, some b =>
    some (.written (min n b.layout.size), { w with heap := w.heap.fill b byte n })
  | .read, some b => some (.bytes (w.heap.read b), w)
  | .dealloc, some b =>
    some (.nothing, { heap := w.heap.dealloc b, blocks := w.blocks.erase s.name })

/-- Runs the steps in turn and lists the results. -/
def run? : World → List Step → Option (List Result)
  | _, [] => some []
  | w, s :: steps =>
    match step? policy w s with
    | none => none
    | some (r, w) => (run? w steps).map (r :: ·)

end NamedBlocks

end AutoReset
