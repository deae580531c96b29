import AutoReset.Memory.Placement
/-!
# The memory of the system

A heap knows the blocks in use, what has become of blocks so far, and what each
place of memory holds; a place that was never written holds nothing. Two
operations are primitive: `alloc` places a block whose places hold nothing yet,
and `dealloc` gives one back. The other two are made from them: a zeroed block is
an allocated one filled with zeros, and a block is resized by allocating another,
copying what both have room for and giving the old one back. Where the new block
cannot be had, nothing was done.
-/

namespace AutoReset

/-- The blocks in use and the contents of memory. -/
structure Heap where
  /-- The blocks in use, newest first. -/
  live : List Block := []
  /-- What has become of blocks so far, newest first. -/
  past : List Transfer := []
  /-- What each place holds, if it was written. -/
  bytes : Nat → Option UInt8 := fun _ => none

namespace Heap

/-- Nothing in use and nothing written. -/
def empty : Heap := {}

/-! ### Contents -/

/-- The bytes from a place on, at most `n` and up to the first that was not
written. -/
def readFrom (h : Heap) : Nat → Nat → List UInt8
  | _, 0 => []
  | place, n + 1 =>
    match h.bytes place with
    | none => []
    | some byte => byte :: h.readFrom (place + 1) n

/-- The written bytes at the start of a block. -/
def read (h : Heap) (b : Block) : List UInt8 :=
  h.readFrom b.address.value b.layout.size

/-- Writes one byte, or nothing, over `n` places from `start` on. -/
def overwrite (h : Heap) (start n : Nat) (byte : Option UInt8) : Heap :=
  { h with bytes := fun place => if start ≤ place ∧ place < start + n then byte else h.bytes place }

/-- Writes a byte over the first `n` places of a block, as far as it goes. -/
def fill (h : Heap) (b : Block) (byte : UInt8) (n : Nat) : Heap :=
  h.overwrite b.address.value (min n b.layout.size) (some byte)

/-- Copies `n` places from `source` on to the places from `target` on. -/
def copy (h : Heap) (source target n : Nat) : Heap :=
  { h with bytes := fun place =>
      if target ≤ place ∧ place < target + n then h.bytes (source + (place - target))
      else h.bytes place }

/-! ### Blocks -/

variable (policy : Placement)

/-- Places a block; its places hold nothing yet. -/
def alloc (l : Layout) (h : Heap) : Option Address × Heap :=
  match policy.place h.past h.live l with
  | none => (none, h)
  | some a =>
    (some a,
      { h.overwrite a.value l.size none with
        live := ⟨a, l⟩ :: h.live
        past := .placed ⟨a, l⟩ :: h.past })

/-- Gives a block back. -/
def dealloc (b : Block) (h : Heap) : Heap :=
  { h.overwrite b.address.value b.layout.size none with
    live := h.live.erase b
    past := .returned b :: h.past }

/-- Places a block and fills it with zeros. -/
def allocZeroed (l : Layout) (h : Heap) : Option Address × Heap :=
  match h.alloc policy l with
  | (none, h) => (none, h)
  | (some a, h) => (some a, h.fill ⟨a, l⟩ 0 l.size)

/-- Moves a block to a place with room for `size` bytes. The first bytes go
along, as many as both have room for; without a place the old block stays. -/
def realloc (b : Block) (size : Nat) (h : Heap) : Option Address × Heap :=
  match h.alloc policy { b.layout with size } with
  | (none, h) => (none, h)
  | (some a, h) =>
    -- the old block is still in use, so the two do not overlap
    let h := h.copy b.address.value a.value (min b.layout.size size)
    (some a, h.dealloc b)

end Heap

end AutoReset
