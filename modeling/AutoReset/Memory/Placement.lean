/-!
# Where a new block may stand

Memory is a line of addresses. A block is a stretch of it, and a policy
(`AutoReset.Placement`) chooses where a new block stands: at a multiple of its
alignment and apart from every block that is in use, or nowhere. That is all that
is asked of a policy; in particular a block may stand where one stood before, and
the choice may depend on all the blocks that were ever placed and given back.

The policy that is used, `AutoReset.Placement.firstFit`, tries the bottom of
memory and then the end of each block in use, each moved up to the alignment, and
takes the first place at which the block fits. The line of addresses is much longer than
the memory behind it, so a single block that could not be filled, counted with the room
that its alignment may cost, is refused wherever it would stand.
-/

namespace AutoReset

/-- A place in memory. There is none at zero, which stands for no place. -/
structure Address where
  /-- The number of the place. -/
  value : Nat
  pos : 0 < value
  deriving DecidableEq

/-- How much memory is asked for, and of which number its address is to be a
multiple. -/
structure Layout where
  /-- The number of bytes. -/
  size : Nat
  /-- The number that divides the address. -/
  align : Nat
  align_pos : 0 < align := by decide
  deriving DecidableEq

/-- The layout of this size and alignment. The alignment is a power of two, and
the size, made a multiple of it, stays below `2 ^ 63`. -/
def Layout.mk? (size align : Nat) : Option Layout :=
  if h : 0 < align ∧ 1 <<< align.log2 = align ∧ size + align ≤ 0x8000000000000000 then
    some ⟨size, align, h.1⟩
  else none

/-- A stretch of memory in use. -/
structure Block where
  /-- Where it starts. -/
  address : Address
  /-- What was asked for. -/
  layout : Layout
  deriving DecidableEq

namespace Block

/-- The first place behind the block. -/
def stop (b : Block) : Nat := b.address.value + b.layout.size

/-- Two blocks without a place in common. -/
def Apart (b c : Block) : Prop := b.stop ≤ c.address.value ∨ c.stop ≤ b.address.value

instance (b c : Block) : Decidable (b.Apart c) :=
  inferInstanceAs (Decidable (_ ∨ _))

end Block

/-- What becomes of a block. -/
inductive Transfer where
  /-- It was placed. -/
  | placed (b : Block)
  /-- It was given back. -/
  | returned (b : Block)
  deriving DecidableEq

/-- A policy for placing blocks. -/
structure Placement where
  /-- Where a block of this layout may stand, after what has become of blocks so far,
  newest first, and beside the blocks in use. -/
  place : List Transfer → List Block → Layout → Option Address
  aligned : ∀ {past live l a}, place past live l = some a → a.value % l.align = 0
  apart : ∀ {past live l a b}, place past live l = some a → b ∈ live → Block.Apart ⟨a, l⟩ b

namespace Placement

/-- The lowest place that is used. -/
def bottom : Nat := 4096

/-- The first place that is not used any more. -/
def top : Nat := 1 <<< 47

/-- How much memory there is for any one block, with the room for its alignment. -/
def largest : Nat := 1 <<< 35

/-- The least multiple of `align` from `n` on. -/
def alignUp (align n : Nat) : Nat := (n + align - 1) / align * align

/-- Can a block of this layout stand at `n`? -/
def Fits (live : List Block) (l : Layout) (n : Nat) (h : 0 < n) : Prop :=
  n % l.align = 0 ∧ l.size + l.align ≤ largest ∧ n + l.size ≤ top ∧
    ∀ b ∈ live, Block.Apart ⟨⟨n, h⟩, l⟩ b

instance (live : List Block) (l : Layout) (n : Nat) (h : 0 < n) : Decidable (Fits live l n h) :=
  inferInstanceAs (Decidable (_ ∧ _ ∧ _ ∧ _))

/-- The address `n`, if a block of this layout can stand there. -/
def tryAt (live : List Block) (l : Layout) (n : Nat) : Option Address :=
  if h : 0 < n then
    if Fits live l n h then some ⟨n, h⟩ else none
  else none

/-- A place that was tried with success has room for the block. -/
theorem fits_of_tryAt {live : List Block} {l : Layout} {n : Nat} {a : Address}
    (h : tryAt live l n = some a) : Fits live l a.value a.pos := by
  unfold tryAt at h
  split at h
  · split at h
    · next hf =>
      cases h
      exact hf
    · cases h
  · cases h

/-- The first place at which a block fits, from the bottom and then behind each
block in use. -/
def firstFit : Placement where
  place _ live l :=
    (bottom :: live.map Block.stop).findSome? fun n => tryAt live l (alignUp l.align n)
  aligned h := by
    obtain ⟨n, -, hn⟩ := List.exists_of_findSome?_eq_some h
    exact (fits_of_tryAt hn).1
  apart h hb := by
    obtain ⟨n, -, hn⟩ := List.exists_of_findSome?_eq_some h
    exact (fits_of_tryAt hn).2.2.2 _ hb

end Placement

end AutoReset
