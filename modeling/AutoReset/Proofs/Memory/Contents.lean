import AutoReset.Memory.Heap
import Mathlib.Data.List.Nodup
/-!
# What is written in a block

A block holds a list of bytes when its first places hold these bytes and the others hold nothing
(`AutoReset.Heap.Holds`); then these are the bytes that are read
(`AutoReset.Heap.Holds.read`). Each operation writes to one block, and all blocks apart from it
are the same afterwards (`AutoReset.Heap.Same`).

The three operations that place a block have one thing in common: either there is no place and
nothing was done (`AutoReset.Heap.alloc_none` and those beside it), or a block was placed apart
from all others and holds what it should (`AutoReset.Heap.Placed`). A block that is moved to a
place of another size is such a block too; here the old one is given back.
-/

namespace AutoReset

namespace Block

variable {b c : Block}

theorem Apart.symm (h : b.Apart c) : c.Apart b := Or.symm h

instance : Std.Symm Apart := ⟨fun _ _ => Apart.symm⟩

/-- A block of some size is not apart from itself. -/
theorem Apart.ne (h : b.Apart c) (hsize : 0 < b.layout.size) : b ≠ c := by
  rintro rfl
  unfold Apart stop at h
  omega

/-- These blocks without one of them, if there is one to leave out. -/
def without (live : List Block) : Option Block → List Block
  | none => live
  | some b => live.erase b

variable {live : List Block} {gone : Option Block}

theorem without_sublist (live : List Block) (gone : Option Block) :
    (without live gone).Sublist live := by
  cases gone with
  | none => exact .refl live
  | some b => exact List.erase_sublist

theorem mem_without_iff (h : live.Nodup) : c ∈ without live gone ↔ c ∈ live ∧ gone ≠ some c := by
  cases gone with
  | none => exact ⟨fun hc => ⟨hc, nofun⟩, And.left⟩
  | some b =>
    rw [without, h.mem_erase_iff, and_comm]
    exact and_congr_right' ⟨fun hne heq => hne (Option.some.inj heq).symm,
      fun hne heq => hne (congrArg some heq.symm)⟩

/-- Nothing is lost but the block that is left out. -/
theorem count_without (h : ∀ b ∈ gone, b ∈ live) :
    gone.toList.count c + (without live gone).count c = live.count c := by
  cases gone with
  | none => exact Nat.zero_add _
  | some b =>
    rw [Option.toList_some, ← List.count_append]
    exact (List.perm_cons_erase (h b rfl)).symm.count_eq c

end Block

namespace Heap

variable {policy : Placement} {h h' : Heap} {b c : Block} {l : Layout} {a : Address}
  {cs : List UInt8} {n : Nat}

/-! ### Blocks that are the same -/

/-- **A block is the same in two heaps**: its places hold what they held. -/
def Same (h h' : Heap) (b : Block) : Prop :=
  ∀ i < b.layout.size, h'.bytes (b.address.value + i) = h.bytes (b.address.value + i)

theorem Same.refl (h : Heap) (b : Block) : Same h h b := fun _ _ => rfl

theorem Same.trans {h'' : Heap} (h₁ : Same h h' b) (h₂ : Same h' h'' b) : Same h h'' b :=
  fun i hi => (h₂ i hi).trans (h₁ i hi)

/-- Writing to a block leaves those apart from it as they are. -/
theorem same_overwrite (h : Heap) (byte : Option UInt8) (hap : b.Apart c)
    (hn : n ≤ c.layout.size) : Same h (h.overwrite c.address.value n byte) b := by
  intro i hi
  have hout : ¬(c.address.value ≤ b.address.value + i ∧
      b.address.value + i < c.address.value + n) := by
    unfold Block.Apart Block.stop at hap
    omega
  exact if_neg hout

theorem same_copy (h : Heap) (source : Nat) (hap : b.Apart c) (hn : n ≤ c.layout.size) :
    Same h (h.copy source c.address.value n) b := by
  intro i hi
  have hout : ¬(c.address.value ≤ b.address.value + i ∧
      b.address.value + i < c.address.value + n) := by
    unfold Block.Apart Block.stop at hap
    omega
  exact if_neg hout

/-- What is read depends on what the places hold. -/
theorem readFrom_congr {p : Nat} (hsame : ∀ i < n, h'.bytes (p + i) = h.bytes (p + i)) :
    h'.readFrom p n = h.readFrom p n := by
  induction n generalizing p with
  | zero => rfl
  | succ n ih =>
    have hrest : h'.readFrom (p + 1) n = h.readFrom (p + 1) n := ih fun i hi => by
      have hnext := hsame (i + 1) (Nat.succ_lt_succ hi)
      rwa [Nat.add_comm i, ← Nat.add_assoc] at hnext
    have hfirst : h'.bytes p = h.bytes p := hsame 0 (Nat.zero_lt_succ n)
    rw [readFrom, readFrom, hfirst, hrest]

/-- **A block that is the same reads the same.** -/
theorem Same.read (hsame : Same h h' b) : h'.read b = h.read b := readFrom_congr hsame

/-! ### Blocks that hold a list of bytes -/

/-- **A block holds these bytes**: they are in its first places, and the other places hold
nothing. -/
structure Holds (h : Heap) (b : Block) (cs : List UInt8) : Prop where
  /-- There is room for them. -/
  length_le : cs.length ≤ b.layout.size
  /-- They are there, and nothing behind them. -/
  bytes : ∀ i < b.layout.size, h.bytes (b.address.value + i) = cs[i]?

theorem readFrom_eq {p : Nat} (hlength : cs.length ≤ n)
    (hbytes : ∀ i < n, h.bytes (p + i) = cs[i]?) : h.readFrom p n = cs := by
  induction n generalizing p cs with
  | zero => exact (List.eq_nil_of_length_eq_zero (Nat.le_zero.mp hlength)).symm
  | succ n ih =>
    have hfirst : h.bytes p = cs[0]? := hbytes 0 (Nat.zero_lt_succ n)
    cases cs with
    | nil => rw [readFrom, hfirst, List.getElem?_nil]
    | cons byte cs =>
      rw [readFrom, hfirst, List.getElem?_cons_zero]
      refine congrArg (byte :: ·) (ih (Nat.le_of_succ_le_succ hlength) fun i hi => ?_)
      have hnext := hbytes (i + 1) (Nat.succ_lt_succ hi)
      rwa [List.getElem?_cons_succ, Nat.add_comm i, ← Nat.add_assoc] at hnext

/-- **What a block holds is what is read.** -/
theorem Holds.read (hb : h.Holds b cs) : h.read b = cs := readFrom_eq hb.length_le hb.bytes

theorem Holds.of_same (hb : h.Holds b cs) (hsame : Same h h' b) : h'.Holds b cs :=
  ⟨hb.length_le, fun i hi => (hsame i hi).trans (hb.bytes i hi)⟩

/-- A block that was wiped holds nothing. -/
theorem holds_nil (h : Heap) (b : Block) :
    (h.overwrite b.address.value b.layout.size none).Holds b [] := by
  refine ⟨Nat.zero_le _, fun i hi => ?_⟩
  exact if_pos ⟨Nat.le_add_right .., Nat.add_lt_add_left hi _⟩

/-- **A fill overwrites the first bytes**, as far as the block goes. -/
theorem Holds.fill (hb : h.Holds b cs) (byte : UInt8) (n : Nat) :
    (h.fill b byte n).Holds b
      (List.replicate (min n b.layout.size) byte ++ cs.drop (min n b.layout.size)) := by
  have hlength := hb.length_le
  refine ⟨?_, fun i hi => ?_⟩
  · rw [List.length_append, List.length_replicate, List.length_drop]
    omega
  · change (if _ then _ else _) = _
    by_cases hlt : i < min n b.layout.size
    · rw [if_pos (by omega), List.getElem?_append_left (by simpa using hlt),
        List.getElem?_replicate_of_lt hlt]
    · rw [if_neg (by omega), hb.bytes i hi,
        List.getElem?_append_right (by simpa using Nat.le_of_not_lt hlt),
        List.length_replicate, List.getElem?_drop,
        Nat.add_sub_cancel' (Nat.le_of_not_lt hlt)]

/-- **A copy takes the first bytes along.** -/
theorem Holds.copy (hb : h.Holds b cs) (hc : h.Holds c []) :
    (h.copy b.address.value c.address.value (min b.layout.size c.layout.size)).Holds c
      (cs.take (min b.layout.size c.layout.size)) := by
  refine ⟨Nat.le_trans (List.length_take_le ..) (Nat.min_le_right ..), fun i hi => ?_⟩
  change (if _ then _ else _) = _
  rw [List.getElem?_take]
  by_cases hlt : i < min b.layout.size c.layout.size
  · rw [if_pos (by omega), Nat.add_sub_cancel_left, if_pos hlt, hb.bytes i (by omega)]
  · rw [if_neg (by omega), if_neg hlt, hc.bytes i hi, List.getElem?_nil]

/-! ### Placing a block -/

/-- **A block was placed**, maybe in place of another one: it is apart from all that were in use,
it holds these bytes, and all that is apart from both is the same. -/
structure Placed (h : Heap) (gone : Option Block) (b : Block) (cs : List UInt8) (h' : Heap) :
    Prop where
  /-- It is in use, and the other one is not any more. -/
  live : h'.live = b :: Block.without h.live gone
  /-- It stands apart. -/
  apart : ∀ c ∈ h.live, b.Apart c
  /-- It holds the bytes. -/
  holds : h'.Holds b cs
  /-- The others are the same. -/
  same : ∀ c : Block, c.Apart b → (∀ g ∈ gone, c.Apart g) → Same h h' c

theorem alloc_none (hr : h.alloc policy l = (none, h')) : h' = h := by
  unfold alloc at hr
  split at hr
  · cases hr
    rfl
  · cases hr

theorem alloc_some (hr : h.alloc policy l = (some a, h')) : Placed h none ⟨a, l⟩ [] h' := by
  unfold alloc at hr
  split at hr
  · cases hr
  · next hplace =>
    cases hr
    exact ⟨rfl, fun _ hc => policy.apart hplace hc,
      (holds_nil h ⟨a, l⟩).of_same fun _ _ => rfl,
      fun _ hap _ => same_overwrite h none hap (Nat.le_refl _)⟩

theorem allocZeroed_none (hr : h.allocZeroed policy l = (none, h')) : h' = h := by
  unfold allocZeroed at hr
  cases ha : h.alloc policy l with
  | mk o h₁ =>
    rw [ha] at hr
    cases o with
    | none =>
      cases hr
      exact alloc_none ha
    | some a => cases hr

/-- **A zeroed block holds zeros** over its whole size. -/
theorem allocZeroed_some (hr : h.allocZeroed policy l = (some a, h')) :
    Placed h none ⟨a, l⟩ (List.replicate l.size 0) h' := by
  unfold allocZeroed at hr
  cases ha : h.alloc policy l with
  | mk o h₁ =>
    rw [ha] at hr
    cases o with
    | none => cases hr
    | some a' =>
      cases hr
      obtain ⟨hlive, hapart, hholds, hsame⟩ := alloc_some ha
      refine ⟨hlive, hapart, ?_, fun c hap hgone => ?_⟩
      · have hfill := hholds.fill 0 l.size
        rwa [List.drop_nil, List.append_nil, Nat.min_self] at hfill
      · exact (hsame c hap hgone).trans (same_overwrite h₁ _ hap (Nat.min_le_right ..))

theorem realloc_none (hr : h.realloc policy b n = (none, h')) : h' = h := by
  unfold realloc at hr
  cases ha : h.alloc policy { b.layout with size := n } with
  | mk o h₁ =>
    rw [ha] at hr
    cases o with
    | none =>
      cases hr
      exact alloc_none ha
    | some a => cases hr

/-- **A block that is moved takes its first bytes along**, as many as both places have room for;
the old place is given back. -/
theorem realloc_some (hb : h.Holds b cs) (hmem : b ∈ h.live) (hn : 0 < n)
    (hr : h.realloc policy b n = (some a, h')) :
    Placed h (some b) ⟨a, { b.layout with size := n }⟩ (cs.take (min b.layout.size n)) h' := by
  unfold realloc at hr
  cases ha : h.alloc policy { b.layout with size := n } with
  | mk o h₁ =>
    rw [ha] at hr
    cases o with
    | none => cases hr
    | some a' =>
      cases hr
      obtain ⟨hlive, hapart, hholds, hsame⟩ := alloc_some ha
      have hap := hapart b hmem
      -- the copy is made while the old block still holds its bytes
      have hold := hb.of_same (hsame b hap.symm nofun)
      have hcopied := hold.copy hholds
      refine ⟨?_, hapart, hcopied.of_same (same_overwrite _ _ hap (Nat.le_refl _)),
        fun c hc hgone => ?_⟩
      · change h₁.live.erase b = _
        rw [hlive, Block.without, List.erase_cons_tail (by simpa using hap.ne hn)]
        rfl
      · exact ((hsame c hc nofun).trans (same_copy h₁ _ hc (Nat.min_le_right ..))).trans
          (same_overwrite _ _ (hgone b rfl) (Nat.le_refl _))

end Heap

end AutoReset
