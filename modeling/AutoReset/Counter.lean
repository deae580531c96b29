/-!
# Counters: one machine word each

Every running count of an event is one 64-bit word. Adding past the last word
and subtracting below zero are refused rather than wrapped, so both operations
are partial; in the naturals they are the plain successor and difference
(`AutoReset.Counter.toNat_of_succ?`, `AutoReset.Counter.toNat_of_sub?`).
-/

namespace AutoReset

/-- A running count, held in one 64-bit word. -/
abbrev Counter := UInt64

namespace Counter

/-- The largest count, `2 ^ 64 - 1`. -/
def last : Counter := 0xFFFFFFFFFFFFFFFF

/-- The next count, or nothing at the last one. -/
def succ? (c : Counter) : Option Counter :=
  if c = last then none else some (c + 1)

/-- The difference, or nothing where it would be negative. -/
def sub? (a b : Counter) : Option Counter :=
  if b ≤ a then some (a - b) else none

theorem toNat_last : last.toNat = 0xFFFFFFFFFFFFFFFF := by decide

/-- Only the last count has no next one. -/
theorem succ?_eq_none_iff {c : Counter} : succ? c = none ↔ c.toNat = 0xFFFFFFFFFFFFFFFF := by
  rw [← toNat_last, UInt64.toNat_inj]
  simp [succ?]

/-- **The next count is one more.** -/
theorem toNat_of_succ? {c d : Counter} (h : succ? c = some d) : d.toNat = c.toNat + 1 := by
  unfold succ? at h
  split at h
  · cases h
  · next hc =>
    cases h
    have hlt := c.toNat_lt
    have hne : c.toNat ≠ last.toNat := fun he => hc (UInt64.toNat_inj.mp he)
    rw [toNat_last] at hne
    rw [UInt64.toNat_add]
    simp only [UInt64.reduceToNat]
    omega

/-- There is no difference exactly where it would be negative. -/
theorem sub?_eq_none_iff {a b : Counter} : sub? a b = none ↔ a.toNat < b.toNat := by
  simp [sub?, UInt64.le_iff_toNat_le]

/-- **A difference is the difference of the naturals.** -/
theorem toNat_of_sub? {a b d : Counter} (h : sub? a b = some d) :
    b.toNat ≤ a.toNat ∧ d.toNat = a.toNat - b.toNat := by
  unfold sub? at h
  split at h
  · next hle =>
    cases h
    exact ⟨UInt64.le_iff_toNat_le.mp hle, UInt64.toNat_sub_of_le a b hle⟩
  · cases h

end Counter

end AutoReset
