import AutoReset.Time.Duration
/-!
# Instants: points of a clock that never goes back

An instant counts whole seconds from `-2 ^ 63` to `2 ^ 63 - 1` and, upwards from
there, nanoseconds below a full second. Adding a duration carries from the
nanoseconds into the seconds and has no result past the last instant; the time
from one instant to another borrows from the seconds, and is zero where the
order is the wrong way round. Both are worked out on seconds and nanoseconds;
what they come to as exact numbers is `AutoReset.Instant.toNanos_of_add?`,
`AutoReset.Instant.add?_eq_none_iff` and `AutoReset.Instant.toNanos_since`.
-/

namespace AutoReset

/-- A reading of the clock. -/
@[ext]
structure Instant where
  /-- Whole seconds. -/
  secs : Int
  /-- Nanoseconds from the whole second upwards. -/
  nanos : Nat
  le_secs : -0x8000000000000000 ≤ secs := by decide
  secs_lt : secs < 0x8000000000000000 := by decide
  nanos_lt : nanos < 1000000000 := by decide

namespace Instant

instance : DecidableEq Instant := fun _ _ => decidable_of_iff _ Instant.ext_iff.symm

/-- The instant from which the seconds are counted. -/
def zero : Instant := ⟨0, 0, by decide, by decide, Duration.zero.nanos_lt⟩

/-- The instant of these seconds and nanoseconds, if they are in range. -/
def mk? (secs : Int) (nanos : Nat) : Option Instant :=
  if h : -0x8000000000000000 ≤ secs ∧ secs < 0x8000000000000000 ∧ nanos < 1000000000 then
    some ⟨secs, nanos, h.1, h.2.1, h.2.2⟩
  else none

/-- The last instant. -/
def last : Instant := ⟨0x7FFFFFFFFFFFFFFF, 999999999, by decide, by decide, Duration.max.nanos_lt⟩

/-- The instant as an exact number of nanoseconds. -/
def toNanos (i : Instant) : Int := i.secs * 1000000000 + i.nanos

/-- Earlier, or the same. -/
protected def le (a b : Instant) : Prop := a.secs < b.secs ∨ a.secs = b.secs ∧ a.nanos ≤ b.nanos

instance : LE Instant := ⟨Instant.le⟩

instance (a b : Instant) : Decidable (a ≤ b) :=
  inferInstanceAs (Decidable (a.secs < b.secs ∨ a.secs = b.secs ∧ a.nanos ≤ b.nanos))

/-- The instant a duration later, unless that is past the last one. -/
def add? (i : Instant) (d : Duration) : Option Instant :=
  if hs : i.secs + d.secs < 0x8000000000000000 then
    if hn : i.nanos + d.nanos < 1000000000 then
      some ⟨i.secs + d.secs, i.nanos + d.nanos, by have := i.le_secs; omega, hs, hn⟩
    else if hc : i.secs + d.secs + 1 < 0x8000000000000000 then
      some ⟨i.secs + d.secs + 1, i.nanos + d.nanos - 1000000000,
        by have := i.le_secs; omega, hc, by have := i.nanos_lt; have := d.nanos_lt; omega⟩
    else none
  else none

/-- The time that has passed at `later` since `earlier`; zero if none has. -/
def since (later earlier : Instant) : Duration :=
  if h : earlier ≤ later then
    if hn : earlier.nanos ≤ later.nanos then
      ⟨(later.secs - earlier.secs).toNat, later.nanos - earlier.nanos,
        by have := later.secs_lt; have := earlier.le_secs; omega,
        by have := later.nanos_lt; omega⟩
    else
      ⟨(later.secs - earlier.secs - 1).toNat, later.nanos + 1000000000 - earlier.nanos,
        by have := later.secs_lt; have := earlier.le_secs; omega,
        by have := later.nanos_lt; omega⟩
  else .zero

/-! ### Instants as exact numbers -/

/-- The order is the order of the exact numbers. -/
theorem le_iff_toNanos_le {a b : Instant} : a ≤ b ↔ a.toNanos ≤ b.toNanos := by
  change (a.secs < b.secs ∨ a.secs = b.secs ∧ a.nanos ≤ b.nanos) ↔ _
  have ha := a.nanos_lt
  have hb := b.nanos_lt
  unfold toNanos
  omega

/-- An instant is told by its exact number. -/
theorem toNanos_inj {a b : Instant} : a.toNanos = b.toNanos ↔ a = b := by
  have ha := a.nanos_lt
  have hb := b.nanos_lt
  refine ⟨fun h => Instant.ext ?_ ?_, fun h => h ▸ rfl⟩
  all_goals
    unfold toNanos at h
    omega

protected theorem le_refl (i : Instant) : i ≤ i :=
  le_iff_toNanos_le.mpr (Int.le_refl _)

protected theorem le_trans {i j k : Instant} (h : i ≤ j) (h' : j ≤ k) : i ≤ k :=
  le_iff_toNanos_le.mpr (Int.le_trans (le_iff_toNanos_le.mp h) (le_iff_toNanos_le.mp h'))

/-- No instant is later than the last one. -/
theorem le_last (i : Instant) : i ≤ last := by
  have hs := i.secs_lt
  have hn := i.nanos_lt
  rw [le_iff_toNanos_le]
  simp only [toNanos, last]
  omega

/-- **A sum is exact**: it is the sum of the nanoseconds. -/
theorem toNanos_of_add? {i j : Instant} {d : Duration} (h : i.add? d = some j) :
    j.toNanos = i.toNanos + d.toNanos := by
  unfold add? at h
  split at h
  · split at h
    · cases h
      simp only [toNanos, Duration.toNanos]
      omega
    · split at h
      · cases h
        simp only [toNanos, Duration.toNanos]
        omega
      · cases h
  · cases h

/-- **A sum is missing exactly past the last instant.** -/
theorem add?_eq_none_iff {i : Instant} {d : Duration} :
    i.add? d = none ↔ last.toNanos < i.toNanos + d.toNanos := by
  have hi := i.nanos_lt
  have hd := d.nanos_lt
  unfold add?
  simp only [toNanos, last, Duration.toNanos]
  split
  · split
    · simp only [reduceCtorEq, false_iff]
      omega
    · split
      · simp only [reduceCtorEq, false_iff]
        omega
      · simp only [true_iff]
        omega
  · simp only [true_iff]
    omega

/-- **Where there is a sum it is told by its number.** -/
theorem add?_eq_some_iff {i j : Instant} {d : Duration} :
    i.add? d = some j ↔ j.toNanos = i.toNanos + d.toNanos := by
  refine ⟨toNanos_of_add?, fun h => ?_⟩
  cases hsum : i.add? d with
  | none =>
    have hpast := add?_eq_none_iff.mp hsum
    have hlast := le_iff_toNanos_le.mp j.le_last
    omega
  | some k => rw [Option.some.injEq, ← toNanos_inj, toNanos_of_add? hsum, h]

/-- **The time between two instants is their exact difference**, or zero. -/
theorem toNanos_since (later earlier : Instant) :
    ((later.since earlier).toNanos : Int) = Max.max 0 (later.toNanos - earlier.toNanos) := by
  have hl := later.nanos_lt
  have he := earlier.nanos_lt
  unfold since
  split
  · next h =>
    have h' := le_iff_toNanos_le.mp h
    change earlier.secs < later.secs ∨ earlier.secs = later.secs ∧ earlier.nanos ≤ later.nanos at h
    split
    · simp only [toNanos, Duration.toNanos] at h' ⊢
      omega
    · simp only [toNanos, Duration.toNanos] at h' ⊢
      omega
  · next h =>
    have h' : ¬earlier.toNanos ≤ later.toNanos := fun hh => h (le_iff_toNanos_le.mpr hh)
    simp only [toNanos, Duration.toNanos, Duration.zero] at h' ⊢
    omega

end Instant

end AutoReset
