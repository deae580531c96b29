/-!
# Durations: whole seconds and nanoseconds

A duration has up to `2 ^ 64 - 1` whole seconds and a part of a second counted in
nanoseconds. As an exact number it is `AutoReset.Duration.toNanos`; the order
compares the seconds first, which is the order of those numbers
(`AutoReset.Duration.le_iff_toNanos_le`), and no two durations stand for the same
number (`AutoReset.Duration.toNanos_inj`).
-/

namespace AutoReset

/-- A length of time. -/
structure Duration where
  /-- Whole seconds. -/
  secs : Nat
  /-- The part of a second, in nanoseconds. -/
  nanos : Nat
  secs_lt : secs < 0x10000000000000000 := by decide
  nanos_lt : nanos < 1000000000 := by decide
  deriving DecidableEq

namespace Duration

/-- No time at all. -/
def zero : Duration := ⟨0, 0, by decide, by decide⟩

/-- The longest duration. -/
def max : Duration := ⟨0xFFFFFFFFFFFFFFFF, 999999999, by decide, by decide⟩

/-- The duration of these seconds and nanoseconds, if they are in range. -/
def mk? (secs nanos : Nat) : Option Duration :=
  if h : secs < 0x10000000000000000 ∧ nanos < 1000000000 then
    some ⟨secs, nanos, h.1, h.2⟩
  else none

/-- The duration as an exact number of nanoseconds. -/
def toNanos (d : Duration) : Nat := d.secs * 1000000000 + d.nanos

/-- Is there no time at all? -/
def isZero (d : Duration) : Bool := d.secs = 0 && d.nanos = 0

/-- Shorter, or the same. -/
protected def le (a b : Duration) : Prop := a.secs < b.secs ∨ a.secs = b.secs ∧ a.nanos ≤ b.nanos

instance : LE Duration := ⟨Duration.le⟩

instance (a b : Duration) : Decidable (a ≤ b) :=
  inferInstanceAs (Decidable (a.secs < b.secs ∨ a.secs = b.secs ∧ a.nanos ≤ b.nanos))

/-- The order is the order of the exact numbers. -/
theorem le_iff_toNanos_le {a b : Duration} : a ≤ b ↔ a.toNanos ≤ b.toNanos := by
  change (a.secs < b.secs ∨ a.secs = b.secs ∧ a.nanos ≤ b.nanos) ↔ _
  have ha := a.nanos_lt
  have hb := b.nanos_lt
  unfold toNanos
  omega

/-- A duration is told by its exact number. -/
theorem toNanos_inj {a b : Duration} : a.toNanos = b.toNanos ↔ a = b := by
  constructor
  · intro h
    obtain ⟨s, n, hs, hn⟩ := a
    obtain ⟨t, m, ht, hm⟩ := b
    simp only [toNanos] at h
    have h₁ : s = t := by omega
    have h₂ : n = m := by omega
    subst h₁ h₂
    rfl
  · rintro rfl
    rfl

theorem isZero_iff {d : Duration} : d.isZero = true ↔ d.toNanos = 0 := by
  simp only [isZero, toNanos, Bool.and_eq_true, decide_eq_true_eq]
  omega

end Duration

end AutoReset
