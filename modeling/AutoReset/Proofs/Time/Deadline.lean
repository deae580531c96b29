import AutoReset.Time.Deadline
/-!
# Deadlines, to the nanosecond

A deadline is worked out in seconds and nanoseconds, with a carry in the due time and a borrow in
the time left. What it comes to is a matter of exact numbers: the due time is the start and the
timeout (`AutoReset.Deadline.due_startingAt`), the time left is what the due time is ahead
(`AutoReset.Deadline.toNanos_remainingAt`), and a deadline has passed where the due number has
come (`AutoReset.Deadline.isExpiredAt_startingAt`), be there a due time or not, for no clock comes
past the last instant.

Two facts about the range are behind it. A sum that is not past the last instant is never refused,
though the seconds of the timeout alone may be too many for an instant. And the time from the first
instant to the last one is the longest duration (`AutoReset.Instant.toNanos_last`), so that no
difference is cut off; but there the longest duration is a time that is left, and not the sign that
there is no due time.
-/

namespace AutoReset

namespace Instant

/-- The first instant. -/
def first : Instant := ⟨-0x8000000000000000, 0, by decide, by decide, Duration.zero.nanos_lt⟩

/-- No instant is earlier than the first one. -/
theorem first_le (i : Instant) : first ≤ i := by
  have hs := i.le_secs
  rw [le_iff_toNanos_le]
  simp only [toNanos, first]
  omega

/-- **From the first instant to the last one it is the longest duration.** -/
theorem toNanos_last : last.toNanos = first.toNanos + Duration.max.toNanos := by
  simp only [toNanos, last, first, Duration.toNanos, Duration.max]
  omega

end Instant

namespace Duration

/-- No duration is longer than the longest one. -/
theorem le_max (d : Duration) : d ≤ max := by
  have hs := d.secs_lt
  have hn := d.nanos_lt
  rw [le_iff_toNanos_le]
  simp only [toNanos, max]
  omega

/-- A nanosecond, the shortest time there is. -/
def nano : Duration := { zero with nanos := 1, nanos_lt := by decide }

/-- Whatever number is below that of a duration is that of a shorter one. -/
theorem exists_of_le {n : Nat} {d : Duration} (h : n ≤ d.toNanos) :
    ∃ e : Duration, e.toNanos = n := by
  have hs := d.secs_lt
  have hn := d.nanos_lt
  unfold toNanos at h
  refine ⟨⟨n / 1000000000, n % 1000000000, by omega, by omega⟩, ?_⟩
  simp only [toNanos]
  omega

theorem toNanos_max_pos : 0 < max.toNanos := by
  simp only [toNanos, max]
  omega

theorem toNanos_eq_zero {d : Duration} : d.toNanos = 0 ↔ d = zero := toNanos_inj (b := zero)

end Duration

namespace Deadline

variable {d : Deadline} {start due now c₁ c₂ : Instant} {timeout t₁ t₂ : Duration}

/-- **The due time is the start and the timeout.** -/
theorem due_startingAt :
    (startingAt start timeout).due = some due ↔
      due.toNanos = start.toNanos + timeout.toNanos :=
  Instant.add?_eq_some_iff

/-- **There is no due time exactly past the last instant.** -/
theorem due_startingAt_eq_none :
    (startingAt start timeout).due = none ↔
      Instant.last.toNanos < start.toNanos + timeout.toNanos :=
  Instant.add?_eq_none_iff

theorem isExpiredAt_of_due (h : d.due = some due) :
    d.isExpiredAt now = true ↔ due.toNanos ≤ now.toNanos := by
  rw [isExpiredAt, h, decide_eq_true_eq, Instant.le_iff_toNanos_le]

/-- **The time left is what the due time is ahead**, or nothing. -/
theorem toNanos_remainingAt (h : d.due = some due) (now : Instant) :
    ((d.remainingAt now).toNanos : Int) = max 0 (due.toNanos - now.toNanos) := by
  rw [remainingAt, h]
  exact Instant.toNanos_since due now

theorem isExpiredAt_of_none (h : d.due = none) : d.isExpiredAt now = false := by
  rw [isExpiredAt, h]

theorem remainingAt_of_none (h : d.due = none) : d.remainingAt now = .max := by
  rw [remainingAt, h]

/-- **A deadline has passed when the start and the timeout have come**, whether there is such an
instant or not. -/
theorem isExpiredAt_startingAt :
    (startingAt start timeout).isExpiredAt now = true ↔
      start.toNanos + timeout.toNanos ≤ now.toNanos := by
  cases hdue : (startingAt start timeout).due with
  | none =>
    have hpast := due_startingAt_eq_none.mp hdue
    have hnow := Instant.le_iff_toNanos_le.mp now.le_last
    rw [isExpiredAt_of_none hdue]
    simp only [Bool.false_eq_true, false_iff]
    omega
  | some due => rw [isExpiredAt_of_due hdue, due_startingAt.mp hdue]

/-- **No time is left exactly when the deadline has passed.** -/
theorem remainingAt_eq_zero : d.remainingAt now = .zero ↔ d.isExpiredAt now = true := by
  cases hdue : d.due with
  | none =>
    rw [remainingAt_of_none hdue, isExpiredAt_of_none hdue]
    decide
  | some due =>
    have hleft := toNanos_remainingAt hdue now
    rw [isExpiredAt_of_due hdue, ← Duration.toNanos_eq_zero]
    omega

/-- **The longest duration is left** where there is no due time, and from the first instant to the
last one. -/
theorem remainingAt_eq_max :
    d.remainingAt now = .max ↔ d.due = none ∨ d.due = some .last ∧ now = .first := by
  cases hdue : d.due with
  | none => simp [remainingAt_of_none hdue]
  | some due =>
    have hleft := toNanos_remainingAt hdue now
    have hlast := Instant.le_iff_toNanos_le.mp due.le_last
    have hfirst := Instant.le_iff_toNanos_le.mp now.first_le
    have hspan := Instant.toNanos_last
    have hpos := Duration.toNanos_max_pos
    rw [← Duration.toNanos_inj, ← Instant.toNanos_inj, Option.some.injEq, ← Instant.toNanos_inj]
    simp only [reduceCtorEq, false_or]
    omega

/-! ### Exactness -/

/-- **Deadlines are exact over the whole range.** A due time is stored exactly when the start and
the timeout come to an instant, and it is that instant. Then the deadline has passed when it has
come, and the time left is the exact difference, cut off at zero and nowhere else. Without a due
time the deadline never passes and the longest duration is left. So no time is left exactly when
the deadline has passed; and the longest duration is left exactly where there is no due time, or
where it is the last instant and the clock stands at the first one. -/
theorem exact_over_range (start : Instant) (timeout : Duration) (now : Instant) :
    (∀ due, (startingAt start timeout).due = some due ↔
      due.toNanos = start.toNanos + timeout.toNanos) ∧
    ((startingAt start timeout).due = none ↔
      Instant.last.toNanos < start.toNanos + timeout.toNanos) ∧
    (∀ due, (startingAt start timeout).due = some due →
      ((startingAt start timeout).isExpiredAt now = true ↔
        start.toNanos + timeout.toNanos ≤ now.toNanos) ∧
      (((startingAt start timeout).remainingAt now).toNanos : Int) =
        max 0 (start.toNanos + timeout.toNanos - now.toNanos)) ∧
    ((startingAt start timeout).due = none →
      (startingAt start timeout).isExpiredAt now = false ∧
        (startingAt start timeout).remainingAt now = .max) ∧
    ((startingAt start timeout).isExpiredAt now = true ↔
      (startingAt start timeout).remainingAt now = .zero) ∧
    ((startingAt start timeout).remainingAt now = .max ↔
      (startingAt start timeout).due = none ∨
        (startingAt start timeout).due = some .last ∧ now = .first) := by
  refine ⟨fun due => due_startingAt, due_startingAt_eq_none, fun due hdue => ?_, fun hnone => ?_,
    remainingAt_eq_zero.symm, remainingAt_eq_max⟩
  · refine ⟨isExpiredAt_startingAt, ?_⟩
    rw [← due_startingAt.mp hdue]
    exact toNanos_remainingAt hdue now
  · exact ⟨isExpiredAt_of_none hnone, remainingAt_of_none hnone⟩

/-- The longest timeout leads from the first instant to the last one, though it has more seconds
than an instant can have, and all of it is left. A nanosecond later the carry leads past the last
instant. -/
theorem exact_over_range_ends :
    (startingAt .first .max).due = some .last ∧
      (startingAt .first .max).remainingAt .first = .max ∧
      (startingAt { Instant.first with nanos := 1, nanos_lt := by decide } .max).due = none ∧
      (startingAt { Instant.first with nanos := 1, nanos_lt := by decide } .max).isExpiredAt
        .last = false := by
  obtain ⟨hstored, -, -, -, -, hmax⟩ := exact_over_range .first .max .first
  obtain ⟨-, hpast, -, hnever, -⟩ :=
    exact_over_range { Instant.first with nanos := 1, nanos_lt := by decide } .max .last
  have hdue := (hstored .last).mpr Instant.toNanos_last
  have hnone := hpast.mpr (by
    simp only [Instant.toNanos, Instant.last, Instant.first, Duration.toNanos, Duration.max]
    omega)
  exact ⟨hdue, hmax.mpr (.inr ⟨hdue, rfl⟩), hnone, (hnever hnone).1⟩

/-! ### Order -/

/-- The later, the less is left. -/
theorem remainingAt_antitone (d : Deadline) (hc : c₁ ≤ c₂) :
    d.remainingAt c₂ ≤ d.remainingAt c₁ := by
  have hnanos := Instant.le_iff_toNanos_le.mp hc
  cases hdue : d.due with
  | none =>
    rw [remainingAt_of_none hdue, remainingAt_of_none hdue]
    exact Duration.le_max _
  | some due =>
    have h₁ := toNanos_remainingAt hdue c₁
    have h₂ := toNanos_remainingAt hdue c₂
    rw [Duration.le_iff_toNanos_le]
    omega

/-- The longer the timeout, the more is left, up to the longest duration where there is no due
time any more. -/
theorem remainingAt_monotone (ht : t₁ ≤ t₂) (start now : Instant) :
    (startingAt start t₁).remainingAt now ≤ (startingAt start t₂).remainingAt now := by
  have hnanos := Duration.le_iff_toNanos_le.mp ht
  cases hdue₂ : (startingAt start t₂).due with
  | none =>
    rw [remainingAt_of_none hdue₂]
    exact Duration.le_max _
  | some due₂ =>
    cases hdue₁ : (startingAt start t₁).due with
    | none =>
      -- what leads past the last instant does so with more time
      have hpast := due_startingAt_eq_none.mp hdue₁
      have hlast := Instant.le_iff_toNanos_le.mp due₂.le_last
      have hsum := due_startingAt.mp hdue₂
      omega
    | some due₁ =>
      have h₁ := toNanos_remainingAt hdue₁ now
      have h₂ := toNanos_remainingAt hdue₂ now
      have hsum₁ := due_startingAt.mp hdue₁
      have hsum₂ := due_startingAt.mp hdue₂
      rw [Duration.le_iff_toNanos_le]
      omega

/-- **The time left leads to the due time**, unless the deadline has passed. -/
theorem add?_remainingAt (hdue : d.due = some due) (h : d.isExpiredAt now = false) :
    now.add? (d.remainingAt now) = some due := by
  have hleft := toNanos_remainingAt hdue now
  have hahead : ¬ due.toNanos ≤ now.toNanos := fun hle => by
    rw [(isExpiredAt_of_due hdue).mpr hle] at h
    cases h
  rw [Instant.add?_eq_some_iff]
  omega

/-- **One nanosecond less does not lead to the due time.** -/
theorem exists_add?_of_less (hdue : d.due = some due) (h : d.isExpiredAt now = false) :
    ∃ less before, less.toNanos + 1 = (d.remainingAt now).toNanos ∧ now.add? less = some before ∧
      d.isExpiredAt before = false := by
  have hsum := Instant.toNanos_of_add? (add?_remainingAt hdue h)
  have hpos : (d.remainingAt now).toNanos ≠ 0 := fun hzero => by
    rw [remainingAt_eq_zero.mp (Duration.toNanos_eq_zero.mp hzero)] at h
    cases h
  obtain ⟨less, hless⟩ := Duration.exists_of_le (Nat.sub_le (d.remainingAt now).toNanos 1)
  have hone : less.toNanos + 1 = (d.remainingAt now).toNanos := by omega
  have hlast := Instant.le_iff_toNanos_le.mp due.le_last
  cases hbefore : now.add? less with
  | none =>
    have hpast := Instant.add?_eq_none_iff.mp hbefore
    omega
  | some before =>
    refine ⟨less, before, hone, hbefore, Bool.eq_false_iff.mpr fun hexpired => ?_⟩
    have hle := (isExpiredAt_of_due hdue).mp hexpired
    have hnanos := Instant.toNanos_of_add? hbefore
    omega

/-- **How deadlines are ordered**, be there due times or not. A deadline that has passed has passed
later on too, and with a shorter timeout; as time goes on less is left, and with a longer timeout
more. With a due time, what is left decreases by the time that goes by until nothing is left; and
as long as the deadline has not passed, what is left leads exactly to the due time, and one
nanosecond less to an instant at which it has not passed. From the start on, no more than the
timeout is left. -/
theorem order_laws (start : Instant) (ht : t₁ ≤ t₂) (hc : c₁ ≤ c₂) :
    ((startingAt start t₂).isExpiredAt c₁ = true →
      (startingAt start t₁).isExpiredAt c₂ = true) ∧
    (∀ t, (startingAt start t).remainingAt c₂ ≤ (startingAt start t).remainingAt c₁) ∧
    (∀ c, (startingAt start t₁).remainingAt c ≤ (startingAt start t₂).remainingAt c) ∧
    ∀ t due, (startingAt start t).due = some due →
      (((startingAt start t).remainingAt c₂).toNanos : Int) =
        max 0 (((startingAt start t).remainingAt c₁).toNanos - (c₂.toNanos - c₁.toNanos)) ∧
      (∀ c, (startingAt start t).isExpiredAt c = false →
        c.add? ((startingAt start t).remainingAt c) = some due ∧
        ∃ less before, less.toNanos + 1 = ((startingAt start t).remainingAt c).toNanos ∧
          c.add? less = some before ∧ (startingAt start t).isExpiredAt before = false) ∧
      ∀ c, start ≤ c → (startingAt start t).remainingAt c ≤ t := by
  have htimeouts := Duration.le_iff_toNanos_le.mp ht
  have hclock := Instant.le_iff_toNanos_le.mp hc
  refine ⟨fun hexpired => ?_, fun t => remainingAt_antitone _ hc,
    fun c => remainingAt_monotone ht start c,
    fun t due hdue => ⟨?_, fun c hc => ?_, fun c hle => ?_⟩⟩
  · rw [isExpiredAt_startingAt] at hexpired ⊢
    omega
  · have h₁ := toNanos_remainingAt hdue c₁
    have h₂ := toNanos_remainingAt hdue c₂
    omega
  · exact ⟨add?_remainingAt hdue hc, exists_add?_of_less hdue hc⟩
  · have hleft := toNanos_remainingAt hdue c
    have hsum := due_startingAt.mp hdue
    have hnanos := Instant.le_iff_toNanos_le.mp hle
    rw [Duration.le_iff_toNanos_le]
    omega

/-- Across the border: from the last instant on, no timeout at all has a due time, and a nanosecond
has none. At the first instant the longest duration is left of both; it leads to the last one, and
there nothing is left of the first deadline. -/
theorem order_laws_border :
    (startingAt .last .zero).due = some .last ∧
      (startingAt .last .nano).due = none ∧
      (startingAt .last .zero).remainingAt .first ≤ (startingAt .last .nano).remainingAt .first ∧
      Instant.first.add? ((startingAt .last .zero).remainingAt .first) = some .last ∧
      (startingAt .last .zero).remainingAt .last ≤ .zero := by
  obtain ⟨-, -, hmonotone, hdue⟩ :=
    order_laws .last (show Duration.zero ≤ .nano by decide)
      (show Instant.first ≤ .last by decide)
  obtain ⟨-, hexact, hbounded⟩ := hdue .zero .last (by decide)
  exact ⟨by decide, by decide, hmonotone .first, (hexact .first (by decide)).1,
    hbounded .last (by decide)⟩

end Deadline

end AutoReset
