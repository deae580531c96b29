import AutoReset.Event.Call
import AutoReset.Proofs.Latch.Balance
import AutoReset.Proofs.Time.Deadline
/-!
# What a stay inside the lock comes to

A stay of a call inside the lock does one of three things. It posts a signal that is
then to be announced; it finds nothing to consume and puts the call to sleep, for as
long as `AutoReset.Call.bound?` says; or it settles the answer, in one of the ways
that `AutoReset.Call.Answers` lists. Only posts, consumed signals and timeouts leave
the latch changed.

On a latch in balance each call has one equation that says which of these it is.
-/

namespace AutoReset

/-- The answer that is left of one when the log sink may fail: only a bounded wait that
ran out is put on record. -/
def Reply.logged (sinkFails : Bool) : Reply → Reply
  | .timedOut => if sinkFails then .fault .sinkFailed else .timedOut
  | r => r

namespace Call

/-- What the call answers if it consumes a signal; none if it is not one for that. -/
def onTaken : Call → Option Reply
  | wait | waitTimeout _ => some .done
  | tryWait => some (.flag true)
  | _ => none

/-- What the call answers if all it does is to look. -/
def onLook (l : Latch) : Call → Option Reply
  | isSignaled => some (.flag l.signaled)
  | state => some (.state l.state)
  | stats => some (.stats l.stats)
  | _ => none

/-- For how long the call sleeps if there is nothing to consume; none if it does not
sleep. -/
def bound? (since now : Instant) : Call → Option (Option Duration)
  | wait => some none
  | waitTimeout timeout =>
    let remaining := (Deadline.startingAt since timeout).remainingAt now
    if remaining.isZero then none else some (some remaining)
  | _ => none

/-- Is the call one that may sleep? -/
def waits : Call → Bool
  | wait | waitTimeout _ => true
  | _ => false

/-- **The ways in which a stay settles the answer**, apart from the post of a signal
that is then announced, with the latch that is left. -/
inductive Answers (since now : Instant) (l : Latch) : Call → Reply → Latch → Prop
  /-- The counter of signals is full. -/
  | overflow (h : l.stats.posts = Counter.last) :
    Answers since now l .signal (.fault .counterOverflow) l
  /-- A signal was consumed. -/
  | take {c : Call} {r : Reply} (h : c.onTaken = some r) (hs : l.signaled = true) :
    Answers since now l c r l.taken
  /-- There was none, and the call does not sleep. -/
  | miss (hs : l.signaled = false) : Answers since now l .tryWait (.flag false) l
  /-- There was none, and no time is left. -/
  | expire {d : Duration} (sinkFails : Bool) (hs : l.signaled = false)
    (h : bound? since now (.waitTimeout d) = none) (ht : l.stats.timeouts ≠ Counter.last) :
    Answers since now l (.waitTimeout d) (Reply.timedOut.logged sinkFails) l.expired
  /-- There was none, no time is left, and the counter of timeouts is full. -/
  | expireOverflow {d : Duration} (hs : l.signaled = false)
    (h : bound? since now (.waitTimeout d) = none) (ht : l.stats.timeouts = Counter.last) :
    Answers since now l (.waitTimeout d) (.fault .counterOverflow) l
  /-- It was enough to look. -/
  | look {c : Call} {r : Reply} (h : c.onLook l = some r) : Answers since now l c r l

/-- **The ways in which a stay decides a call**: it posts a signal, or it settles the
answer. -/
inductive Decides (since now : Instant) (l : Latch) : Call → Reply → Latch → Prop
  /-- A signal was posted, and will be announced. -/
  | posted (h : l.stats.posts ≠ Counter.last) : Decides since now l .signal .done l.posted
  /-- The answer was settled. -/
  | answered {c : Call} {r : Reply} {l' : Latch} (h : Answers since now l c r l') :
    Decides since now l c r l'

theorem waits_of_bound? {since now : Instant} {c : Call} {b : Option Duration}
    (h : c.bound? since now = some b) : c.waits = true := by
  cases c <;> simp_all [bound?, waits]

/-- A bounded wait sleeps with a bound, and a wait without. -/
theorem isSome_of_bound? {since now : Instant} {c : Call} {b : Option Duration}
    (h : c.bound? since now = some b) : b.isSome = c.isBounded := by
  cases c with
  | wait =>
    cases h
    rfl
  | waitTimeout d =>
    simp only [bound?] at h
    split at h
    · cases h
    · cases h
      rfl
  | _ => cases h

/-- Does the call sleep, and has it time left? -/
def patient (since now : Instant) (c : Call) : Bool := (c.bound? since now).isSome

/-- Only waits are patient. -/
theorem waits_of_patient {since now : Instant} {c : Call} (h : c.patient since now = true) :
    c.waits = true := by
  obtain ⟨b, hb⟩ := Option.isSome_iff_exists.mp h
  exact waits_of_bound? hb

/-- A wait whose time is out is bounded. -/
theorem isBounded_of_not_patient {since now : Instant} {c : Call} (hc : c.waits = true)
    (h : c.patient since now = false) : c.isBounded = true := by
  cases c with
  | wait => cases h
  | waitTimeout d => rfl
  | _ => cases hc

/-- **A bounded wait has no time left from its due time on**, to the nanosecond; a due time
past the last instant never comes. -/
theorem bound?_eq_none_iff {since now : Instant} {d : Duration} :
    (waitTimeout d).bound? since now = none ↔ since.toNanos + d.toNanos ≤ now.toNanos := by
  have hzero : (waitTimeout d).bound? since now = none ↔
      (Deadline.startingAt since d).remainingAt now = .zero := by
    rw [← Duration.toNanos_eq_zero, ← Duration.isZero_iff]
    simp only [bound?]
    split <;> simp_all
  rw [hzero, Deadline.remainingAt_eq_zero, Deadline.isExpiredAt_startingAt]

/-- **Who has time left had time left before.** -/
theorem patient_of_le {since now later : Instant} {c : Call} (hle : now ≤ later)
    (h : c.patient since later = true) : c.patient since now = true := by
  cases c with
  | wait => rfl
  | waitTimeout d =>
    rw [Instant.le_iff_toNanos_le] at hle
    rw [patient, Option.isSome_iff_ne_none, ne_eq, bound?_eq_none_iff] at h ⊢
    omega
  | _ => exact h

/-- **A wait with time left is decided only by a signal**, which it consumes. -/
theorem taken_of_decides {since now : Instant} {l l' : Latch} {c : Call} {r : Reply}
    (hc : c.patient since now = true) (h : Decides since now l c r l') :
    l.signaled = true ∧ r = .done ∧ l' = l.taken := by
  cases h with
  | posted _ => cases hc
  | answered ha =>
    cases ha with
    | take htaken hs =>
      refine ⟨hs, ?_, rfl⟩
      cases c with
      | wait | waitTimeout _ =>
        cases htaken
        rfl
      | _ => cases hc
    | expire _ _ hb _ => rw [patient, hb] at hc; cases hc
    | expireOverflow _ hb _ => rw [patient, hb] at hc; cases hc
    | look hlook =>
      cases c with
      | wait | waitTimeout _ => cases hlook
      | _ => cases hc
    | _ => cases hc

/-- A signal that can be counted is posted. -/
theorem posted_of_decides {since now : Instant} {l l' : Latch} {r : Reply}
    (hp : l.stats.posts ≠ Counter.last) (h : Decides since now l .signal r l') :
    r = .done ∧ l' = l.posted := by
  cases h with
  | posted _ => exact ⟨rfl, rfl⟩
  | answered ha =>
    cases ha with
    | overflow hfull => exact absurd hfull hp
    | take htaken _ => cases htaken
    | look hlook => cases hlook

/-- **To look is to see the latch as it is**, and to leave it so. -/
theorem eq_of_decides_isSignaled {since now : Instant} {l l' : Latch} {r : Reply}
    (h : Decides since now l .isSignaled r l') : r = .flag l.signaled ∧ l' = l := by
  cases h with
  | answered ha =>
    cases ha with
    | take htaken _ => cases htaken
    | look hlook =>
      cases hlook
      exact ⟨rfl, rfl⟩

/-- **How a bounded wait is decided**: it consumes a signal; or there is none, its due time
has come, and the timeout is counted unless the counter is full. -/
theorem waitTimeout_of_decides {since now : Instant} {l l' : Latch} {d : Duration} {r : Reply}
    (h : Decides since now l (.waitTimeout d) r l') :
    (l.signaled = true ∧ r = .done ∧ l' = l.taken) ∨
      (l.signaled = false ∧ since.toNanos + d.toNanos ≤ now.toNanos ∧
        ((l.stats.timeouts ≠ Counter.last ∧ (∃ sinkFails, r = Reply.timedOut.logged sinkFails) ∧
            l' = l.expired) ∨
          (l.stats.timeouts = Counter.last ∧ r = .fault .counterOverflow ∧ l' = l))) := by
  cases h with
  | answered ha =>
    cases ha with
    | take htaken hs =>
      cases htaken
      exact Or.inl ⟨hs, rfl, rfl⟩
    | expire sinkFails hs hb ht =>
      exact Or.inr ⟨hs, bound?_eq_none_iff.mp hb, Or.inl ⟨ht, ⟨sinkFails, rfl⟩, rfl⟩⟩
    | expireOverflow hs hb ht =>
      exact Or.inr ⟨hs, bound?_eq_none_iff.mp hb, Or.inr ⟨ht, rfl, rfl⟩⟩
    | look hlook => cases hlook

/-! ### Stays on a latch in balance -/

section Inside

variable {l : Latch} (since now : Instant)

theorem inside_signal (h : l.Balanced) :
    Call.signal.inside since now l =
      if l.stats.posts = Counter.last then .error .counterOverflow l
      else .ok .announce l.posted := by
  simp only [inside, Attempt.bind_apply, Latch.post_eq h]
  by_cases hp : l.stats.posts = Counter.last
  · simp only [if_pos hp]
  · simp only [if_neg hp]
    rfl

theorem inside_wait (h : l.Balanced) :
    Call.wait.inside since now l =
      if l.signaled then .ok (.answer .done) l.taken else .ok (.sleep none) l := by
  simp only [inside, Attempt.bind_apply, Latch.take_eq h]
  cases l.signaled <;> rfl

theorem inside_tryWait (h : l.Balanced) :
    Call.tryWait.inside since now l =
      if l.signaled then .ok (.answer (.flag true)) l.taken
      else .ok (.answer (.flag false)) l := by
  simp only [inside, Attempt.bind_apply, Latch.take_eq h]
  cases l.signaled <;> rfl

theorem inside_waitTimeout (h : l.Balanced) (d : Duration) :
    (Call.waitTimeout d).inside since now l =
      if l.signaled then .ok (.answer .done) l.taken
      else
        match bound? since now (.waitTimeout d) with
        | some b => .ok (.sleep b) l
        | none =>
          if l.stats.timeouts = Counter.last then .error .counterOverflow l
          else .ok (.answer .timedOut) l.expired := by
  simp only [inside, bound?, Attempt.bind_apply, Latch.take_eq h]
  cases l.signaled with
  | true => rfl
  | false =>
    cases ((Deadline.startingAt since d).remainingAt now).isZero with
    | true =>
      simp only [Bool.false_eq_true, if_false, if_true, Attempt.bind_apply,
        Latch.recordTimeout_eq]
      by_cases ht : l.stats.timeouts = Counter.last
      · simp only [if_pos ht]
      · simp only [if_neg ht]
        rfl
    | false => rfl

/-- **A stay on a latch in balance posts, dozes off, answers or fails.** -/
theorem inside_cases (h : l.Balanced) (c : Call) :
    (c = .signal ∧ l.stats.posts ≠ Counter.last ∧ c.inside since now l = .ok .announce l.posted) ∨
    (∃ b, l.signaled = false ∧ c.bound? since now = some b ∧
      c.inside since now l = .ok (.sleep b) l) ∨
    (∃ r l', (∀ sinkFails, Answers since now l c (r.logged sinkFails) l') ∧
      (∀ f, r ≠ .fault f) ∧ c.inside since now l = .ok (.answer r) l') ∨
    (Answers since now l c (.fault .counterOverflow) l ∧
      c.inside since now l = .error .counterOverflow l) := by
  cases c with
  | signal =>
    rw [inside_signal since now h]
    by_cases hp : l.stats.posts = Counter.last
    · exact Or.inr (Or.inr (Or.inr ⟨.overflow hp, if_pos hp⟩))
    · exact Or.inl ⟨rfl, hp, if_neg hp⟩
  | wait =>
    rw [inside_wait since now h]
    cases hs : l.signaled with
    | true => exact Or.inr (Or.inr (Or.inl ⟨.done, _, fun _ => .take rfl hs, nofun, rfl⟩))
    | false => exact Or.inr (Or.inl ⟨none, rfl, rfl, rfl⟩)
  | waitTimeout d =>
    rw [inside_waitTimeout since now h]
    cases hs : l.signaled with
    | true => exact Or.inr (Or.inr (Or.inl ⟨.done, _, fun _ => .take rfl hs, nofun, rfl⟩))
    | false =>
      cases hb : bound? since now (.waitTimeout d) with
      | some b => exact Or.inr (Or.inl ⟨b, rfl, rfl, rfl⟩)
      | none =>
        -- nothing is left of the time: the timeout is counted, if it can be
        by_cases ht : l.stats.timeouts = Counter.last
        · exact Or.inr (Or.inr (Or.inr ⟨.expireOverflow hs hb ht, if_pos ht⟩))
        · exact Or.inr (Or.inr (Or.inl
            ⟨.timedOut, _, fun b => .expire b hs hb ht, nofun, if_neg ht⟩))
  | tryWait =>
    rw [inside_tryWait since now h]
    cases hs : l.signaled with
    | true => exact Or.inr (Or.inr (Or.inl ⟨.flag true, _, fun _ => .take rfl hs, nofun, rfl⟩))
    | false => exact Or.inr (Or.inr (Or.inl ⟨.flag false, _, fun _ => .miss hs, nofun, rfl⟩))
  | isSignaled =>
    exact Or.inr (Or.inr (Or.inl ⟨.flag l.signaled, l, fun _ => .look rfl, nofun, rfl⟩))
  | state => exact Or.inr (Or.inr (Or.inl ⟨.state l.state, l, fun _ => .look rfl, nofun, rfl⟩))
  | stats => exact Or.inr (Or.inr (Or.inl ⟨.stats l.stats, l, fun _ => .look rfl, nofun, rfl⟩))

end Inside

end Call

end AutoReset
