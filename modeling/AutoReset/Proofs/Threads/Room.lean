import AutoReset.Proofs.Event.Stay
import AutoReset.Proofs.Threads.Step
import Mathlib.Logic.Function.Basic
import Mathlib.Tactic.Common
/-!
# One event, as its threads meet it

Most of what there is to say about a machine is said about one event at a time. A
**room** (`AutoReset.Threads.Room`) is what is left of a machine when one looks at a
single event: its latch and its lock, the clock, and for each thread that is in a
call on this event its **seat**: which call, since when, and how far it has got.
Threads that are elsewhere have no seat.

A step of the machine is then either nothing to the room or one of ten things, and
`AutoReset.Threads.Room.Step` lists them (`AutoReset.Threads.Machine.step_room`); every
invariant of an event is proved of rooms, by cases on the list.

What a step shows of the calls on the event is its **mark**
(`AutoReset.Threads.Mark`): a call was made, its answer was decided, it returned. The
marks of a run are its **history** (`AutoReset.Threads.Machine.history`). A call is
decided in the stay inside the lock that settles its answer, and only there; the
stays after which it sleeps leave no more than the mark of having moved.
-/

namespace AutoReset.Threads

/-! ### Rooms -/

/-- How far a call has got. -/
inductive Stage where
  /-- It wants the lock. -/
  | entering
  /-- It holds the lock, and its stay has not begun. -/
  | inside
  /-- It holds the lock, and has a signal to announce. -/
  | announcing
  /-- It holds the lock, and has its answer. -/
  | leaving (r : Reply)
  /-- It holds the lock, and is about to sleep. -/
  | drowsy (bound : Option Duration)
  /-- It sleeps. -/
  | asleep (bound : Option Duration)
  /-- It was woken, and wants the lock again. -/
  | woken
  deriving DecidableEq

/-- A call of a thread on the event. -/
structure Seat where
  /-- What was called. -/
  call : Call
  /-- When it was called. -/
  since : Instant
  /-- How far it has got. -/
  stage : Stage
  deriving DecidableEq

/-- An event and the threads in it. -/
@[ext] structure Room (t : Nat) where
  /-- The flag and the counters. -/
  latch : Latch
  /-- The thread that holds the lock. -/
  holder : Option (Fin t)
  /-- Did a thread leave the lock by a fault? -/
  poisoned : Bool
  /-- The call in which each thread is. -/
  seat : Fin t → Option Seat
  /-- Where the clock stands. -/
  now : Instant

/-- The seat that a visit takes at an event. -/
def Visit.seat {m : Nat} (v : Visit m) (e : Fin m) (stage : Stage) : Option Seat :=
  if v.event = e then some ⟨v.call, v.since, stage⟩ else none

/-- The seat at an event of a thread that stands here. -/
def Status.seat {m : Nat} (e : Fin m) : Status m → Option Seat
  | .ready => none
  | .entering v => v.seat e .entering
  | .inside v => v.seat e .inside
  | .announcing v => v.seat e .announcing
  | .leaving v r => v.seat e (.leaving r)
  | .drowsy v bound => v.seat e (.drowsy bound)
  | .asleep v bound => v.seat e (.asleep bound)
  | .woken v => v.seat e .woken

/-- Where a thread stands that has got this far with a call. -/
def Stage.status {m : Nat} (v : Visit m) : Stage → Status m
  | entering => .entering v
  | inside => .inside v
  | announcing => .announcing v
  | leaving r => .leaving v r
  | drowsy bound => .drowsy v bound
  | asleep bound => .asleep v bound
  | woken => .woken v

/-- **A seat tells where its thread stands.** -/
theorem Status.eq_of_seat {m : Nat} {e : Fin m} {x : Status m} {s : Seat}
    (h : x.seat e = some s) : x = s.stage.status ⟨e, s.call, s.since⟩ := by
  have hvisit : ∀ {v : Visit m} {stage : Stage}, v.seat e stage = some s →
      v = ⟨e, s.call, s.since⟩ ∧ stage = s.stage := by
    rintro ⟨f, c, i⟩ stage hs
    rw [Visit.seat] at hs
    split at hs
    · next hf =>
      cases hf
      cases hs
      exact ⟨rfl, rfl⟩
    · cases hs
  cases x with
  | ready => cases h
  | _ =>
    obtain ⟨rfl, hstage⟩ := hvisit h
    rw [← hstage]
    rfl

/-- The room of an event. -/
def Machine.room {σ : Type} {t m g : Nat} (μ : Machine σ t m g) (e : Fin m) : Room t where
  latch := (μ.monitor e).latch
  holder := (μ.monitor e).holder
  poisoned := (μ.monitor e).poisoned
  seat θ := (μ.status θ).seat e
  now := μ.now

namespace Machine

variable {σ : Type} {t m g : Nat}

/-- Is a thread in a call on the event? -/
def isAt (μ : Machine σ t m g) (e : Fin m) (θ : Fin t) : Bool :=
  ((μ.status θ).seat e).isSome

/-- Every thread that is in a call on the event sleeps. -/
def AtRest (μ : Machine σ t m g) (e : Fin m) : Prop :=
  ∀ θ, μ.isAt e θ = true → μ.sleepsOn e θ = true

instance (μ : Machine σ t m g) (e : Fin m) : Decidable (μ.AtRest e) :=
  inferInstanceAs (Decidable (∀ θ, μ.isAt e θ = true → μ.sleepsOn e θ = true))

end Machine

namespace Room

variable {t : Nat} (R : Room t)

/-- Gives a thread another seat, or none. -/
def put (θ : Fin t) (x : Option Seat) : Room t :=
  { R with seat := Function.update R.seat θ x }

@[simp] theorem seat_put_self (θ : Fin t) (x : Option Seat) : (R.put θ x).seat θ = x :=
  Function.update_self ..

theorem seat_put_of_ne {θ η : Fin t} (x : Option Seat) (h : η ≠ θ) :
    (R.put θ x).seat η = R.seat η :=
  Function.update_of_ne h ..

theorem put_seat (θ : Fin t) : R.put θ (R.seat θ) = R := by
  simp [put]

end Room

/-! ### Marks -/

/-- What a step shows of the calls on an event. -/
inductive Mark (t : Nat) where
  /-- A thread made a call. -/
  | made (θ : Fin t) (c : Call)
  /-- A call got on, and its answer is as open or as settled as before. -/
  | moved (θ : Fin t)
  /-- The answer of a call was settled. -/
  | decided (θ : Fin t) (c : Call) (r : Reply)
  /-- A call returned with its answer. -/
  | returned (θ : Fin t) (c : Call) (r : Reply)
  /-- A sleeper woke without a signal. -/
  | woke (θ : Fin t)
  /-- Nothing. -/
  | nothing
  deriving DecidableEq

/-- The mark of a stay inside the lock, by the seat that the stay leaves. -/
def Seat.mark {t : Nat} (θ : Fin t) (s : Seat) : Mark t :=
  match s.stage with
  | .leaving r => .decided θ s.call r
  | .announcing => .decided θ s.call .done
  | _ => .moved θ

namespace Machine

variable {σ : Type} {t m g : Nat}

/-- The mark of a step at an event, by the machines before and after it. -/
def mark (e : Fin m) (μ ν : Machine σ t m g) : Action t → Mark t
  | .start θ =>
    match (ν.room e).seat θ with
    | some s => .made θ s.call
    | none => .nothing
  | .work θ _ =>
    match (ν.room e).seat θ with
    | some s => s.mark θ
    | none => .nothing
  | .leave θ =>
    match (μ.room e).seat θ with
    | some ⟨c, _, .leaving r⟩ => .returned θ c r
    | _ => .nothing
  | .wake θ | .expire θ =>
    match (μ.room e).seat θ with
    | some _ => .woke θ
    | none => .nothing
  | .acquire θ | .notify θ _ | .sleep θ =>
    match (μ.room e).seat θ with
    | some _ => .moved θ
    | none => .nothing
  | .tick _ => .nothing

/-- The marks of a run at an event, one for each step. -/
def history (p : Program σ m g) (e : Fin m) : Machine σ t m g → List (Action t) → List (Mark t)
  | _, [] => []
  | μ, a :: as =>
    match μ.step p a with
    | none => []
    | some ν => mark e μ ν a :: history p e ν as

end Machine

/-! ### Steps of a room -/

namespace Room

variable {t : Nat}

/-- **What can happen in a room**, with the mark that it leaves. -/
inductive Step (R : Room t) : Mark t → Room t → Prop
  /-- A thread makes a call. -/
  | made (θ : Fin t) (c : Call) (free : R.seat θ = none) :
    Step R (.made θ c) (R.put θ (some ⟨c, R.now, .entering⟩))
  /-- A call gets the lock, for the first time or again. -/
  | entered {θ : Fin t} {c : Call} {i : Instant} {stage : Stage}
    (hs : R.seat θ = some ⟨c, i, stage⟩) (h : stage = .entering ∨ stage = .woken)
    (free : R.holder = none) :
    Step R (.moved θ) ({ R with holder := some θ }.put θ (some ⟨c, i, .inside⟩))
  /-- A signal is posted. -/
  | posted {θ : Fin t} {i : Instant} (hs : R.seat θ = some ⟨.signal, i, .inside⟩)
    (hp : R.latch.stats.posts ≠ Counter.last) :
    Step R (.decided θ .signal .done)
      ({ R with latch := R.latch.posted }.put θ (some ⟨.signal, i, .announcing⟩))
  /-- A stay settles the answer. -/
  | answered {θ : Fin t} {c : Call} {i : Instant} {r : Reply} {l : Latch}
    (hs : R.seat θ = some ⟨c, i, .inside⟩) (ha : Call.Answers i R.now R.latch c r l) :
    Step R (.decided θ c r) ({ R with latch := l }.put θ (some ⟨c, i, .leaving r⟩))
  /-- A stay finds nothing to consume. -/
  | dozed {θ : Fin t} {c : Call} {i : Instant} {b : Option Duration}
    (hs : R.seat θ = some ⟨c, i, .inside⟩) (hu : R.latch.signaled = false)
    (hb : c.bound? i R.now = some b) :
    Step R (.moved θ) (R.put θ (some ⟨c, i, .drowsy b⟩))
  /-- A signal is announced to a sleeper. -/
  | told {θ η : Fin t} {c d : Call} {i j : Instant} {b : Option Duration}
    (hs : R.seat θ = some ⟨c, i, .announcing⟩) (hη : R.seat η = some ⟨d, j, .asleep b⟩) :
    Step R (.moved θ)
      ((R.put η (some ⟨d, j, .woken⟩)).put θ (some ⟨c, i, .leaving .done⟩))
  /-- A signal is announced where nobody sleeps. -/
  | toldNobody {θ : Fin t} {c : Call} {i : Instant} (hs : R.seat θ = some ⟨c, i, .announcing⟩)
    (hn : ∀ η d j b, R.seat η ≠ some ⟨d, j, .asleep b⟩) :
    Step R (.moved θ) (R.put θ (some ⟨c, i, .leaving .done⟩))
  /-- A call returns. -/
  | returned {θ : Fin t} {c : Call} {i : Instant} {r : Reply}
    (hs : R.seat θ = some ⟨c, i, .leaving r⟩) :
    Step R (.returned θ c r)
      ({ R with holder := none, poisoned := R.poisoned || Reply.isFault r }.put θ none)
  /-- A call gives up the lock and falls asleep. -/
  | slept {θ : Fin t} {c : Call} {i : Instant} {b : Option Duration}
    (hs : R.seat θ = some ⟨c, i, .drowsy b⟩) :
    Step R (.moved θ) ({ R with holder := none }.put θ (some ⟨c, i, .asleep b⟩))
  /-- A sleeper wakes without a signal. -/
  | woke {θ : Fin t} {c : Call} {i : Instant} {b : Option Duration}
    (hs : R.seat θ = some ⟨c, i, .asleep b⟩) :
    Step R (.woke θ) (R.put θ (some ⟨c, i, .woken⟩))
  /-- Time passes. -/
  | passed {later : Instant} (h : R.now ≤ later) : Step R .nothing { R with now := later }

/-- **Many steps in a row**, with the marks that they leave. -/
inductive Trace (R : Room t) : List (Mark t) → Room t → Prop
  /-- No step at all. -/
  | nil : Trace R [] R
  /-- One step more. -/
  | snoc {h : List (Mark t)} {x : Mark t} {S T : Room t} (hs : Trace R h S) (hx : S.Step x T) :
    Trace R (h ++ [x]) T

theorem Trace.cons {R S T : Room t} {x : Mark t} {h : List (Mark t)} (hx : R.Step x S)
    (hs : S.Trace h T) : R.Trace (x :: h) T := by
  induction hs with
  | nil => exact .snoc .nil hx
  | snoc _ hy ih => exact .snoc ih hy

theorem Trace.append {R S T : Room t} {h h' : List (Mark t)} (hs : R.Trace h S)
    (hs' : S.Trace h' T) : R.Trace (h ++ h') T := by
  induction hs' with
  | nil => rwa [List.append_nil]
  | snoc _ hx ih =>
    rw [← List.append_assoc]
    exact .snoc ih hx

/-- **The balance of the latch is kept.** -/
theorem Step.balanced {R S : Room t} {x : Mark t} (h : R.Step x S) (hb : R.latch.Balanced) :
    S.latch.Balanced := by
  cases h with
  | posted _ hp => exact hb.posted hp
  | answered _ ha =>
    cases ha with
    | take _ hs => exact hb.taken hs
    | expire _ _ _ _ => exact hb.expired
    | _ => exact hb
  | _ => exact hb

end Room

/-! ### A step of the machine is a step of the room, or nothing to it -/

namespace Machine

variable {σ : Type} {t m g : Nat} {p : Program σ m g} {μ ν : Machine σ t m g} {e : Fin m}

section Setters

variable (μ e)

theorem room_setStatus (θ : Fin t) (s : Status m) :
    (μ.setStatus θ s).room e = (μ.room e).put θ (s.seat e) := by
  refine Room.ext rfl rfl rfl ?_ rfl
  funext η
  by_cases h : η = θ
  · subst h
    simp [room, status]
  · rw [Room.seat_put_of_ne _ _ h]
    simp [room, status, thread_setStatus_of_ne _ _ h]

theorem room_setReady (θ : Fin t) (x : σ) :
    (μ.setReady θ x).room e = (μ.room e).put θ none := by
  refine Room.ext rfl rfl rfl ?_ rfl
  funext η
  by_cases h : η = θ
  · subst h
    simp [room, status, Status.seat]
  · rw [Room.seat_put_of_ne _ _ h]
    simp [room, status, thread_setReady_of_ne _ _ h]

theorem room_setMonitor_self (x : Monitor t) :
    (μ.setMonitor e x).room e =
      { μ.room e with latch := x.latch, holder := x.holder, poisoned := x.poisoned } := by
  simp only [room, monitor_setMonitor_self]
  rfl

variable {e}

theorem room_setMonitor_of_ne {f : Fin m} (x : Monitor t) (h : e ≠ f) :
    (μ.setMonitor f x).room e = μ.room e := by
  simp only [room, monitor_setMonitor_of_ne _ _ h]
  rfl

end Setters

/-! #### What each step does to the room -/

/-- A step that leaves the room as it is. -/
theorem step_of_room_eq (h : ν.room e = μ.room e) : (μ.room e).Step .nothing (ν.room e) := by
  rw [h]
  exact .passed (Instant.le_refl _)

/-- A step that takes a thread without a seat to where it has none. -/
theorem step_elsewhere {θ : Fin t} (hs : (μ.status θ).seat e = none)
    (h : ν.room e = (μ.room e).put θ none) : (μ.room e).Step .nothing (ν.room e) := by
  have hseat : (μ.room e).seat θ = none := hs
  refine step_of_room_eq (h.trans ?_)
  rw [← hseat, Room.put_seat]

theorem start_room {θ : Fin t} (h : μ.start p θ = some ν) :
    (μ.room e).Step (mark e μ ν (.start θ)) (ν.room e) := by
  -- gates and other events are no matter of the room
  have elsewhere : (μ.status θ).seat e = none → ν.room e = (μ.room e).put θ none →
      (μ.room e).Step (mark e μ ν (.start θ)) (ν.room e) := by
    intro hs hν
    simp only [mark, hν, Room.seat_put_self]
    rw [← hν]
    exact step_elsewhere hs hν
  obtain ⟨hs, ⟨f, c, -, rfl⟩ | ⟨k, -, -, rfl⟩ | ⟨k, -, -, rfl⟩⟩ := exists_of_start h
  · have hseat : (μ.room e).seat θ = none := by simp [room, hs, Status.seat]
    by_cases hf : f = e
    · simp only [mark, room_setStatus, Room.seat_put_self, Status.seat, Visit.seat, if_pos hf]
      exact .made θ c hseat
    · refine elsewhere hseat ?_
      simp only [room_setStatus, Status.seat, Visit.seat, if_neg hf]
  · refine elsewhere (by rw [hs]; rfl) ?_
    rw [room_setReady]
    rfl
  · refine elsewhere (by rw [hs]; rfl) ?_
    rw [room_setReady]
    rfl

theorem seat_room {θ : Fin t} {s : Status m} (h : μ.status θ = s) :
    (μ.room e).seat θ = s.seat e := by
  rw [← h]
  rfl

/-- What a thread does at another event is nothing to the room. -/
theorem step_other {θ : Fin t} {f : Fin m} {s : Status m} (x : Monitor t) (hf : f ≠ e)
    (hseat : (μ.room e).seat θ = none) (hs : s.seat e = none) :
    (μ.room e).Step .nothing (((μ.setMonitor f x).setStatus θ s).room e) := by
  refine step_elsewhere hseat ?_
  rw [room_setStatus, room_setMonitor_of_ne _ _ (Ne.symm hf), hs]

theorem acquire_room {θ : Fin t} (h : μ.acquire θ = some ν) :
    (μ.room e).Step (mark e μ ν (.acquire θ)) (ν.room e) := by
  obtain ⟨v, hs, hfree, rfl⟩ := exists_of_acquire h
  obtain ⟨stage, hstage, hseat⟩ : ∃ stage : Stage, (stage = .entering ∨ stage = .woken) ∧
      ∀ f, (μ.room f).seat θ = v.seat f stage := by
    rcases hs with hs | hs
    · exact ⟨.entering, Or.inl rfl, fun f => seat_room hs⟩
    · exact ⟨.woken, Or.inr rfl, fun f => seat_room hs⟩
  by_cases hv : v.event = e
  · subst hv
    have hs : (μ.room v.event).seat θ = some ⟨v.call, v.since, stage⟩ := by
      rw [hseat, Visit.seat, if_pos rfl]
    simp only [mark, hs, room_setStatus, room_setMonitor_self, Status.seat, Visit.seat, if_true]
    exact .entered hs hstage hfree
  · have hs : (μ.room e).seat θ = none := by rw [hseat, Visit.seat, if_neg hv]
    simp only [mark, hs]
    exact step_other _ hv hs (if_neg hv)

/-- After a stay that answered, the thread is leaving. -/
theorem afterWork_answer (v : Visit m) (sinkFails : Bool) (r : Reply) :
    Status.afterWork v sinkFails (.answer r) = .leaving v (r.logged sinkFails) := by
  cases r <;> rfl

/-- A stay leaves a thread at the event at which it was. -/
theorem seat_afterWork_of_ne {v : Visit m} (hv : v.event ≠ e) (sinkFails : Bool) (x : Verdict) :
    (Status.afterWork v sinkFails x).seat e = none := by
  cases x with
  | answer r =>
    rw [afterWork_answer]
    exact if_neg hv
  | announce => exact if_neg hv
  | sleep b => exact if_neg hv

/-- Where a stay leaves a call, with the latch, if the log sink fails or not. -/
inductive Stays (since now : Instant) (l : Latch) (sinkFails : Bool) :
    Call → Latch → Stage → Prop
  /-- A signal is posted. -/
  | posted (hp : l.stats.posts ≠ Counter.last) :
    Stays since now l sinkFails .signal l.posted .announcing
  /-- There is nothing to consume. -/
  | dozed {c : Call} {b : Option Duration} (hu : l.signaled = false)
    (hb : c.bound? since now = some b) : Stays since now l sinkFails c l (.drowsy b)
  /-- The answer is settled, and it is not one of a sink that did otherwise. -/
  | answered {c : Call} {r : Reply} {l' : Latch} (ha : Call.Answers since now l c r l')
    (hr : r ≠ Reply.timedOut.logged (!sinkFails)) : Stays since now l sinkFails c l' (.leaving r)

/-- **A thread that has begun its stay can make it.** -/
theorem work_eq {θ : Fin t} {v : Visit m} (sinkFails : Bool) (hstatus : μ.status θ = .inside v)
    (hb : (μ.monitor v.event).latch.Balanced) :
    ∃ l stage, Stays v.since μ.now (μ.monitor v.event).latch sinkFails v.call l stage ∧
      μ.work θ sinkFails = some ((μ.setMonitor v.event
        { μ.monitor v.event with latch := l }).setStatus θ (stage.status v)) := by
  simp only [work, hstatus, Monitor.recover_grant]
  rcases Call.inside_cases v.since μ.now hb v.call with
    ⟨hc, hp, hi⟩ | ⟨b, hu, hbound, hi⟩ | ⟨r, l, ha, hf, hi⟩ | ⟨ha, hi⟩
  · refine ⟨_, .announcing, by rw [hc]; exact .posted hp, ?_⟩
    rw [hi]
    rfl
  · refine ⟨_, .drowsy b, .dozed hu hbound, ?_⟩
    rw [hi]
    rfl
  · refine ⟨l, .leaving (r.logged sinkFails), .answered (ha sinkFails) ?_, ?_⟩
    · cases r with
      | timedOut => cases sinkFails <;> nofun
      | fault f => exact absurd rfl (hf f)
      | _ => cases sinkFails <;> nofun
    · rw [hi]
      simp only [afterWork_answer]
      rfl
  · refine ⟨_, .leaving (.fault .counterOverflow), .answered ha ?_, ?_⟩
    · cases sinkFails <;> nofun
    · rw [hi]
      rfl

/-- The room after a stay. -/
theorem room_stay (θ : Fin t) (v : Visit m) (l : Latch) (stage : Stage) :
    ((μ.setMonitor v.event { μ.monitor v.event with latch := l }).setStatus θ
      (stage.status v)).room v.event =
        { μ.room v.event with latch := l }.put θ (some ⟨v.call, v.since, stage⟩) := by
  have hseat : (stage.status v).seat v.event = some ⟨v.call, v.since, stage⟩ := by
    cases stage <;> exact if_pos rfl
  rw [room_setStatus, room_setMonitor_self, hseat]
  rfl

/-- A stay at another event is nothing to the room. -/
theorem work_elsewhere {θ : Fin t} {sinkFails : Bool} {v : Visit m}
    (hstatus : μ.status θ = .inside v) (hv : v.event ≠ e) (h : μ.work θ sinkFails = some ν) :
    mark e μ ν (.work θ sinkFails) = .nothing ∧ (μ.room e).Step .nothing (ν.room e) := by
  have hs : (μ.room e).seat θ = none := (seat_room hstatus).trans (if_neg hv)
  simp only [work, hstatus, Monitor.recover_grant] at h
  obtain ⟨s, x, hs', rfl⟩ : ∃ (s : Status m) (x : Monitor t), s.seat e = none ∧
      ν = (μ.setMonitor v.event x).setStatus θ s := by
    split at h
    · cases h
      exact ⟨_, _, seat_afterWork_of_ne hv _ _, rfl⟩
    · cases h
      exact ⟨.leaving v _, _, if_neg hv, rfl⟩
  refine ⟨?_, step_other x hv hs hs'⟩
  simp only [mark, room_setStatus, Room.seat_put_self, hs']

theorem work_room {θ : Fin t} {sinkFails : Bool} (hb : (μ.monitor e).latch.Balanced)
    (h : μ.work θ sinkFails = some ν) :
    (μ.room e).Step (mark e μ ν (.work θ sinkFails)) (ν.room e) := by
  obtain ⟨v, hstatus⟩ := exists_inside_of_work h
  by_cases hv : v.event = e
  · subst hv
    have hseat := seat_room (e := v.event) hstatus
    simp only [Status.seat, Visit.seat, if_true] at hseat
    obtain ⟨l, stage, hstay, hwork⟩ := work_eq sinkFails hstatus hb
    cases hwork.symm.trans h
    simp only [mark, room_stay, Room.seat_put_self]
    generalize v.call = c at hseat hstay
    cases hstay with
    | posted hp => exact .posted hseat hp
    | dozed hu hbound => exact .dozed hseat hu hbound
    | answered ha _ => exact .answered hseat ha
  · obtain ⟨hmark, hstep⟩ := work_elsewhere hstatus hv h
    rw [hmark]
    exact hstep

/-- **A call is decided by a stay of its thread**, and there the log sink did what the
step says. -/
theorem admits_of_mark {a : Action t} (hb : (μ.monitor e).latch.Balanced)
    (h : μ.step p a = some ν) {θ : Fin t} {c : Call} {r : Reply}
    (hx : mark e μ ν a = .decided θ c r) :
    ∃ sinkFails, a = .work θ sinkFails ∧ r ≠ Reply.timedOut.logged (!sinkFails) := by
  cases a with
  | work η sinkFails =>
    obtain ⟨v, hstatus⟩ := exists_inside_of_work h
    by_cases hv : v.event = e
    · subst hv
      obtain ⟨l, stage, hstay, hwork⟩ := work_eq sinkFails hstatus hb
      cases hwork.symm.trans h
      simp only [mark, room_stay, Room.seat_put_self] at hx
      generalize v.call = d at hstay hx
      cases hstay with
      | posted hp =>
        cases hx
        exact ⟨sinkFails, rfl, by cases sinkFails <;> nofun⟩
      | dozed hu hbound => cases hx
      | answered ha hr =>
        cases hx
        exact ⟨sinkFails, rfl, hr⟩
    · rw [(work_elsewhere hstatus hv h).1] at hx
      cases hx
  | tick later => cases hx
  | _ =>
    simp only [mark] at hx
    split at hx <;> cases hx

/-- Who sleeps on an event has a seat there. -/
theorem sleepsOn_iff {η : Fin t} :
    μ.sleepsOn e η = true ↔ ∃ d j b, (μ.room e).seat η = some ⟨d, j, .asleep b⟩ := by
  cases hη : μ.status η <;>
    simp [sleepsOn, room, hη, Status.sleepsOn, Status.seat, Visit.seat]

theorem isAt_iff {η : Fin t} : μ.isAt e η = true ↔ ∃ s, (μ.room e).seat η = some s :=
  Option.isSome_iff_exists

/-- At rest, the seats are those of sleepers. -/
theorem AtRest.asleep (h : μ.AtRest e) {η : Fin t} {s : Seat} (hs : (μ.room e).seat η = some s) :
    ∃ b, s.stage = .asleep b := by
  obtain ⟨d, j, b, hη⟩ := sleepsOn_iff.mp (h η (isAt_iff.mpr ⟨s, hs⟩))
  cases hs.symm.trans hη
  exact ⟨b, rfl⟩

theorem notify_room {θ : Fin t} {sleeper : Option (Fin t)} (h : μ.notify θ sleeper = some ν) :
    (μ.room e).Step (mark e μ ν (.notify θ sleeper)) (ν.room e) := by
  obtain ⟨v, hstatus, ⟨rfl, hn, rfl⟩ | ⟨η, w, b, rfl, hη, hw, rfl⟩⟩ := exists_of_notify h
  · have hseat := seat_room (e := e) hstatus
    by_cases hv : v.event = e
    · subst hv
      simp only [Status.seat, Visit.seat, if_true] at hseat
      simp only [mark, hseat, room_setStatus, Status.seat, Visit.seat, if_true]
      refine .toldNobody hseat fun η d j b hη => ?_
      have hsleeps : μ.sleepsOn v.event η = true := sleepsOn_iff.mpr ⟨d, j, b, hη⟩
      simp only [noSleeper, List.all_eq_true, List.mem_finRange, forall_const] at hn
      simpa [hsleeps] using hn η
    · have hs : (μ.room e).seat θ = none := hseat.trans (if_neg hv)
      simp only [mark, hs]
      refine step_elsewhere hs ?_
      rw [room_setStatus, Status.seat, Visit.seat, if_neg hv]
  · have hseat := seat_room (e := e) hstatus
    have hseat' := seat_room (e := e) hη
    by_cases hv : v.event = e
    · subst hv
      simp only [Status.seat, Visit.seat, hw, if_true] at hseat hseat'
      simp only [mark, hseat, room_setStatus, Status.seat, Visit.seat, hw, if_true]
      exact .told hseat hseat'
    · -- neither of the two threads has a seat in this room
      have hs : (μ.room e).seat θ = none := hseat.trans (if_neg hv)
      have hs' : (μ.room e).seat η = none := hseat'.trans (if_neg (hw ▸ hv))
      simp only [mark, hs]
      refine step_elsewhere hs ?_
      rw [room_setStatus, room_setStatus, Status.seat, Status.seat, Visit.seat, Visit.seat,
        if_neg hv, if_neg (hw ▸ hv), ← hs', Room.put_seat, hs']

theorem leave_room {θ : Fin t} (h : μ.leave p θ = some ν) :
    (μ.room e).Step (mark e μ ν (.leave θ)) (ν.room e) := by
  obtain ⟨v, r, hstatus, rfl⟩ := exists_of_leave h
  have hseat := seat_room (e := e) hstatus
  by_cases hv : v.event = e
  · subst hv
    simp only [Status.seat, Visit.seat, if_true] at hseat
    simp only [mark, hseat, room_setReady, room_setMonitor_self]
    exact .returned hseat
  · have hs : (μ.room e).seat θ = none := hseat.trans (if_neg hv)
    simp only [mark, hs]
    refine step_elsewhere hs ?_
    rw [room_setReady, room_setMonitor_of_ne _ _ (Ne.symm hv)]

theorem sleep_room {θ : Fin t} (h : μ.sleep θ = some ν) :
    (μ.room e).Step (mark e μ ν (.sleep θ)) (ν.room e) := by
  obtain ⟨v, b, hstatus, rfl⟩ := exists_of_sleep h
  have hseat := seat_room (e := e) hstatus
  by_cases hv : v.event = e
  · subst hv
    simp only [Status.seat, Visit.seat, if_true] at hseat
    simp only [mark, hseat, room_setStatus, room_setMonitor_self, Status.seat, Visit.seat,
      if_true]
    exact .slept hseat
  · have hs : (μ.room e).seat θ = none := hseat.trans (if_neg hv)
    simp only [mark, hs]
    exact step_other _ hv hs (if_neg hv)

/-- Whatever wakes a sleeper other than a signal. -/
theorem setStatus_woken_room {θ : Fin t} {v : Visit m} {b : Option Duration}
    (h : μ.status θ = .asleep v b) :
    (μ.room e).Step
      (match (μ.room e).seat θ with
        | some _ => .woke θ
        | none => .nothing)
      ((μ.setStatus θ (.woken v)).room e) := by
  have hseat := seat_room (e := e) h
  by_cases hv : v.event = e
  · subst hv
    simp only [Status.seat, Visit.seat, if_true] at hseat
    simp only [hseat, room_setStatus, Status.seat, Visit.seat, if_true]
    exact .woke hseat
  · have hs : (μ.room e).seat θ = none := hseat.trans (if_neg hv)
    simp only [hs]
    refine step_elsewhere hs ?_
    rw [room_setStatus, Status.seat, Visit.seat, if_neg hv]

theorem wake_room {θ : Fin t} (h : μ.wake θ = some ν) :
    (μ.room e).Step (mark e μ ν (.wake θ)) (ν.room e) := by
  obtain ⟨v, b, hstatus, rfl⟩ := exists_of_wake h
  exact setStatus_woken_room hstatus

theorem expire_room {θ : Fin t} (h : μ.expire θ = some ν) :
    (μ.room e).Step (mark e μ ν (.expire θ)) (ν.room e) := by
  obtain ⟨v, d, hstatus, rfl⟩ := exists_of_expire h
  exact setStatus_woken_room hstatus

theorem tick_room {later : Instant} (h : μ.tick later = some ν) :
    (μ.room e).Step (mark e μ ν (.tick later)) (ν.room e) := by
  obtain ⟨hle, rfl⟩ := exists_of_tick h
  exact .passed hle

/-- **A step of the machine is a step of the room**, with the mark that it leaves
there. -/
theorem step_room {a : Action t} (hb : (μ.monitor e).latch.Balanced)
    (h : μ.step p a = some ν) : (μ.room e).Step (mark e μ ν a) (ν.room e) := by
  cases a with
  | start θ => exact start_room h
  | acquire θ => exact acquire_room h
  | work θ sinkFails => exact work_room hb h
  | notify θ sleeper => exact notify_room h
  | leave θ => exact leave_room h
  | sleep θ => exact sleep_room h
  | wake θ => exact wake_room h
  | expire θ => exact expire_room h
  | tick later => exact tick_room h

/-- **A run of the machine is a row of steps of the room.** -/
theorem trace_of_steps {as : List (Action t)} (hb : (μ.monitor e).latch.Balanced)
    (h : μ.steps p as = some ν) : (μ.room e).Trace (μ.history p e as) (ν.room e) := by
  induction as generalizing μ with
  | nil =>
    cases h
    exact .nil
  | cons a as ih =>
    unfold steps at h
    split at h
    · cases h
    · next κ hκ =>
      have hx := step_room hb hκ
      simp only [history, hκ]
      exact Room.Trace.cons hx (ih (hx.balanced hb) h)

end Machine

end AutoReset.Threads
