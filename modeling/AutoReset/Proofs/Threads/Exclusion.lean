import AutoReset.Proofs.Threads.Room
import AutoReset.Threads.Tape
/-!
# Who holds the lock, and who may sleep

In a room that started empty the lock is held by exactly the thread whose call has
got to a stage inside the lock; so there is never more than one such thread. Only
waits sleep, and only signals announce. What a thread has seen of the latch in its stay
is still so while it holds the lock: a thread that is about to sleep has found the slot
empty, and it is empty; counters that are about to be returned are those of the latch.

`AutoReset.Threads.Room.Orderly` puts these facts together, and every step of a room
keeps them.
-/

namespace AutoReset.Threads

/-- Does a call at this stage hold the lock? -/
def Stage.holds : Stage → Bool
  | inside | announcing | leaving _ | drowsy _ => true
  | entering | asleep _ | woken => false

/-- Is a call at this stage one that found nothing to consume? -/
def Stage.dozes : Stage → Bool
  | drowsy _ | asleep _ | woken => true
  | _ => false

/-- For how long a call sleeps at this stage; none if it does not. -/
def Stage.bound? : Stage → Option (Option Duration)
  | drowsy b | asleep b => some b
  | _ => none

/-- **A seat is in order** beside a latch and the holder of the lock. -/
structure Seat.Fits {t : Nat} (θ : Fin t) (l : Latch) (o : Option (Fin t)) (s : Seat) : Prop where
  /-- Who is at a stage inside the lock holds it, and nobody else does. -/
  holds : s.stage.holds = true ↔ o = some θ
  /-- Only waits find nothing to consume and go on. -/
  waits : s.stage.dozes = true → s.call.waits = true
  /-- Only signals announce. -/
  announces : s.stage = .announcing → s.call = .signal
  /-- Whoever is about to sleep has left the slot empty. -/
  unset (b : Option Duration) : s.stage = .drowsy b → l.signaled = false
  /-- Counters that are about to be returned are those of the latch. -/
  looked (r : Reply) : s.call = .stats → s.stage = .leaving r → r = .stats l.stats
  /-- Bounded waits sleep with a bound, and the others without. -/
  bounded (b : Option Duration) : s.stage.bound? = some b → b.isSome = s.call.isBounded

/-- Counters that a stay answers with are those of the latch that it leaves. -/
theorem looked_of_answers {since now : Instant} {l l' : Latch} {r : Reply}
    (h : Call.Answers since now l .stats r l') : r = .stats l'.stats := by
  cases h with
  | take hc _ => cases hc
  | look hc =>
    cases hc
    rfl

namespace Room

variable {t : Nat} {R S : Room t} {x : Mark t}

/-- Who has a seat after one seat was given away. -/
theorem seat_put_eq_some {θ η : Fin t} {x : Option Seat} {s : Seat}
    (h : (R.put θ x).seat η = some s) : (η = θ ∧ x = some s) ∨ (η ≠ θ ∧ R.seat η = some s) := by
  by_cases hη : η = θ
  · subst hη
    exact Or.inl ⟨rfl, by rwa [seat_put_self] at h⟩
  · exact Or.inr ⟨hη, by rwa [seat_put_of_ne _ _ hη] at h⟩

/-- **The lock and the sleepers are in order.** -/
structure Orderly (R : Room t) : Prop where
  /-- Every seat is in order. -/
  fits {θ : Fin t} {s : Seat} : R.seat θ = some s → s.Fits θ R.latch R.holder
  /-- Who holds the lock has a seat. -/
  seated {θ : Fin t} : R.holder = some θ → ∃ s, R.seat θ = some s

/-- A room in which nobody is. -/
structure Empty (R : Room t) : Prop where
  /-- Nobody has a seat. -/
  seat (θ : Fin t) : R.seat θ = none
  /-- Nobody holds the lock. -/
  holder : R.holder = none

theorem Empty.orderly (h : R.Empty) : R.Orderly where
  fits hs := by
    rw [h.seat] at hs
    cases hs
  seated hs := by
    rw [h.holder] at hs
    cases hs

namespace Orderly

/-- Two threads inside the lock are one. -/
theorem eq_of_holds (h : R.Orderly) {θ η : Fin t} {s u : Seat} (hs : R.seat θ = some s)
    (hu : R.seat η = some u) (hθ : s.stage.holds = true) (hη : u.stage.holds = true) :
    θ = η := by
  have h₁ := (h.fits hs).holds.mp hθ
  have h₂ := (h.fits hu).holds.mp hη
  exact Option.some.inj (h₁.symm.trans h₂)

/-- **One thread takes another seat**: what has to be seen to is that the new seat is in
order, that the lock is neither given to nor taken from anybody else, and that the latch
changes only in the hands of that thread. -/
theorem put (h : R.Orderly) {θ : Fin t} {x : Option Seat} {l : Latch} {o : Option (Fin t)}
    {b : Bool} (hx : ∀ s, x = some s → s.Fits θ l o) (hθ : o = some θ → ∃ s, x = some s)
    (ho : ∀ η, η ≠ θ → (R.holder = some η ↔ o = some η)) (hl : l = R.latch ∨ R.holder = some θ) :
    Orderly ({ R with latch := l, holder := o, poisoned := b }.put θ x) where
  fits {η u} hu := by
    rcases seat_put_eq_some hu with ⟨rfl, rfl⟩ | ⟨hne, hu⟩
    · exact hx u rfl
    · have hfit := h.fits hu
      -- where the latch changes, the lock is with the one thread, and no other is inside
      have hsame : u.stage.holds = true → l = R.latch := by
        intro hh
        rcases hl with rfl | hl
        · rfl
        · exact absurd (Option.some.inj ((hfit.holds.mp hh).symm.trans hl)) hne
      refine ⟨hfit.holds.trans (ho η hne), hfit.waits, hfit.announces, fun bound hb => ?_,
        fun r hc hr => ?_, hfit.bounded⟩
      · rw [hsame (by rw [hb]; rfl)]
        exact hfit.unset bound hb
      · rw [hsame (by rw [hr]; rfl)]
        exact hfit.looked r hc hr
  seated {η} hη := by
    by_cases hne : η = θ
    · subst hne
      obtain ⟨s, rfl⟩ := hθ hη
      exact ⟨s, seat_put_self ..⟩
    · obtain ⟨s, hs⟩ := h.seated ((ho η hne).mpr hη)
      exact ⟨s, by rw [seat_put_of_ne _ _ hne]; exact hs⟩

end Orderly

/-- **Every step keeps the room in order.** -/
theorem Step.orderly (h : R.Step x S) (ho : R.Orderly) : S.Orderly := by
  cases h with
  | made θ c free =>
    refine ho.put (b := R.poisoned) ?_ ?_ (fun η hη => Iff.rfl) (Or.inl rfl)
    · rintro s ⟨⟩
      refine ⟨⟨nofun, fun hh => ?_⟩, nofun, nofun, nofun, nofun, nofun⟩
      obtain ⟨s, hs⟩ := ho.seated hh
      rw [free] at hs
      cases hs
    · exact fun _ => ⟨_, rfl⟩
  | @entered θ c i stage hs hstage free =>
    have hfit := ho.fits hs
    refine ho.put (b := R.poisoned) ?_ (fun _ => ⟨_, rfl⟩) ?_ (Or.inl rfl)
    · rintro s ⟨⟩
      exact ⟨⟨fun _ => rfl, fun _ => rfl⟩, nofun, nofun, nofun, nofun, nofun⟩
    · intro η hη
      rw [free]
      exact ⟨nofun, fun hh => absurd (Option.some.inj hh).symm hη⟩
  | posted hs hp =>
    have hfit := ho.fits hs
    have hold := hfit.holds.mp rfl
    refine ho.put (b := R.poisoned) ?_ (fun _ => ⟨_, rfl⟩) (fun η hη => Iff.rfl) (Or.inr hold)
    rintro s ⟨⟩
    exact ⟨⟨fun _ => hold, fun _ => rfl⟩, nofun, fun _ => rfl, nofun, nofun, nofun⟩
  | answered hs ha =>
    have hold := (ho.fits hs).holds.mp rfl
    refine ho.put (b := R.poisoned) ?_ (fun _ => ⟨_, rfl⟩) (fun η hη => Iff.rfl) (Or.inr hold)
    rintro s ⟨⟩
    refine ⟨⟨fun _ => hold, fun _ => rfl⟩, nofun, nofun, nofun, ?_, nofun⟩
    rintro r rfl ⟨⟩
    exact looked_of_answers ha
  | dozed hs hu hb =>
    have hold := (ho.fits hs).holds.mp rfl
    refine ho.put (b := R.poisoned) ?_ (fun _ => ⟨_, rfl⟩) (fun η hη => Iff.rfl) (Or.inl rfl)
    rintro s ⟨⟩
    refine ⟨⟨fun _ => hold, fun _ => rfl⟩, fun _ => Call.waits_of_bound? hb, nofun, fun _ _ => hu,
      nofun, ?_⟩
    rintro b' ⟨⟩
    exact Call.isSome_of_bound? hb
  | @told θ η c d i j b hs hη =>
    have hold := (ho.fits hs).holds.mp rfl
    have hfit := ho.fits hη
    have hwoken : (R.put η (some ⟨d, j, .woken⟩)).Orderly := by
      refine ho.put (b := R.poisoned) ?_ (fun _ => ⟨_, rfl⟩) (fun η hη => Iff.rfl) (Or.inl rfl)
      rintro s ⟨⟩
      exact ⟨hfit.holds, fun _ => hfit.waits rfl, nofun, nofun, nofun, nofun⟩
    refine hwoken.put (b := R.poisoned) ?_ (fun _ => ⟨_, rfl⟩) (fun η hη => Iff.rfl) (Or.inl rfl)
    rintro s ⟨⟩
    refine ⟨⟨fun _ => hold, fun _ => rfl⟩, nofun, nofun, nofun, ?_, nofun⟩
    rintro r rfl -
    cases (ho.fits hs).announces rfl
  | toldNobody hs hn =>
    have hold := (ho.fits hs).holds.mp rfl
    refine ho.put (b := R.poisoned) ?_ (fun _ => ⟨_, rfl⟩) (fun η hη => Iff.rfl) (Or.inl rfl)
    rintro s ⟨⟩
    refine ⟨⟨fun _ => hold, fun _ => rfl⟩, nofun, nofun, nofun, ?_, nofun⟩
    rintro r rfl -
    cases (ho.fits hs).announces rfl
  | @returned θ c i r hs =>
    have hold := (ho.fits hs).holds.mp rfl
    -- nobody else held the lock, and now nobody holds it
    have hleft : ∀ η, η ≠ θ → (R.holder = some η ↔ none = some η) := by
      intro η hη
      rw [hold]
      exact ⟨fun hh => absurd (Option.some.inj hh).symm hη, nofun⟩
    exact ho.put (x := none) (by simp) (by simp) hleft (Or.inl rfl)
  | @slept θ c i b hs =>
    have hfit := ho.fits hs
    have hold := hfit.holds.mp rfl
    refine ho.put (b := R.poisoned) ?_ nofun (fun η hη => ?_) (Or.inl rfl)
    · rintro s ⟨⟩
      exact ⟨⟨nofun, nofun⟩, fun _ => hfit.waits rfl, nofun, nofun, nofun, hfit.bounded⟩
    · rw [hold]
      exact ⟨fun hh => absurd (Option.some.inj hh).symm hη, nofun⟩
  | woke hs =>
    have hfit := ho.fits hs
    refine ho.put (b := R.poisoned) ?_ (fun _ => ⟨_, rfl⟩) (fun η hη => Iff.rfl) (Or.inl rfl)
    rintro s ⟨⟩
    exact ⟨hfit.holds, fun _ => hfit.waits rfl, nofun, nofun, nofun, nofun⟩
  | passed hle => exact ⟨ho.fits, ho.seated⟩

theorem Trace.orderly {h : List (Mark t)} (htr : R.Trace h S) (ho : R.Orderly) : S.Orderly := by
  induction htr with
  | nil => exact ho
  | snoc _ hx ih => exact hx.orderly ih

theorem Trace.balanced {h : List (Mark t)} (htr : R.Trace h S) (hb : R.latch.Balanced) :
    S.latch.Balanced := by
  induction htr with
  | nil => exact hb
  | snoc _ hx ih => exact hx.balanced ih

end Room

/-! ### Machines at their beginning -/

namespace Machine

variable {σ : Type} {t m g : Nat} {p : Program σ m g} {μ ν : Machine σ t m g}

/-- **The beginning**: every thread is between two requests, and every event is new. -/
structure Initial (μ : Machine σ t m g) : Prop where
  /-- No thread is in a call. -/
  ready (θ : Fin t) : μ.status θ = .ready
  /-- No event was ever used. -/
  fresh (e : Fin m) : μ.monitor e = {}

theorem Initial.empty (h : μ.Initial) (e : Fin m) : (μ.room e).Empty where
  seat θ := by simp [room, h.ready, Status.seat]
  holder := by simp [room, h.fresh]

theorem Initial.latch_room (h : μ.Initial) (e : Fin m) : (μ.room e).latch = .fresh := by
  show (μ.monitor e).latch = .fresh
  rw [h.fresh]

theorem Initial.balanced (h : μ.Initial) (e : Fin m) : (μ.monitor e).latch.Balanced := by
  rw [h.fresh]
  exact Latch.balanced_fresh

/-- Every room that is reached from the beginning is in order. -/
theorem Initial.orderly {as : List (Action t)} (h : μ.Initial) (hs : μ.steps p as = some ν)
    (e : Fin m) : (ν.room e).Orderly :=
  (trace_of_steps (h.balanced e) hs).orderly (h.empty e).orderly

/-- Every latch that is reached from the beginning is in balance. -/
theorem Initial.balanced_of_steps {as : List (Action t)} (h : μ.Initial)
    (hs : μ.steps p as = some ν) (e : Fin m) : (ν.monitor e).latch.Balanced :=
  (trace_of_steps (h.balanced e) hs).balanced (h.balanced e)

/-- Tapes on new events are at their beginning. -/
theorem initial_ofTapes (tapes : List (List (Request m g))) (now : Instant) :
    (ofTapes g (.replicate m .fresh) tapes now).Initial where
  ready θ := by simp [status, thread, ofTapes]
  fresh e := by simp [monitor, ofTapes]

/-- What a test says of the end of a run, once the run is carried out. -/
theorem of_steps {as : List (Action t)} {f : Machine σ t m g → Bool}
    (h : (μ.steps p as).all f = true) (hν : μ.steps p as = some ν) : f ν = true := by
  rw [hν] at h
  exact h

end Machine

end AutoReset.Threads
