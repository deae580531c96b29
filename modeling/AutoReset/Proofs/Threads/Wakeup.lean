import AutoReset.Proofs.Threads.Exclusion
/-!
# No signal is slept through

Where a signal is pending and somebody sleeps, somebody must be on the way to
consume it. A woken sleeper is on the way, and it stays so while it gets the lock and
begins its stay; a thread that still has to announce a signal is on the way as well,
for it is about to wake a sleeper. `AutoReset.Threads.Room.Attended` says that there
is always one of these.

The dangerous steps are those that end being on the way. A stay of a wait ends it,
but leaves the slot empty: it consumes the signal, or there was none. An announcement
ends it, but wakes a sleeper, unless nobody sleeps. And no step but the fall of a
drowsy thread adds a sleeper; that one found the slot empty and has held the lock
since then (`AutoReset.Threads.Seat.Fits`).

Once the lock is free only woken sleepers are left of those on the way, which is
`AutoReset.Threads.Machine.no_lost_wakeup`.
-/

namespace AutoReset.Threads

/-- Is a call on the way to see to a pending signal? -/
def Seat.attends (s : Seat) : Bool :=
  match s.stage with
  | .woken | .announcing => true
  | .inside => s.call.waits
  | _ => false

/-- A call that answers and leaves a signal pending found it pending, and is no wait. -/
theorem signaled_of_answers {since now : Instant} {l l' : Latch} {c : Call} {r : Reply}
    (h : Call.Answers since now l c r l') (hs : l'.signaled = true) :
    l.signaled = true ∧ c.waits = false := by
  cases h with
  | overflow _ => exact ⟨hs, rfl⟩
  | take _ _ => cases hs
  | miss hu => rw [hu] at hs; cases hs
  | expire _ hu _ _ => rw [Latch.signaled_expired, hu] at hs; cases hs
  | expireOverflow hu _ _ => rw [hu] at hs; cases hs
  | look hc => exact ⟨hs, by cases c <;> first | rfl | cases hc⟩

namespace Room

variable {t : Nat} {R S : Room t} {x : Mark t}

/-- Does a thread sleep? -/
def Sleeps (R : Room t) (θ : Fin t) : Prop :=
  ∃ c i b, R.seat θ = some ⟨c, i, .asleep b⟩

/-- **A pending signal that somebody sleeps through is seen to.** -/
def Attended (R : Room t) : Prop :=
  R.latch.signaled = true → (∃ θ, R.Sleeps θ) →
    ∃ η s, R.seat η = some s ∧ s.attends = true

theorem Empty.attended (h : R.Empty) : R.Attended := by
  rintro - ⟨θ, c, i, b, hs⟩
  rw [h.seat] at hs
  cases hs

/-- Who sleeps after one seat was given away slept before, if that seat is not one of a
sleeper. -/
theorem Sleeps.of_put {θ η : Fin t} {u : Option Seat}
    (hu : ∀ c i b, u ≠ some ⟨c, i, .asleep b⟩) (h : (R.put θ u).Sleeps η) : R.Sleeps η := by
  obtain ⟨c, i, b, hs⟩ := h
  rcases seat_put_eq_some hs with ⟨-, he⟩ | ⟨-, hs⟩
  · exact absurd he (hu c i b)
  · exact ⟨c, i, b, hs⟩

/-- **What one thread does leaves the others on the way**: if it was not on the way itself,
and falls not asleep, then the room is seen to as before. -/
theorem Attended.put (h : R.Attended) {θ : Fin t} {u : Option Seat} {l : Latch}
    {o : Option (Fin t)} {b : Bool} (hl : l.signaled = true → R.latch.signaled = true)
    (hθ : ∀ s, R.seat θ = some s → s.attends = false)
    (hu : ∀ c i b, u ≠ some ⟨c, i, .asleep b⟩) :
    Attended ({ R with latch := l, holder := o, poisoned := b }.put θ u) := by
  rintro hs ⟨η, hη⟩
  obtain ⟨ζ, s, hζ, ha⟩ := h (hl hs) ⟨η, Sleeps.of_put hu hη⟩
  have hne : ζ ≠ θ := by
    rintro rfl
    rw [hθ s hζ] at ha
    cases ha
  exact ⟨ζ, s, by rwa [seat_put_of_ne _ _ hne], ha⟩

/-- A room is seen to by a thread that has just got on its way. -/
theorem attended_put_self {θ : Fin t} {s : Seat} (h : s.attends = true) :
    (R.put θ (some s)).Attended :=
  fun _ _ => ⟨θ, s, seat_put_self .., h⟩

/-- **Every step leaves a pending signal seen to.** -/
theorem Step.attended (h : R.Step x S) (ho : R.Orderly) (ha : R.Attended) : S.Attended := by
  cases h with
  | made θ c free =>
    refine ha.put (b := R.poisoned) id (fun s hs => ?_) (by simp)
    rw [free] at hs
    cases hs
  | @entered θ c i stage hs hstage free =>
    rcases hstage with rfl | rfl
    · refine ha.put (b := R.poisoned) id (fun s hs' => ?_) (by simp)
      cases hs.symm.trans hs'
      rfl
    · -- the woken sleeper is still on the way, now inside
      exact attended_put_self ((ho.fits hs).waits rfl)
  | posted hs hp => exact attended_put_self rfl
  | @answered θ c i r l hs hans =>
    by_cases hl : l.signaled = true
    · obtain ⟨hsig, hc⟩ := signaled_of_answers hans hl
      refine ha.put (b := R.poisoned) (fun _ => hsig) (fun s hs' => ?_) (by simp)
      cases hs.symm.trans hs'
      exact hc
    · exact fun hsig => absurd hsig hl
  | dozed hs hu hb =>
    intro hsig
    exact absurd (hu.symm.trans hsig) (by simp)
  | @told θ η c d i j b hs hη =>
    have hne : η ≠ θ := by
      rintro rfl
      cases hs.symm.trans hη
    refine fun _ _ => ⟨η, ⟨d, j, .woken⟩, ?_, rfl⟩
    rw [seat_put_of_ne _ _ hne, seat_put_self]
  | @toldNobody θ c i hs hn =>
    -- a signal is announced to nobody only where nobody sleeps
    rintro - ⟨η, hη⟩
    obtain ⟨d, j, b, hη⟩ := Sleeps.of_put (by simp) hη
    exact absurd hη (hn η d j b)
  | returned hs =>
    refine ha.put id (fun s hs' => ?_) (by simp)
    cases hs.symm.trans hs'
    rfl
  | slept hs =>
    intro hsig
    exact absurd (((ho.fits hs).unset _ rfl).symm.trans hsig) (by simp)
  | woke hs => exact attended_put_self rfl
  | passed hle => exact ha

theorem Trace.attended {h : List (Mark t)} (htr : R.Trace h S) (ho : R.Orderly)
    (ha : R.Attended) : S.Attended := by
  induction htr with
  | nil => exact ha
  | snoc htr hx ih => exact hx.attended (htr.orderly ho) ih

/-- **With the lock free, a pending signal that somebody sleeps through has woken
somebody.** -/
theorem Attended.exists_woken (ha : R.Attended) (ho : R.Orderly) (hfree : R.holder = none)
    (hs : R.latch.signaled = true) (hsleeps : ∃ θ, R.Sleeps θ) :
    ∃ η c i, R.seat η = some ⟨c, i, .woken⟩ ∧ c.waits = true := by
  obtain ⟨η, ⟨c, i, stage⟩, hη, hat⟩ := ha hs hsleeps
  have hout : stage.holds ≠ true := by
    intro hh
    have hhold := (ho.fits hη).holds.mp hh
    rw [hfree] at hhold
    cases hhold
  cases stage with
  | woken => exact ⟨η, c, i, hη, (ho.fits hη).waits rfl⟩
  | _ => first | exact absurd rfl hout | cases hat

end Room

/-! ### Machines -/

namespace Machine

variable {σ : Type} {t m g : Nat} {p : Program σ m g} {μ ν : Machine σ t m g} {e : Fin m}

theorem sleeps_room_iff {θ : Fin t} : (μ.room e).Sleeps θ ↔ μ.sleepsOn e θ = true :=
  sleepsOn_iff.symm

/-- **A woken wait that gets the lock next consumes the pending signal.** -/
theorem steps_of_woken {η : Fin t} {v : Visit m} (hη : μ.status η = .woken v)
    (hv : v.call.waits = true) (hfree : (μ.monitor v.event).holder = none)
    (hb : (μ.monitor v.event).latch.Balanced)
    (hs : (μ.monitor v.event).latch.signaled = true) :
    ∃ κ, μ.steps p [.acquire η, .work η false] = some κ ∧ κ.status η = .leaving v .done ∧
      (κ.monitor v.event).latch = (μ.monitor v.event).latch.taken := by
  have hi : v.call.inside v.since μ.now (μ.monitor v.event).latch =
      .ok (.answer .done) (μ.monitor v.event).latch.taken := by
    cases hc : v.call with
    | wait => rw [Call.inside_wait _ _ hb, if_pos hs]
    | waitTimeout d => rw [Call.inside_waitTimeout _ _ hb, if_pos hs]
    | _ => rw [hc] at hv; cases hv
  have hacquire : μ.acquire η =
      some ((μ.setMonitor v.event { μ.monitor v.event with holder := some η }).setStatus η
        (.inside v)) := by
    simp only [acquire, hη, if_pos hfree]
  have hnow : ((μ.setMonitor v.event { μ.monitor v.event with holder := some η }).setStatus η
      (.inside v)).now = μ.now := rfl
  simp only [steps, step, hacquire, work, status, thread_setStatus_self, monitor_setStatus,
    monitor_setMonitor_self, Monitor.recover_grant, hnow, hi]
  exact ⟨_, rfl, by simp [Status.afterWork], by simp⟩

/-- Every pending signal that is reached from the beginning is seen to. -/
theorem Initial.attended {as : List (Action t)} (hμ : μ.Initial) (h : μ.steps p as = some ν)
    (e : Fin m) : (ν.room e).Attended :=
  (trace_of_steps (hμ.balanced e) h).attended (hμ.empty e).orderly (hμ.empty e).attended

/-- **No signal is slept through.** With the lock free, a signal pending and a thread
asleep, a wait was woken, and if it gets the lock next it consumes the signal. So where
there are calls, and all of them sleep, nothing is pending. -/
theorem no_lost_wakeup (hμ : μ.Initial) (h : Reaches p μ ν) (e : Fin m) :
    ((ν.monitor e).holder = none → (ν.monitor e).latch.signaled = true →
      (∃ θ, ν.sleepsOn e θ = true) →
      ∃ η v, ν.status η = .woken v ∧ v.event = e ∧ v.call.waits = true ∧
        ∃ κ, ν.steps p [.acquire η, .work η false] = some κ ∧ κ.status η = .leaving v .done ∧
          (κ.monitor e).latch = (ν.monitor e).latch.taken) ∧
    ((∃ θ, ν.isAt e θ = true) → ν.AtRest e → (ν.monitor e).latch.signaled = false) := by
  obtain ⟨as, hs⟩ := h
  have ho := hμ.orderly hs e
  have hb := hμ.balanced_of_steps hs e
  have ha := hμ.attended hs e
  have hwoken : (ν.monitor e).holder = none → (ν.monitor e).latch.signaled = true →
      (∃ θ, ν.sleepsOn e θ = true) →
      ∃ η c i, (ν.room e).seat η = some ⟨c, i, .woken⟩ ∧ c.waits = true := by
    rintro hfree hsig ⟨θ, hθ⟩
    exact ha.exists_woken ho hfree hsig ⟨θ, sleeps_room_iff.mpr hθ⟩
  constructor
  · intro hfree hsig hsleeps
    obtain ⟨η, c, i, hη, hc⟩ := hwoken hfree hsig hsleeps
    have hstatus := Status.eq_of_seat hη
    exact ⟨η, ⟨e, c, i⟩, hstatus, rfl, hc, steps_of_woken hstatus hc hfree hb hsig⟩
  · rintro ⟨θ, hθ⟩ hrest
    by_contra hsig
    -- the lock is free, for whoever holds it is in a call and awake
    have hfree : (ν.monitor e).holder = none := by
      by_contra hheld
      obtain ⟨η, hη⟩ := Option.ne_none_iff_exists'.mp hheld
      obtain ⟨s, hs⟩ := ho.seated hη
      obtain ⟨b, hb⟩ := hrest.asleep hs
      have hholds := (ho.fits hs).holds.mpr hη
      rw [hb] at hholds
      cases hholds
    obtain ⟨η, c, i, hη, -⟩ := hwoken hfree (by simpa using hsig) ⟨θ, hrest θ hθ⟩
    obtain ⟨b, hb⟩ := hrest.asleep hη
    cases hb

/-- Two threads wait, and a third one signals. -/
def twoWaits (e : Fin m) : Machine (Tape m 0) 3 m 0 :=
  ofTapes 0 (.replicate m .fresh) [[.call e .wait], [.call e .wait], [.call e .signal]] .zero

/-- The waits fall asleep one after the other, and then the second one is woken. -/
def twoWaitsRun (θ η ζ : Fin t) : List (Action t) :=
  [.start θ, .acquire θ, .work θ false, .sleep θ, .start η, .acquire η, .work η false, .sleep η,
    .start ζ, .acquire ζ, .work ζ false, .notify ζ (some η), .leave ζ]

/-- The sleeper that was not woken does not sleep through the signal, for the other one is
on the way; before the signal both slept, and nothing was pending. -/
theorem no_lost_wakeup_twoWaits :
    ∃ κ ν, (twoWaits (0 : Fin 1)).steps Tape.program ((twoWaitsRun 0 1 2).take 8) = some κ ∧
      (κ.monitor 0).latch.signaled = false ∧
      (twoWaits (0 : Fin 1)).steps Tape.program (twoWaitsRun 0 1 2) = some ν ∧
      (ν.monitor 0).latch.signaled = true ∧ ν.sleepsOn 0 0 = true ∧
      ∃ η v, ν.status η = .woken v ∧ v.event = 0 ∧ v.call.waits = true ∧
        ∃ κ, ν.steps Tape.program [.acquire η, .work η false] = some κ ∧
          κ.status η = .leaving v .done ∧
          (κ.monitor 0).latch = (ν.monitor 0).latch.taken := by
  obtain ⟨κ, hκ⟩ : ∃ κ,
      (twoWaits (0 : Fin 1)).steps Tape.program ((twoWaitsRun 0 1 2).take 8) = some κ :=
    Option.isSome_iff_exists.mp (by decide +kernel)
  obtain ⟨ν, hν⟩ : ∃ ν, (twoWaits (0 : Fin 1)).steps Tape.program (twoWaitsRun 0 1 2) = some ν :=
    Option.isSome_iff_exists.mp (by decide +kernel)
  have hasleep := of_steps (f := fun κ => κ.isAt 0 0 && (List.finRange 3).all fun θ =>
    !κ.isAt 0 θ || κ.sleepsOn 0 θ) (by decide +kernel) hκ
  have hpending := of_steps (f := fun ν => (ν.monitor 0).holder = none &&
    (ν.monitor 0).latch.signaled && ν.sleepsOn 0 0) (by decide +kernel) hν
  simp only [Bool.and_eq_true, decide_eq_true_eq, List.all_eq_true, List.mem_finRange,
    forall_const, Bool.or_eq_true, Bool.not_eq_true'] at hasleep hpending
  obtain ⟨⟨hfree, hsig⟩, hsleeps⟩ := hpending
  refine ⟨κ, ν, hκ, ?_, hν, hsig, hsleeps, ?_⟩
  · refine (no_lost_wakeup (initial_ofTapes ..) ⟨_, hκ⟩ 0).2 ⟨0, hasleep.1⟩ fun θ hθ => ?_
    rcases hasleep.2 θ with hn | hn
    · rw [hθ] at hn
      cases hn
    · exact hn
  · exact (no_lost_wakeup (initial_ofTapes ..) ⟨_, hν⟩ 0).1 hfree hsig ⟨0, hsleeps⟩

end Machine

end AutoReset.Threads
