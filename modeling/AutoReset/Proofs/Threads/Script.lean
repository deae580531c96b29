import AutoReset.Proofs.Threads.History
import AutoReset.Proofs.Threads.Rounds
/-!
# Scripts: one round after the other

A script makes its calls on an event one at a time, and before each of them it lets the
event come to rest. How the threads go about it is not for the script to say. Still, all
that it can tell is fixed by its calls: the flag and the counters after each of them, how
many calls sleep, how many sleepers a call has let go, and its answer
(`AutoReset.Threads.Machine.script_outcomes`). And it never waits in vain, for an event
always comes to rest.
-/

namespace AutoReset.Threads

open Finset

namespace Machine

variable {σ : Type} {t m g : Nat} {p : Program σ m g} {μ ν κ : Machine σ t m g} {e : Fin m}

/-- How many threads sleep on the event. -/
def blocked (μ : Machine σ t m g) (e : Fin m) : Nat := (univ.filter (μ.sleepsOn e · = true)).card

/-- What a script can tell of an event at rest. -/
def rest (μ : Machine σ t m g) (e : Fin m) : Rest := ⟨(μ.monitor e).latch, μ.blocked e⟩

/-- At rest the sleepers are the calls without an answer. -/
theorem Quiet.total_open (hq : μ.Quiet e) : (μ.room e).total Seat.open = μ.blocked e := by
  rw [blocked, card_filter]
  refine sum_congr rfl fun θ _ => ?_
  rcases hs : (μ.room e).seat θ with _ | ⟨c, i, stage⟩
  · have hnot : ¬ μ.sleepsOn e θ = true := by
      rw [sleepsOn_iff, hs]
      rintro ⟨_, _, _, h⟩
      cases h
    rw [if_neg hnot]
    rfl
  · obtain ⟨⟨b, rfl⟩, -⟩ := hq.asleep hs
    rw [if_pos (sleepsOn_iff.mpr ⟨c, i, b, hs⟩)]
    rfl

/-- Every decision was made by a stay of its thread, and the log sink did there what the
step says. -/
theorem exists_work_of_decided {as : List (Action t)} (hb : (μ.monitor e).latch.Balanced)
    (h : μ.steps p as = some ν) {θ : Fin t} {c : Call} {r : Reply}
    (hx : .decided θ c r ∈ μ.history p e as) :
    ∃ sinkFails, .work θ sinkFails ∈ as ∧ r ≠ Reply.timedOut.logged (!sinkFails) := by
  induction as generalizing μ with
  | nil => cases hx
  | cons a as ih =>
    simp only [steps] at h
    simp only [history] at hx
    cases ha : μ.step p a with
    | none => simp [ha] at h
    | some κ =>
      simp only [ha] at h hx
      rcases List.mem_cons.mp hx with hx | hx
      · obtain ⟨sinkFails, rfl, hr⟩ := admits_of_mark hb ha hx.symm
        exact ⟨sinkFails, List.mem_cons_self, hr⟩
      · obtain ⟨sinkFails, hmem, hr⟩ := ih ((step_room hb ha).balanced hb) h hx
        exact ⟨sinkFails, List.mem_cons_of_mem _ hmem, hr⟩

end Machine

/-! ### Rounds and scripts -/

/-- A round: an errand, who runs it, and what the threads do until the event is at rest
again. -/
structure Round (t : Nat) where
  /-- The call, and what becomes of its time. -/
  errand : Errand
  /-- Who makes it. -/
  caller : Fin t
  /-- What the threads do. -/
  actions : List (Action t)

namespace Round

variable {σ : Type} {t m g : Nat} {p : Program σ m g} {μ ν κ : Machine σ t m g} {e : Fin m}
  {ρ : Round t}

/-- **A round is played** on an event. -/
structure Plays (ρ : Round t) (p : Program σ m g) (e : Fin m) (μ ν : Machine σ t m g) : Prop where
  /-- The threads can do it. -/
  run : μ.steps p ρ.actions = some ν
  /-- First the call is made. -/
  made : (μ.history p e ρ.actions).head? = some (.made ρ.caller ρ.errand.call)
  /-- No other call is made. -/
  alone : ∀ x ∈ (μ.history p e ρ.actions).tail, x.isMade = false
  /-- Of those who slept before, none runs out of time. -/
  early : (μ.room e).Quiet ν.now
  /-- The time of the call runs as the errand says. -/
  bound : ρ.errand.InTime μ.now ν.now
  /-- The log sink does what the errand says. -/
  sink (b : Bool) : ρ.errand.sinkFails? = some b → Action.work ρ.caller (!b) ∉ ρ.actions
  /-- In the end the event is at rest. -/
  quiet : ν.Quiet e

/-- Plays a round, if it can be played. -/
def play? (ρ : Round t) (p : Program σ m g) (e : Fin m) (μ : Machine σ t m g) :
    Option (Machine σ t m g) :=
  match μ.steps p ρ.actions with
  | none => none
  | some ν =>
    if (μ.history p e ρ.actions).head? = some (.made ρ.caller ρ.errand.call) ∧
        (∀ x ∈ (μ.history p e ρ.actions).tail, x.isMade = false) ∧ (μ.room e).Quiet ν.now ∧
        ρ.errand.InTime μ.now ν.now ∧
        (∀ b, ρ.errand.sinkFails? = some b → Action.work ρ.caller (!b) ∉ ρ.actions) ∧ ν.Quiet e
    then some ν else none

theorem plays_of_play? (h : ρ.play? p e μ = some ν) : ρ.Plays p e μ ν := by
  rw [play?] at h
  split at h
  · cases h
  · next κ hκ =>
    split at h
    · next hall =>
      cases h
      obtain ⟨hmade, halone, hearly, hbound, hsink, hquiet⟩ := hall
      exact ⟨hκ, hmade, halone, hearly, hbound, hsink, hquiet⟩
    · cases h

/-- What a script can tell of a round. -/
def outcome (ρ : Round t) (p : Program σ m g) (e : Fin m) (μ ν : Machine σ t m g) : Outcome where
  after := ν.rest e
  released := (μ.history p e ρ.actions).countP (Mark.releases ρ.caller)
  reply := (μ.history p e ρ.actions).findSome? (Mark.replyTo ρ.caller)

/-- **The outcome of a round is that of its errand**, whatever the threads do. -/
theorem Plays.outcome_eq (h : ρ.Plays p e μ ν) (hq : μ.Quiet e) (ho : (μ.room e).Orderly)
    (ha : (μ.room e).Attended) (hb : (μ.monitor e).latch.Balanced) :
    ρ.outcome p e μ ν = ρ.errand.run (μ.rest e) := by
  obtain ⟨q, θ, as⟩ := ρ
  obtain ⟨hrun, hmade, halone, hearly, hbound, hsink, hquiet⟩ := h
  simp only at hrun hmade halone hbound hsink
  cases as with
  | nil => cases hmade
  | cons a as =>
    cases hκ : μ.step p a with
    | none =>
      simp only [Machine.steps, hκ] at hrun
      cases hrun
    | some κ =>
      simp only [Machine.steps, hκ] at hrun
      have hhistory : μ.history p e (a :: as) =
          Machine.mark e μ κ a :: κ.history p e as := by
        simp only [Machine.history, hκ]
      rw [hhistory, List.head?_cons, Option.some.injEq] at hmade
      rw [hhistory, List.tail_cons] at halone
      have hstep := Machine.step_room (e := e) hb hκ
      have hb' := hstep.balanced hb
      have htr := Machine.trace_of_steps (e := e) hb' hrun
      -- the marks of the round are those after the call was made
      have houtcome : (Round.mk q θ (a :: as)).outcome p e μ ν =
          ⟨ν.rest e, (κ.history p e as).countP (Mark.releases θ),
            (κ.history p e as).findSome? (Mark.replyTo θ)⟩ := by
        simp only [outcome, hhistory, hmade]
        rfl
      rw [hmade] at hstep
      obtain ⟨hcast, hphase⟩ := Scene.start (q := q) hearly ha hstep
      have hadmits : ∀ c r, .decided θ c r ∈ κ.history p e as → q.Admits r := by
        intro c r hmem b hb''
        obtain ⟨sinkFails, hwork, hr⟩ := Machine.exists_work_of_decided hb' hrun hmem
        have hsame : sinkFails = b := by
          by_contra hne
          rw [Bool.eq_not_of_ne hne] at hwork
          exact hsink b hb'' (List.mem_cons_of_mem _ hwork)
        rwa [hsame] at hr
      obtain ⟨hcast', hphase'⟩ := hphase.run htr hcast hb (Instant.le_refl _) hbound halone hadmits
      have ha' : (ν.room e).Attended := htr.attended (hstep.orderly ho) (hstep.attended ho ha)
      have hrun' := hphase'.outcome hcast' hquiet ha' hb hbound
      rw [houtcome, Machine.rest, Machine.rest, ← hquiet.total_open, ← hq.total_open]
      exact hrun'

end Round

namespace Machine

variable {σ : Type} {t m g : Nat} {p : Program σ m g} {μ ν κ : Machine σ t m g} {e : Fin m}

/-- **A script is run**: its rounds are played one after the other. -/
inductive Script (p : Program σ m g) (e : Fin m) :
    Machine σ t m g → List (Round t) → List Outcome → Machine σ t m g → Prop
  /-- No round at all. -/
  | nil (μ : Machine σ t m g) : Script p e μ [] [] μ
  /-- One round, and then the others. -/
  | cons {μ κ ν : Machine σ t m g} {ρ : Round t} {ρs : List (Round t)} {xs : List Outcome}
    (h : ρ.Plays p e μ κ) (hs : Script p e κ ρs xs ν) :
    Script p e μ (ρ :: ρs) (ρ.outcome p e μ κ :: xs) ν

/-- Plays rounds one after the other, if they can be played. -/
def playAll? (p : Program σ m g) (e : Fin m) :
    Machine σ t m g → List (Round t) → Option (Machine σ t m g)
  | μ, [] => some μ
  | μ, ρ :: ρs =>
    match ρ.play? p e μ with
    | none => none
    | some κ => playAll? p e κ ρs

theorem exists_script_of_playAll? {ρs : List (Round t)} (h : playAll? p e μ ρs = some ν) :
    ∃ xs, Script p e μ ρs xs ν := by
  induction ρs generalizing μ with
  | nil =>
    cases h
    exact ⟨[], .nil _⟩
  | cons ρ ρs ih =>
    rw [playAll?] at h
    split at h
    · cases h
    · next κ hκ =>
      obtain ⟨xs, hxs⟩ := ih h
      exact ⟨_, .cons (Round.plays_of_play? hκ) hxs⟩

/-- The outcomes of a script are those of its errands. -/
theorem Script.outcomes_eq {ρs : List (Round t)} {xs : List Outcome} (h : Script p e κ ρs xs ν)
    (hμ : μ.Initial) {as : List (Action t)} (has : μ.steps p as = some κ) (hq : κ.Quiet e) :
    xs = Errand.runAll (κ.rest e) (ρs.map Round.errand) := by
  induction h generalizing as with
  | nil κ => rfl
  | @cons κ κ' ν ρ ρs xs h _ ih =>
    have hround := h.outcome_eq hq (hμ.orderly has e) (hμ.attended has e)
      (hμ.balanced_of_steps has e)
    have has' : μ.steps p (as ++ ρ.actions) = some κ' := (steps_append_of_steps has).trans h.run
    have hrest := ih has' h.quiet
    have hafter : κ'.rest e = (ρ.errand.run (κ.rest e)).after := by
      rw [← hround]
      rfl
    rw [List.map_cons, Errand.runAll, ← hround, hrest, hafter, ← hround]

/-- At rest no effort is left. -/
theorem Quiet.effort_eq_zero (hq : κ.Quiet e) :
    (κ.room e).total (Seat.effort fun _ _ => false) = 0 := by
  refine sum_eq_zero fun θ _ => ?_
  rcases hs : (κ.room e).seat θ with _ | ⟨c, i, stage⟩
  · rfl
  · obtain ⟨⟨b, rfl⟩, -⟩ := hq.asleep hs
    rfl

/-- **What a script can tell does not depend on the schedule.** At rest nobody sleeps while
a signal is pending. From rest, the outcomes of a script are those of its errands. An event
comes to rest from everywhere, by no more than that its calls go on; and however they do,
after rest they go on no more than seven times for each call that is made and three times
for each wakeup without a signal. -/
theorem script_outcomes (hμ : μ.Initial) (h : Reaches p μ κ) (e : Fin m) :
    (κ.Quiet e → (κ.monitor e).latch.signaled = true → κ.blocked e = 0) ∧
    (κ.Quiet e → ∀ ρs xs ν, Script p e κ ρs xs ν →
      xs = Errand.runAll (κ.rest e) (ρs.map Round.errand)) ∧
    (∃ as ν, κ.steps p as = some ν ∧ (∀ a ∈ as, a.goesOn = true) ∧ ν.now = κ.now ∧ ν.Quiet e) ∧
    (κ.Quiet e → ∀ as ν, κ.steps p as = some ν →
      (κ.history p e as).countP Mark.isProgress ≤
        7 * (κ.history p e as).countP Mark.isMade + 3 * (κ.history p e as).countP Mark.isWoke) := by
  obtain ⟨as, has⟩ := h
  have ho := hμ.orderly has e
  have hb := hμ.balanced_of_steps has e
  refine ⟨fun hq hsig => ?_, fun hq ρs xs ν hs => hs.outcomes_eq hμ has hq, exists_quiet ho hb,
    fun hq bs ν hbs => ?_⟩
  · have hnone := Room.Quiet.seat_eq_none hq (hμ.attended has e) hsig
    rw [← hq.total_open]
    exact sum_eq_zero fun θ _ => by rw [hnone θ]; rfl
  · have heffort := (trace_of_steps hb hbs).effort ho
    rw [hq.effort_eq_zero] at heffort
    omega

/-- An hour. -/
def hour : Duration := ⟨3600, 0, by decide, Duration.zero.nanos_lt⟩

/-- A wait, a bounded wait with an hour of time, and a thread that signals and then waits for
no time at all. -/
def queue (e : Fin m) : Machine (Tape m 0) 3 m 0 :=
  ofTapes 0 (.replicate m .fresh)
    [[.call e .wait], [.call e (.waitTimeout hour)],
      [.call e .signal, .call e (.waitTimeout .zero)]]
    .zero

/-- The signal wakes the wait; but the bounded wait wakes for no reason, and is first at the
lock. -/
def queueRounds (θ η ζ : Fin t) : List (Round t) :=
  [⟨.wait, θ, [.start θ, .acquire θ, .work θ false, .sleep θ]⟩,
    ⟨.longWait hour, η, [.start η, .acquire η, .work η false, .sleep η]⟩,
    ⟨.signal, ζ,
      [.start ζ, .acquire ζ, .work ζ false, .notify ζ (some θ), .leave ζ, .wake η, .acquire η,
        .work η false, .leave η, .acquire θ, .work θ false, .sleep θ]⟩,
    ⟨.shortWait .zero false, ζ, [.start ζ, .acquire ζ, .work ζ false, .leave ζ]⟩]

/-- Two calls sleep, the signal lets one of them go, and the last call runs out of time. -/
theorem script_outcomes_queue :
    ∃ ν, Script Tape.program 0 (queue (0 : Fin 1)) (queueRounds 0 1 2)
      [⟨⟨.fresh, 1⟩, 0, none⟩, ⟨⟨.fresh, 2⟩, 0, none⟩,
        ⟨⟨⟨false, ⟨1, 0, 1, 0⟩⟩, 1⟩, 1, some .done⟩,
        ⟨⟨⟨false, ⟨1, 0, 1, 1⟩⟩, 1⟩, 0, some .timedOut⟩] ν := by
  obtain ⟨ν, hν⟩ : ∃ ν, playAll? Tape.program 0 (queue (0 : Fin 1)) (queueRounds 0 1 2) = some ν :=
    Option.isSome_iff_exists.mp (by decide +kernel)
  obtain ⟨xs, hxs⟩ := exists_script_of_playAll? hν
  have hinitial : (queue (0 : Fin 1)).Initial := initial_ofTapes ..
  have houtcomes := (script_outcomes hinitial ⟨[], rfl⟩ 0).2.1 (by decide +kernel) _ _ _ hxs
  have hvalue : Errand.runAll ((queue (0 : Fin 1)).rest 0) ((queueRounds (0 : Fin 3) 1 2).map Round.errand) =
      [⟨⟨.fresh, 1⟩, 0, none⟩, ⟨⟨.fresh, 2⟩, 0, none⟩,
        ⟨⟨⟨false, ⟨1, 0, 1, 0⟩⟩, 1⟩, 1, some .done⟩,
        ⟨⟨⟨false, ⟨1, 0, 1, 1⟩⟩, 1⟩, 0, some .timedOut⟩] := by decide +kernel
  rw [houtcomes, hvalue] at hxs
  exact ⟨ν, hxs⟩

end Machine

end AutoReset.Threads
