import AutoReset.Proofs.Threads.History
import AutoReset.Proofs.Threads.Tally
/-!
# Signals are conserved

Whatever the threads do, and however their calls end, every signal that an event has
received was absorbed, was consumed, or is pending. The counters say so at any time,
and so does every reading of them that a call returns; of two readings, the later has
no lower count.

The counters move when a call is decided, and a call returns later than that. Where
nobody is in a call on the event except to sleep, nothing is owed any more, and the
counters tell how many calls returned, and with what
(`AutoReset.Threads.Machine.conservation`). A call that fails on a full counter has
moved no counter. One that fails in the log sink has counted its timeout, and is counted
as such.
-/

namespace AutoReset.Threads

namespace Room

variable {t : Nat} {R S : Room t} {x : Mark t}

/-- **No counter goes down.** -/
theorem Step.stats_le (h : R.Step x S) (hb : R.latch.Balanced) :
    R.latch.stats ≤ S.latch.stats := by
  cases h with
  | posted hs hp => exact hb.le_posted hp
  | answered hs ha =>
    cases ha with
    | take hc hsig => exact hb.le_taken hsig
    | expire _ _ _ ht => exact Latch.le_expired ht
    | _ => exact Stats.le_refl _
  | _ => exact Stats.le_refl _

theorem Trace.stats_le {h : List (Mark t)} (htr : R.Trace h S) (hb : R.latch.Balanced) :
    R.latch.stats ≤ S.latch.stats := by
  induction htr with
  | nil => exact Stats.le_refl _
  | snoc htr hx ih => exact Stats.le_trans ih (hx.stats_le (htr.balanced hb))

/-- **A reading that is returned is that of the latch.** -/
theorem Step.eq_of_returned {θ : Fin t} {r : Reply} (h : R.Step (.returned θ .stats r) S)
    (ho : R.Orderly) : r = .stats R.latch.stats := by
  cases h with
  | returned hs => exact (ho.fits hs).looked r rfl rfl

/-- At rest nothing is owed. -/
theorem total_due_eq_zero (h : ∀ θ s, R.seat θ = some s → ∃ b, s.stage = .asleep b)
    (f : Call → Bool) (r : Reply) : R.total (Seat.due f r) = 0 := by
  refine Finset.sum_eq_zero fun θ _ => ?_
  rcases hs : R.seat θ with _ | s
  · rfl
  · obtain ⟨b, hb⟩ := h θ s hs
    simp [Seat.due, hb, Stage.answer?]

end Room

namespace Machine

variable {σ : Type} {t m g : Nat} {p : Program σ m g} {μ ν : Machine σ t m g} {e : Fin m}
  {as : List (Action t)}

/-- The machine at the time of a reading: the reading is that of its latch. -/
theorem exists_of_returned_stats (hμ : μ.Initial) (h : μ.steps p as = some ν) {n : Nat}
    {θ : Fin t} {r : Reply} (hn : (μ.history p e as)[n]? = some (.returned θ .stats r)) :
    ∃ κ, μ.steps p (as.take n) = some κ ∧ r = .stats (κ.monitor e).latch.stats := by
  obtain ⟨κ, κ', a, hκ, ha, hx⟩ := exists_step_of_history h hn
  have hstep := step_room (e := e) (hμ.balanced_of_steps hκ e) ha
  rw [← hx] at hstep
  exact ⟨κ, hκ, hstep.eq_of_returned (hμ.orderly hκ e)⟩

/-- No counter goes down from one time of a run to a later one. -/
theorem stats_le_of_take (hμ : μ.Initial) {i j : Nat} (hij : i ≤ j) {κ κ' : Machine σ t m g}
    (hκ : μ.steps p (as.take i) = some κ) (hκ' : μ.steps p (as.take j) = some κ') :
    (κ.monitor e).latch.stats ≤ (κ'.monitor e).latch.stats := by
  have hsplit : as.take j = as.take i ++ (as.take j).drop i := by
    conv_lhs => rw [← List.take_append_drop i (as.take j)]
    rw [List.take_take, Nat.min_eq_left hij]
  rw [hsplit, steps_append_of_steps hκ] at hκ'
  have hb := hμ.balanced_of_steps hκ e
  exact (trace_of_steps hb hκ').stats_le hb

/-- **Signals are conserved.** With the lock free, the signals received are those
absorbed, those consumed and the pending one. Every reading of the counters that is
returned is one in balance, with one signal left where the flag was set and else none;
and no later reading has a lower count. Where all calls sleep, the counters tell how
many calls returned and with what. So at no time have more waits returned with a signal
than signals were received and not absorbed. -/
theorem conservation (hμ : μ.Initial) (h : μ.steps p as = some ν) (e : Fin m) :
    ((ν.monitor e).holder = none → (ν.monitor e).latch.Balanced) ∧
    (∀ (n : Nat) (θ : Fin t) (r : Reply), (μ.history p e as)[n]? = some (.returned θ .stats r) →
      ∃ κ, μ.steps p (as.take n) = some κ ∧ r = .stats (κ.monitor e).latch.stats ∧
        (κ.monitor e).latch.Balanced ∧
        (κ.monitor e).latch.stats.pending =
          .ok (if (κ.monitor e).latch.signaled then 1 else 0)) ∧
    (∀ (i j : Nat) (θ η : Fin t) (s u : Stats), i ≤ j →
      (μ.history p e as)[i]? = some (.returned θ .stats (.stats s)) →
      (μ.history p e as)[j]? = some (.returned η .stats (.stats u)) → s ≤ u) ∧
    (ν.AtRest e →
      (ν.monitor e).latch.stats.posts.toNat =
        (μ.history p e as).countP (Mark.returns (· = .signal) .done) ∧
      (ν.monitor e).latch.stats.consumed.toNat =
        (μ.history p e as).countP (Mark.returns (· = .wait) .done) +
          (μ.history p e as).countP (Mark.returns (· = .tryWait) (.flag true)) +
          (μ.history p e as).countP (Mark.returns Call.isBounded .done) ∧
      (ν.monitor e).latch.stats.timeouts.toNat =
        (μ.history p e as).countP (Mark.returns Call.isBounded .timedOut) +
          (μ.history p e as).countP (Mark.returns Call.isBounded (.fault .sinkFailed))) ∧
    (μ.history p e as).countP (Mark.returns (· = .wait) .done) +
        (μ.history p e as).countP (Mark.returns (· = .tryWait) (.flag true)) +
        (μ.history p e as).countP (Mark.returns Call.isBounded .done) +
        (ν.monitor e).latch.stats.coalesced.toNat ≤
      (ν.monitor e).latch.stats.posts.toNat := by
  have hb := hμ.balanced_of_steps h e
  have htr := trace_of_steps (e := e) (hμ.balanced e) h
  obtain ⟨hposts, hconsumed, htimeouts⟩ := htr.counters (hμ.latch_room e)
  have hdue := htr.decided_eq (hμ.empty e)
  refine ⟨fun _ => hb, fun n θ r hn => ?_, fun i j θ η s u hij hi hj => ?_, fun hrest => ?_, ?_⟩
  · obtain ⟨κ, hκ, hr⟩ := exists_of_returned_stats hμ h hn
    have hb' := hμ.balanced_of_steps hκ e
    exact ⟨κ, hκ, hr, hb', hb'.pending⟩
  · obtain ⟨κ, hκ, hs⟩ := exists_of_returned_stats hμ h hi
    obtain ⟨κ', hκ', hu⟩ := exists_of_returned_stats hμ h hj
    cases hs
    cases hu
    exact stats_le_of_take hμ hij hκ hκ'
  · have hnone := Room.total_due_eq_zero fun θ s hs => hrest.asleep hs
    simp only [hdue, hnone, Nat.add_zero] at hposts hconsumed htimeouts
    exact ⟨hposts, hconsumed, htimeouts⟩
  · -- what has returned was decided, and what was decided was counted
    simp only [hdue] at hconsumed
    have hle : (ν.monitor e).latch.stats.coalesced.toNat +
        (ν.monitor e).latch.stats.consumed.toNat ≤ (ν.monitor e).latch.stats.posts.toNat := by
      unfold Latch.Balanced at hb
      omega
    change (ν.monitor e).latch.stats.consumed.toNat = _ at hconsumed
    omega

/-- One thread waits, and then waits for no time at all; another one signals and reads the
counters. -/
def mixed (e : Fin m) : Machine (Tape m 0) 2 m 0 :=
  ofTapes 0 (.replicate m .fresh)
    [[.call e .wait, .call e (.waitTimeout .zero)],
      [.call e .signal, .call e .stats, .call e .signal, .call e .signal, .call e .stats]]
    .zero

/-- The first signal wakes the sleeper, and is read as pending before it is consumed. The
bounded wait ends in the log sink, and of the last two signals one is absorbed. -/
def mixedRun (θ η : Fin t) : List (Action t) :=
  [.start θ, .acquire θ, .work θ false, .sleep θ,
    .start η, .acquire η, .work η false, .notify η (some θ), .leave η,
    .start η, .acquire η, .work η false, .leave η,
    .acquire θ, .work θ false, .leave θ,
    .start θ, .acquire θ, .work θ true, .leave θ,
    .start η, .acquire η, .work η false, .notify η none, .leave η,
    .start η, .acquire η, .work η false, .notify η none, .leave η,
    .start η, .acquire η, .work η false, .leave η]

/-- Three signals returned, one wait, and one bounded wait ended in the log sink; the second
reading of the counters is no lower than the first. -/
theorem conservation_mixed :
    ∃ ν s u, (mixed (0 : Fin 1)).steps Tape.program (mixedRun 0 1) = some ν ∧ ν.AtRest 0 ∧
      (ν.monitor 0).latch.stats.posts.toNat = 3 ∧
      (ν.monitor 0).latch.stats.consumed.toNat = 1 ∧
      (ν.monitor 0).latch.stats.timeouts.toNat = 1 ∧
      ((mixed (0 : Fin 1)).history Tape.program 0 (mixedRun 0 1))[12]? =
        some (.returned 1 .stats (.stats s)) ∧
      ((mixed (0 : Fin 1)).history Tape.program 0 (mixedRun 0 1))[33]? =
        some (.returned 1 .stats (.stats u)) ∧
      s ≤ u := by
  obtain ⟨ν, hν⟩ : ∃ ν, (mixed (0 : Fin 1)).steps Tape.program (mixedRun 0 1) = some ν :=
    Option.isSome_iff_exists.mp (by decide +kernel)
  have hrest : ν.AtRest 0 :=
    of_decide_eq_true (of_steps (f := fun ν => decide (ν.AtRest 0)) (by decide +kernel) hν)
  obtain ⟨-, -, hreadings, hcounts, -⟩ := conservation (initial_ofTapes ..) hν 0
  obtain ⟨hposts, hconsumed, htimeouts⟩ := hcounts hrest
  have hs : ((mixed (0 : Fin 1)).history Tape.program 0 (mixedRun 0 1))[12]? =
      some (.returned 1 .stats (.stats ⟨1, 0, 0, 0⟩)) := by decide +kernel
  have hu : ((mixed (0 : Fin 1)).history Tape.program 0 (mixedRun 0 1))[33]? =
      some (.returned 1 .stats (.stats ⟨3, 1, 1, 1⟩)) := by decide +kernel
  exact ⟨ν, _, _, hν, hrest, hposts.trans (by decide +kernel), hconsumed.trans (by decide +kernel),
    htimeouts.trans (by decide +kernel), hs, hu, hreadings 12 33 1 1 _ _ (by decide) hs hu⟩

end Machine

end AutoReset.Threads
