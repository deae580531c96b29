import AutoReset.Proofs.Event.Trial
import AutoReset.Proofs.Threads.Parks
import AutoReset.Proofs.Threads.Script
/-!
# A bounded wait is a trial, unless a signal comes

A bounded wait with no time at all never sleeps: it gets the lock once, and its only stay settles
the answer (`AutoReset.Threads.Machine.brief`).

And in a script any bounded wait that returns before the script goes on might as well have been an
attempt to consume a signal. Whatever the threads do in the script and in the one with the
attempts, the events at rest are the same after every round but for the counter of timeouts, and so
are the answers (`AutoReset.Threads.Machine.bounded_wait_is_trial`).
-/

namespace AutoReset.Threads

/-! ### No time at all -/

namespace Episode

variable {t : Nat} {x : Episode t}

/-- How often does the call get the lock? -/
def entries (x : Episode t) : List (Action t) → Nat :=
  countPlaces fun bs a => x.isOpenAt bs.length && a = .acquire x.thread

theorem entries_take_made (as : List (Action t)) : x.entries (as.take (x.made + 1)) = 0 :=
  countPlaces_take_made fun bs a hbs => by rw [isOpenAt_of_le hbs, Bool.false_and]

end Episode

namespace Stage

variable {t : Nat} {R : Room t} {θ : Fin t} {c : Call} {i : Instant} {a : Action t}
  {stage stage' : Stage} {entries : Nat}

/-- Has a call that gets the lock once, and does not sleep, got this far? -/
def Brief (entries : Nat) : Stage → Prop
  | entering => entries = 0
  | inside | leaving _ => entries = 1
  | _ => False

/-- **A call that has no time to sleep goes straight on.** -/
theorem Brief.goes (h : stage.Brief entries) (hgoes : stage.Goes R θ c i a stage')
    (hc : c ≠ .signal) (hbound : c.bound? i R.now = none) :
    stage'.Brief (entries + (decide (a = .acquire θ)).toNat) ∧ a ≠ .sleep θ := by
  cases hgoes with
  | stayed hthread _ =>
    have hacquire : a ≠ .acquire θ := by
      rintro rfl
      exact hthread rfl
    refine ⟨?_, ?_⟩
    · rwa [decide_eq_false hacquire]
    · rintro rfl
      exact hthread rfl
  | entered hstage =>
    refine ⟨?_, nofun⟩
    rw [decide_eq_true rfl]
    rcases hstage with rfl | rfl
    · exact congrArg (· + 1) h
    · exact h.elim
  | worked hstays =>
    refine ⟨?_, nofun⟩
    cases hstays with
    | posted _ => exact absurd rfl hc
    | answered _ _ => exact h
    | dozed _ hb => cases hbound.symm.trans hb
  | announced => exact h.elim
  | slept => exact h.elim
  | woke _ => exact h.elim

theorem Brief.le (h : stage.Brief entries) : entries ≤ 1 := by
  cases stage with
  | entering =>
    rw [show entries = 0 from h]
    exact Nat.zero_le 1
  | inside | leaving _ => exact Nat.le_of_eq h
  | _ => exact h.elim

/-- Who has an answer has got the lock. -/
theorem Brief.eq_one (h : stage.Brief entries) {r : Reply} (hr : stage.answer? = some r) :
    entries = 1 := by
  cases stage with
  | entering => cases hr
  | inside | leaving _ => exact h
  | _ => exact h.elim

end Stage

namespace Machine

section Brief

variable {σ : Type} {t m g : Nat} {p : Program σ m g} {μ ν ι κ κ' : Machine σ t m g} {e : Fin m}
  {as : List (Action t)} {x : Episode t} {a : Action t} {j : Nat}

theorem entries_snoc (hopen : x.isOpenAt j = true) (hat : μ.StepAt p as j a κ κ') :
    x.entries (as.take (j + 1)) =
      x.entries (as.take j) + (decide (a = .acquire x.thread)).toNat := by
  rw [Episode.entries, hat.countPlaces, hat.length_take, hopen, Bool.true_and]

variable (hμ : μ.Initial) (h : μ.steps p as = some ν) (hx : x ∈ μ.book p e as)
  (hc : x.call = .waitTimeout .zero)

include hμ h hx hc

/-- Along its course a bounded wait with no time at all is brief. -/
theorem brief (hι : μ.steps p (as.take x.made) = some ι) (hj : x.made < j) (hjl : j ≤ as.length)
    (hret : ∀ n r, x.returned = some (n, r) → j ≤ n) (hκ : μ.steps p (as.take j) = some κ)
    {stage : Stage} (hs : κ.status x.thread = stage.status ⟨e, x.call, ι.now⟩) :
    stage.Brief (x.entries (as.take j)) ∧ x.parks (as.take j) = 0 := by
  refine course_induction hμ h hx hι (P := fun j κ stage =>
    stage.Brief (x.entries (as.take j)) ∧ x.parks (as.take j) = 0)
    (fun κ _ => ⟨Episode.entries_take_made as, Episode.parks_take_made as⟩) ?_ hj hjl hret hκ hs
  intro j a κ κ' stage stage' hj hret hat hgoes ⟨hbrief, hparks⟩
  have hopen : x.isOpenAt j = true := Episode.isOpenAt_iff.mpr ⟨hj, hret⟩
  -- the time is out at every reading of the clock since the call was made
  have hbound : x.call.bound? ι.now κ.now = none := by
    have hnow := Instant.le_iff_toNanos_le.mp (now_le_of_steps hμ e hj.le hι hat.before)
    have hzero := Duration.toNanos_eq_zero.mpr rfl
    rw [hc, Call.bound?_eq_none_iff]
    omega
  obtain ⟨hbrief', hsleep⟩ := hbrief.goes hgoes (by rw [hc]; nofun) hbound
  rw [entries_snoc hopen hat, parks_snoc hopen hat, hparks, decide_eq_false hsleep]
  exact ⟨hbrief', rfl⟩

/-- **A bounded wait with no time at all never sleeps, and gets the lock once.** -/
theorem parks_eq_zero :
    x.parks as = 0 ∧ x.entries as ≤ 1 ∧ (x.decided ≠ none → x.entries as = 1) := by
  obtain ⟨ι, hι, -⟩ := exists_steps_take h x.made
  obtain ⟨j, κ, stage, hend⟩ := exists_endsAt hμ h hx hι
  obtain ⟨hbrief, hparks⟩ :=
    brief hμ h hx hc hι hend.made hend.le hend.returned hend.run hend.status
  rw [Episode.parks, hend.counts fun bs a hbs => by rw [hbs, Bool.false_and]] at hparks
  rw [Episode.entries, hend.counts fun bs a hbs => by rw [hbs, Bool.false_and]] at hbrief
  refine ⟨hparks, hbrief.le, fun hdecided => ?_⟩
  obtain ⟨⟨k, r⟩, hd⟩ := Option.ne_none_iff_exists'.mp hdecided
  exact hbrief.eq_one ((hend.answer r).mpr ⟨k, hd⟩)

end Brief

/-! ### A script and the one with attempts in the place of bounded waits -/

section Script

variable {σ σ' : Type} {t t' m m' g g' : Nat} {p : Program σ m g} {p' : Program σ' m' g'}
  {μ κ ν : Machine σ t m g} {μ' κ' ν' : Machine σ' t' m' g'} {e : Fin m} {e' : Fin m'}
  {ρs : List (Round t)} {ρs' : List (Round t')} {xs ys : List Outcome}
  {i : Nat} {ρ : Round t} {x y : Outcome}

/-- Every outcome of a script is that of its errand at some rest, and the clock has run as the
errand says. -/
theorem Script.exists_run (h : Script p e κ ρs xs ν) (hμ : μ.Initial) (hκ : Reaches p μ κ)
    (hq : κ.Quiet e) (hρ : ρs[i]? = some ρ) (hx : xs[i]? = some x) :
    ∃ s since now, s.latch.Balanced ∧ since ≤ now ∧ ρ.errand.InTime since now ∧
      x = ρ.errand.run s := by
  induction h generalizing i with
  | nil κ => cases hρ
  | @cons κ χ ν ρ₀ ρs xs h _ ih =>
    obtain ⟨as, has⟩ := hκ
    have hb := hμ.balanced_of_steps has e
    cases i with
    | zero =>
      cases hρ
      cases hx
      exact ⟨κ.rest e, κ.now, χ.now, hb, (trace_of_steps hb h.run).now_le, h.bound,
        h.outcome_eq hq (hμ.orderly has e) (hμ.attended has e) hb⟩
    | succ i =>
      exact ih ⟨as ++ ρ₀.actions, (steps_append_of_steps has).trans h.run⟩ h.quiet hρ hx

/-- **A script with attempts in the place of bounded waits comes to the same**, but for the
timeouts. -/
theorem Script.compares (h : Script p e κ ρs xs ν) (hμ : μ.Initial) (hκ : Reaches p μ κ)
    (hq : κ.Quiet e) (h' : Script p' e' κ' ρs' ys ν') (hμ' : μ'.Initial) (hκ' : Reaches p' μ' κ')
    (hq' : κ'.Quiet e') (hrest : κ'.rest e' = κ.rest e)
    (htried : ρs'.map Round.errand = List.zipWith Errand.tried (ρs.map Round.errand) xs)
    (hρ : ρs[i]? = some ρ) (hx : xs[i]? = some x) (hy : ys[i]? = some y) :
    ρ.errand.Compares x y ((xs.take (i + 1)).countP Outcome.ranOut) := by
  obtain ⟨as, has⟩ := hκ
  obtain ⟨as', has'⟩ := hκ'
  have hxs := h.outcomes_eq hμ has hq
  have hys := h'.outcomes_eq hμ' has' hq'
  rw [htried, hrest] at hys
  subst hxs
  subst hys
  have herrand : (ρs.map Round.errand)[i]? = some ρ.errand := by rw [List.getElem?_map, hρ]; rfl
  obtain ⟨hsame, hcount⟩ :=
    Errand.runAll_tried (hμ.balanced_of_steps has e) (u := κ.rest e) rfl herrand hx hy
  exact
  { signaled := congrArg (·.after.latch.signaled) hsame
    posts := congrArg (·.after.latch.stats.posts) hsame
    coalesced := congrArg (·.after.latch.stats.coalesced) hsame
    consumed := congrArg (·.after.latch.stats.consumed) hsame
    blocked := congrArg (·.after.blocked) hsame
    released := congrArg (·.released) hsame
    reply := congrArg (·.reply) hsame
    timeouts := by omega }

theorem Script.length_eq (h : Script p e κ ρs xs ν) (hμ : μ.Initial) (hκ : Reaches p μ κ)
    (hq : κ.Quiet e) : xs.length = ρs.length := by
  obtain ⟨as, has⟩ := hκ
  rw [h.outcomes_eq hμ has hq, Errand.length_runAll, List.length_map]

end Script

/-- **A bounded wait that no signal reaches is an attempt, and a timeout.**

* A bounded wait with no time at all never sleeps. It gets the lock once, and has its answer then.
* In a script it has its answer before the script goes on. So has any bounded wait that is not let
  go by a signal later on, or else it sleeps; and only a bounded wait runs out of time.
* Put attempts in the place of the bounded waits that have their answers before the script goes on
  (`AutoReset.Errand.tried`), and play that script from the same rest, on any machine. After each
  round the flag is the same, and all counters but that of the timeouts, and as many calls sleep;
  the answers are the same, with a yes for a signal and a no for the end of the time. Of timeouts
  there is one more for each call that has run out of time. -/
theorem bounded_wait_is_trial {σ : Type} {t m g : Nat} {p : Program σ m g} {μ κ : Machine σ t m g}
    (hμ : μ.Initial) (h : Reaches p μ κ) (e : Fin m) :
    (∀ as ν x, μ.steps p as = some ν → x ∈ μ.book p e as → x.call = .waitTimeout .zero →
      x.parks as = 0 ∧ x.entries as ≤ 1 ∧ (x.decided ≠ none → x.entries as = 1)) ∧
    (κ.Quiet e → ∀ ρs xs ν, Script p e κ ρs xs ν →
      (∀ (i : Nat) (ρ : Round t) (x : Outcome), ρs[i]? = some ρ → xs[i]? = some x →
        (ρ.errand.call = .waitTimeout .zero → x.reply ≠ none) ∧
        (x.released ≠ 0 → ρ.errand = .signal) ∧
        (x.ranOut = true → ρ.errand.call.isBounded = true)) ∧
      ∀ (σ' : Type) (t' m' g' : Nat) (p' : Program σ' m' g') (μ' κ' ν' : Machine σ' t' m' g')
        (e' : Fin m') (ρs' : List (Round t')) (ys : List Outcome), μ'.Initial → Reaches p' μ' κ' →
        κ'.Quiet e' → κ'.rest e' = κ.rest e → Script p' e' κ' ρs' ys ν' →
        ρs'.map Round.errand = List.zipWith Errand.tried (ρs.map Round.errand) xs →
          ys.length = xs.length ∧
          ∀ (i : Nat) (ρ : Round t) (x y : Outcome), ρs[i]? = some ρ → xs[i]? = some x →
            ys[i]? = some y → ρ.errand.Compares x y ((xs.take (i + 1)).countP Outcome.ranOut)) := by
  refine ⟨fun as ν x has hx hc => parks_eq_zero hμ has hx hc, fun hq ρs xs ν hs => ⟨?_, ?_⟩⟩
  · intro i ρ x hρ hx
    obtain ⟨s, since, now, hb, hle, htime, rfl⟩ := hs.exists_run hμ h hq hρ hx
    exact ⟨fun hc => Errand.reply_run_of_zero hb hc hle htime, Errand.eq_signal_of_released,
      Errand.isBounded_of_ranOut hb⟩
  · intro σ' t' m' g' p' μ' κ' ν' e' ρs' ys hμ' h' hq' hrest hs' htried
    refine ⟨?_, fun i ρ x y hρ hx hy =>
      hs.compares hμ h hq hs' hμ' h' hq' hrest htried hρ hx hy⟩
    have hlength := congrArg List.length htried
    rw [List.length_map, List.length_zipWith, List.length_map, hs.length_eq hμ h hq,
      Nat.min_self] at hlength
    rw [hs'.length_eq hμ' h' hq', hs.length_eq hμ h hq, hlength]


/-- A bounded wait with an hour of time, and a thread that signals twice, with a call of its own
after each signal. -/
def visitor (e : Fin m) (c d : Call) : Machine (Tape m 0) 2 m 0 :=
  ofTapes 0 (.replicate m .fresh)
    [[.call e (.waitTimeout hour)], [.call e .signal, .call e c, .call e .signal, .call e d]] .zero

/-- The first signal is for the sleeper, and the second one for the last call. -/
def visitorRounds (θ η : Fin t) (q r : Errand) : List (Round t) :=
  [⟨.longWait hour, θ, [.start θ, .acquire θ, .work θ false, .sleep θ]⟩,
    ⟨.signal, η,
      [.start η, .acquire η, .work η false, .notify η (some θ), .leave η, .acquire θ,
        .work θ false, .leave θ]⟩,
    ⟨q, η, [.start η, .acquire η, .work η false, .leave η]⟩,
    ⟨.signal, η, [.start η, .acquire η, .work η false, .notify η none, .leave η]⟩,
    ⟨r, η, [.start η, .acquire η, .work η false, .leave η]⟩]

/-- The calls are bounded waits, without any time and with an hour. -/
def waiting (e : Fin m) : Machine (Tape m 0) 2 m 0 :=
  visitor e (.waitTimeout .zero) (.waitTimeout hour)

/-- The rounds with the bounded waits. -/
def waitingRounds (θ η : Fin t) : List (Round t) :=
  visitorRounds θ η (.shortWait .zero false) (.longWait hour)

/-- The calls are attempts. -/
def trying (e : Fin m) : Machine (Tape m 0) 2 m 0 := visitor e .tryWait .tryWait

/-- The rounds with the attempts. -/
def tryingRounds (θ η : Fin t) : List (Round t) := visitorRounds θ η .tryWait .tryWait

/-- Of three bounded waits the first one sleeps, the second one has no time, and the third one
finds a signal; so it is the last two that might as well have been attempts. -/
theorem bounded_wait_is_trial_visitor :
    (∃ x ∈ (waiting (0 : Fin 1)).book Tape.program 0
        ((waitingRounds (0 : Fin 2) 1).flatMap Round.actions),
      x.call = .waitTimeout .zero ∧ x.returned = some (15, .timedOut) ∧
      x.parks ((waitingRounds 0 1).flatMap Round.actions) = 0 ∧
      x.entries ((waitingRounds 0 1).flatMap Round.actions) = 1) ∧
    ∃ ν ν' xs ys,
      Script Tape.program 0 (waiting (0 : Fin 1)) (waitingRounds 0 1) xs ν ∧
      Script Tape.program 0 (trying (0 : Fin 1)) (tryingRounds 0 1) ys ν' ∧
      xs.map Outcome.reply = [none, some .done, some .timedOut, some .done, some .done] ∧
      ys.map Outcome.reply =
        [none, some .done, some (.flag false), some .done, some (.flag true)] ∧
      ∀ (i : Nat) (ρ : Round 2) (x y : Outcome),
        (waitingRounds 0 1)[i]? = some ρ → xs[i]? = some x → ys[i]? = some y →
          ρ.errand.Compares x y ((xs.take (i + 1)).countP Outcome.ranOut) := by
  obtain ⟨χ, hχ⟩ : ∃ χ, (waiting (0 : Fin 1)).steps Tape.program
      ((waitingRounds (0 : Fin 2) 1).flatMap Round.actions) = some χ :=
    Option.isSome_iff_exists.mp (by decide +kernel)
  obtain ⟨ν, hν⟩ : ∃ ν,
      playAll? Tape.program 0 (waiting (0 : Fin 1)) (waitingRounds 0 1) = some ν :=
    Option.isSome_iff_exists.mp (by decide +kernel)
  obtain ⟨ν', hν'⟩ : ∃ ν',
      playAll? Tape.program 0 (trying (0 : Fin 1)) (tryingRounds 0 1) = some ν' :=
    Option.isSome_iff_exists.mp (by decide +kernel)
  obtain ⟨xs, hxs⟩ := exists_script_of_playAll? hν
  obtain ⟨ys, hys⟩ := exists_script_of_playAll? hν'
  have hinitial : (waiting (0 : Fin 1)).Initial := initial_ofTapes ..
  have hinitial' : (trying (0 : Fin 1)).Initial := initial_ofTapes ..
  have hstart : (waiting (0 : Fin 1)).steps Tape.program [] = some (waiting 0) := rfl
  have hstart' : (trying (0 : Fin 1)).steps Tape.program [] = some (trying 0) := rfl
  have hquiet : (waiting (0 : Fin 1)).Quiet 0 := by decide +kernel
  have hquiet' : (trying (0 : Fin 1)).Quiet 0 := by decide +kernel
  have houtcomes := hxs.outcomes_eq hinitial hstart hquiet
  have hreplies : xs.map Outcome.reply =
      [none, some .done, some .timedOut, some .done, some .done] := by
    rw [houtcomes]
    decide +kernel
  have hreplies' : ys.map Outcome.reply =
      [none, some .done, some (.flag false), some .done, some (.flag true)] := by
    rw [hys.outcomes_eq hinitial' hstart' hquiet']
    decide +kernel
  have htried : (tryingRounds (0 : Fin 2) 1).map Round.errand =
      List.zipWith Errand.tried ((waitingRounds (0 : Fin 2) 1).map Round.errand) xs := by
    rw [houtcomes]
    decide +kernel
  obtain ⟨hbrief, hscripts⟩ := bounded_wait_is_trial hinitial ⟨[], hstart⟩ 0
  have hx : ⟨1, .waitTimeout .zero, 12, some (14, .timedOut), some (15, .timedOut)⟩ ∈
      (waiting (0 : Fin 1)).book Tape.program 0
        ((waitingRounds (0 : Fin 2) 1).flatMap Round.actions) :=
    Or.inl (by decide +kernel)
  obtain ⟨hparks, -, hentries⟩ := hbrief _ _ _ hχ hx rfl
  obtain ⟨-, hcompares⟩ := (hscripts hquiet _ xs ν hxs).2 _ _ _ _ _ _ _ ν' 0 _ ys hinitial'
    ⟨[], hstart'⟩ hquiet' rfl hys htried
  exact ⟨⟨_, hx, rfl, rfl, hparks, hentries (Option.some_ne_none _)⟩, ν, ν', xs, ys, hxs, hys,
    hreplies, hreplies', hcompares⟩

end Machine

end AutoReset.Threads
