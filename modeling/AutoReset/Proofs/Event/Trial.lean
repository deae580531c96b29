import AutoReset.Proofs.Event.Errand
import AutoReset.Proofs.Event.Timeouts
import AutoReset.Proofs.Latch.History
import AutoReset.Proofs.Time.Deadline
/-!
# A bounded wait that no signal reaches

A bounded wait that returns before the script goes on has consumed the signal that it found, or
has found none and run out of time. An attempt to consume a signal does the same, but for the
counter of timeouts. So whoever leaves that counter out (`AutoReset.Latch.untimed`) cannot tell a
script from the one in which these calls are exchanged (`AutoReset.Errand.tried`): the events at
rest are the same after every errand, and so are the answers, if the end of the time is read as a
no (`AutoReset.Errand.reading`). What was left out is the number of the calls that ran out of time
(`AutoReset.Errand.runAll_tried`).

A bounded wait that sleeps on when the script goes on is not exchanged. It takes up a place among
the sleepers, and only a signal lets it go.
-/

namespace AutoReset

/-! ### Everything but the timeouts -/

namespace Latch

variable {l l' : Latch}

@[simp] theorem signaled_untimed (l : Latch) : l.untimed.signaled = l.signaled := rfl

/-- The balance is none of timeouts. -/
theorem Balanced.untimed (h : l.Balanced) : l.untimed.Balanced := h

theorem balanced_of_untimed (h : l.untimed = l'.untimed) (hb : l'.Balanced) : l.Balanced := by
  have hb' := hb.untimed
  rw [← h] at hb'
  exact hb'

end Latch

/-- The rest, but for the timeouts. -/
def Rest.untimed (s : Rest) : Rest := ⟨s.latch.untimed, s.blocked⟩

/-- The outcome, but for the timeouts. -/
def Outcome.untimed (x : Outcome) : Outcome := { x with after := x.after.untimed }

/-- Does the answer say that the time ran out? The log sink may have failed on the record of
that. -/
def Reply.ranOut (r : Option Reply) : Bool :=
  r = some .timedOut || r = some (.fault .sinkFailed)

theorem Reply.logged_ne_done (sinkFails : Bool) : Reply.timedOut.logged sinkFails ≠ .done := by
  cases sinkFails with
  | false => exact nofun
  | true => exact nofun

theorem Reply.ranOut_logged (sinkFails : Bool) :
    Reply.ranOut (some (Reply.timedOut.logged sinkFails)) = true := by
  cases sinkFails with
  | false => rfl
  | true => rfl

/-- Did the time of the call run out? -/
def Outcome.ranOut (x : Outcome) : Bool := Reply.ranOut x.reply

namespace Errand

/-- **The errand in its place**: an attempt to consume a signal, for a bounded wait that returned
before the script went on. -/
def tried (q : Errand) (x : Outcome) : Errand :=
  if q.call.isBounded ∧ x.reply ≠ none then .tryWait else q

/-- The answer of a bounded wait as one of yes or no: was there a signal? -/
def reading (q : Errand) (r : Option Reply) : Option Reply :=
  if q.call.isBounded then r.map fun r => .flag (r = .done) else r

variable {q : Errand} {l l' : Latch} {r : Reply} {s u : Rest}

/-! ### What comes of an errand -/

/-- An errand that sleeps is one sleeper more. -/
theorem run_of_none (h : q.settle s.latch = (none, l)) :
    q.run s = ⟨⟨l, s.blocked + 1⟩, 0, none⟩ := by
  simp only [run, h]

/-- An errand that is no signal leaves the sleepers alone. -/
theorem run_of_some (hq : q ≠ .signal) (h : q.settle s.latch = (some r, l)) :
    q.run s = ⟨⟨l, s.blocked⟩, 0, some r⟩ := by
  simp only [run, h]
  cases hblocked : s.blocked with
  | zero => rfl
  | succ b => simp only [hq, false_and, if_false]

/-- **What comes of an errand from rest to rest**: it sleeps, or it has its answer, or it is a
signal and hands over to a sleeper. -/
theorem run_cases (q : Errand) (s : Rest) :
    (∃ l, q.settle s.latch = (none, l) ∧ q.run s = ⟨⟨l, s.blocked + 1⟩, 0, none⟩) ∨
    (∃ r l, q.settle s.latch = (some r, l) ∧ q.run s = ⟨⟨l, s.blocked⟩, 0, some r⟩) ∨
    (q = signal ∧ ∃ l b, s.blocked = b + 1 ∧ q.settle s.latch = (some .done, l) ∧
      q.run s = ⟨⟨l.taken, b⟩, 1, some .done⟩) := by
  rcases hset : q.settle s.latch with ⟨_ | r, l⟩
  · exact .inl ⟨l, rfl, run_of_none hset⟩
  · by_cases hhand : q = signal ∧ r = .done
    · obtain ⟨rfl, rfl⟩ := hhand
      cases hblocked : s.blocked with
      | zero => exact .inr (.inl ⟨.done, l, rfl, by simp only [run, hset, hblocked]⟩)
      | succ b =>
        refine .inr (.inr ⟨rfl, l, b, rfl, rfl, ?_⟩)
        simp only [run, hset, hblocked, and_self, if_true]
    · refine .inr (.inl ⟨r, l, rfl, ?_⟩)
      cases hblocked : s.blocked with
      | zero => simp only [run, hset, hblocked]
      | succ b => simp only [run, hset, hblocked, if_neg hhand]

/-- The answer is the one before anybody is woken. -/
theorem reply_run (q : Errand) (s : Rest) : (q.run s).reply = (q.settle s.latch).1 := by
  rcases run_cases q s with ⟨l, hset, hrun⟩ | ⟨r, l, hset, hrun⟩ | ⟨-, l, b, -, hset, hrun⟩
  · rw [hset, hrun]
  · rw [hset, hrun]
  · rw [hset, hrun]

/-- A bounded wait without the time to sleep has an answer. -/
theorem reply_run_shortWait (hb : s.latch.Balanced) (d : Duration) (sinkFails : Bool) :
    ((shortWait d sinkFails).run s).reply ≠ none := by
  rw [reply_run]
  rcases hset : (shortWait d sinkFails).settle s.latch with ⟨_ | r, l⟩
  · cases settles_of_eq hb hset with
    | slept _ hlong _ => exact absurd rfl (hlong d sinkFails)
  · exact Option.some_ne_none r

/-- **No errand but a bounded wait that runs out looks at the timeouts.** -/
theorem settle_untimed (hb : l.Balanced) (hq : ∀ d b, q ≠ .shortWait d b) :
    q.settle l.untimed = ((q.settle l).1, (q.settle l).2.untimed) := by
  rcases hset : q.settle l with ⟨answer, l'⟩
  refine Settles.settle_eq hb.untimed ?_
  cases settles_of_eq hb hset with
  | posted hp => exact .posted hp
  | full hp => exact .full hp
  | taken hq hs => exact .taken hq hs
  | missed hs => exact .missed hs
  | slept hq hlong hs => exact .slept hq hlong hs
  | expired _ _ => exact absurd rfl (hq _ _)
  | expiredFull _ _ => exact absurd rfl (hq _ _)

/-- **A bounded wait that has an answer does what an attempt does**, but for the timeouts. -/
theorem settle_tryWait (hb : l.Balanced) (hq : q.call.isBounded = true)
    (h : q.settle l = (some r, l')) :
    tryWait.settle l.untimed = (some (.flag (r = .done)), l'.untimed) := by
  refine Settles.settle_eq hb.untimed ?_
  cases settles_of_eq hb h with
  | posted _ => cases hq
  | full _ => cases hq
  | taken _ hs =>
    have hdone : q.success = .done := by
      cases q with
      | longWait _ | shortWait _ _ => rfl
      | _ => cases hq
    rw [hdone]
    exact .taken (q := tryWait) nofun hs
  | missed _ => cases hq
  | expired hs _ =>
    rw [decide_eq_false (Reply.logged_ne_done _)]
    exact .missed hs
  | expiredFull hs _ => exact .missed hs

/-- **No errand but a bounded wait that runs out looks at the timeouts**, from rest to rest. -/
theorem run_untimed (hb : s.latch.Balanced) (hq : ∀ d b, q ≠ .shortWait d b) :
    q.run s.untimed = (q.run s).untimed := by
  simp only [run, Rest.untimed, settle_untimed hb hq]
  rcases q.settle s.latch with ⟨_ | r, l⟩
  · rfl
  · cases s.blocked with
    | zero => rfl
    | succ b =>
      simp only
      split
      · rfl
      · rfl

/-- An errand keeps the balance. -/
theorem balanced_settle (hb : l.Balanced) (q : Errand) : (q.settle l).2.Balanced := by
  rcases hset : q.settle l with ⟨answer, l'⟩
  cases settles_of_eq hb hset with
  | posted hp => exact hb.posted hp
  | taken _ hs => exact hb.taken hs
  | expired _ _ => exact hb.expired
  | _ => exact hb

theorem balanced_run (hb : s.latch.Balanced) (q : Errand) : (q.run s).after.latch.Balanced := by
  have hsettle := balanced_settle hb q
  rcases run_cases q s with ⟨l, hset, hrun⟩ | ⟨r, l, hset, hrun⟩ | ⟨rfl, l, b, -, hset, hrun⟩
  · rw [hset] at hsettle
    rw [hrun]
    exact hsettle
  · rw [hset] at hsettle
    rw [hrun]
    exact hsettle
  · -- the signal that was posted is there to be taken
    rw [hset] at hsettle
    rw [hrun]
    exact hsettle.taken (signaled_of_settle hb hset)

/-- **A sleeper is let go by a signal only.** -/
theorem eq_signal_of_released (h : (q.run s).released ≠ 0) : q = .signal := by
  rcases run_cases q s with ⟨l, -, hrun⟩ | ⟨r, l, -, hrun⟩ | ⟨hq, -⟩
  · exact absurd (congrArg Outcome.released hrun) h
  · exact absurd (congrArg Outcome.released hrun) h
  · exact hq

/-- **A bounded wait with no time at all has an answer.** -/
theorem reply_run_of_zero (hb : s.latch.Balanced) (hq : q.call = .waitTimeout .zero)
    {since now : Instant} (hle : since ≤ now) (htime : q.InTime since now) :
    (q.run s).reply ≠ none := by
  cases q with
  | longWait d =>
    cases hq
    -- the time is out when the call is made
    have hlate : (Call.waitTimeout .zero).bound? since now = none := by
      have hzero := Duration.toNanos_eq_zero.mpr rfl
      have hnanos := Instant.le_iff_toNanos_le.mp hle
      rw [Call.bound?_eq_none_iff]
      omega
    rw [InTime, Call.patient, hlate] at htime
    cases htime
  | shortWait d b => exact reply_run_shortWait hb d b
  | _ => cases hq

/-- **The errand in its place comes to the same**, but for the timeouts, and to the same answer in
its own words. -/
theorem run_tried (hb : s.latch.Balanced) (h : u.untimed = s.untimed) :
    ((q.tried (q.run s)).run u).untimed =
      { (q.run s).untimed with reply := q.reading (q.run s).reply } := by
  have hbu : u.latch.Balanced := Latch.balanced_of_untimed (congrArg Rest.latch h) hb
  by_cases hq : q.call.isBounded = true ∧ (q.run s).reply ≠ none
  · obtain ⟨hbounded, hreply⟩ := hq
    rw [tried, if_pos ⟨hbounded, hreply⟩, ← run_untimed (q := tryWait) hbu nofun, h]
    have hne : q ≠ .signal := by
      rintro rfl
      cases hbounded
    rcases hset : q.settle s.latch with ⟨_ | r, l⟩
    · rw [run_of_none hset] at hreply
      exact absurd rfl hreply
    · have htried := settle_tryWait hb hbounded hset
      rw [run_of_some hne hset, run_of_some (s := s.untimed) (q := tryWait) nofun htried, reading,
        if_pos hbounded]
      rfl
  · have hshort : ∀ d b, q ≠ .shortWait d b := by
      rintro d b rfl
      exact hq ⟨rfl, reply_run_shortWait hb d b⟩
    have hreading : q.reading (q.run s).reply = (q.run s).reply := by
      unfold reading
      split
      · next hbounded =>
        have hnone : (q.run s).reply = none := by
          by_contra hne
          exact hq ⟨hbounded, hne⟩
        rw [hnone]
        rfl
      · rfl
    rw [tried, if_neg hq, ← run_untimed hbu hshort, h, run_untimed hb hshort, hreading]
    rfl

/-! ### The timeouts -/

/-- A timeout is counted where the time runs out. -/
theorem timeouts_settle (hb : l.Balanced) (q : Errand) :
    (q.settle l).2.timeouts = l.timeouts + (Reply.ranOut (q.settle l).1).toNat := by
  rcases hset : q.settle l with ⟨answer, l'⟩
  cases settles_of_eq hb hset with
  | taken _ _ => cases q <;> rfl
  | expired _ ht =>
    rw [Reply.ranOut_logged]
    exact Counter.toNat_succ ht
  | _ => rfl

theorem timeouts_run (hb : s.latch.Balanced) (q : Errand) :
    (q.run s).after.latch.timeouts = s.latch.timeouts + (q.run s).ranOut.toNat := by
  rw [Outcome.ranOut, reply_run, ← timeouts_settle hb q]
  rcases run_cases q s with ⟨l, hset, hrun⟩ | ⟨r, l, hset, hrun⟩ | ⟨-, l, b, -, hset, hrun⟩
  · rw [hset, hrun]
  · rw [hset, hrun]
  · -- to take a signal is not to run out of time
    rw [hset, hrun]
    rfl

/-- The answer as one of yes or no is not that the time ran out. -/
theorem ranOut_reading (hb : l.Balanced) (q : Errand) :
    Reply.ranOut (q.reading (q.settle l).1) = false := by
  unfold reading
  split
  · cases (q.settle l).1 <;> rfl
  · next hq =>
    rcases hset : q.settle l with ⟨answer, l'⟩
    cases settles_of_eq hb hset with
    | taken _ _ => cases q <;> rfl
    | expired _ _ => exact absurd rfl hq
    | _ => rfl

/-- **Only a bounded wait runs out of time.** -/
theorem isBounded_of_ranOut (hb : s.latch.Balanced) (h : (q.run s).ranOut = true) :
    q.call.isBounded = true := by
  by_contra hq
  have hnone := ranOut_reading hb q
  rw [reading, if_neg hq, ← reply_run] at hnone
  cases h.symm.trans hnone

theorem ranOut_run_tried (hb : s.latch.Balanced) (h : u.untimed = s.untimed) :
    ((q.tried (q.run s)).run u).ranOut = false := by
  have hreply : ((q.tried (q.run s)).run u).reply = q.reading (q.run s).reply :=
    congrArg Outcome.reply (run_tried hb h)
  rw [Outcome.ranOut, hreply, reply_run]
  exact ranOut_reading hb q

/-! ### One errand after the other -/

/-- **How the outcome of an errand and that of the errand in its place compare**, where so many
calls have run out of time. -/
structure Compares (q : Errand) (x y : Outcome) (expired : Nat) : Prop where
  /-- The flag is the same. -/
  signaled : y.after.latch.signaled = x.after.latch.signaled
  /-- So is the count of signals, -/
  posts : y.after.latch.stats.posts = x.after.latch.stats.posts
  /-- of those that were absorbed, -/
  coalesced : y.after.latch.stats.coalesced = x.after.latch.stats.coalesced
  /-- and of those that were consumed. -/
  consumed : y.after.latch.stats.consumed = x.after.latch.stats.consumed
  /-- As many calls sleep. -/
  blocked : y.after.blocked = x.after.blocked
  /-- As many sleepers returned. -/
  released : y.released = x.released
  /-- The answer is the same, with a yes for a signal and a no for the end of the time. -/
  reply : y.reply = q.reading x.reply
  /-- The calls that ran out of time have counted a timeout, and those in their place none. -/
  timeouts : x.after.latch.timeouts = y.after.latch.timeouts + expired

theorem length_runAll (s : Rest) (qs : List Errand) : (runAll s qs).length = qs.length := by
  induction qs generalizing s with
  | nil => rfl
  | cons q qs ih => rw [runAll, List.length_cons, ih, List.length_cons]

/-- **A script with the errands in their places comes to the same**, but for the timeouts. -/
theorem runAll_tried {qs : List Errand} {i : Nat} {q : Errand} {x y : Outcome}
    (hb : s.latch.Balanced) (h : u.untimed = s.untimed) (hq : qs[i]? = some q)
    (hx : (runAll s qs)[i]? = some x)
    (hy : (runAll u (List.zipWith tried qs (runAll s qs)))[i]? = some y) :
    y.untimed = { x.untimed with reply := q.reading x.reply } ∧
      x.after.latch.timeouts + u.latch.timeouts =
        y.after.latch.timeouts + s.latch.timeouts +
          ((runAll s qs).take (i + 1)).countP Outcome.ranOut := by
  induction qs generalizing s u i with
  | nil => cases hq
  | cons q₀ qs ih =>
    have hfirst := run_tried hb h (q := q₀)
    have htimeouts := timeouts_run hb q₀
    have hnone := timeouts_run (Latch.balanced_of_untimed (congrArg Rest.latch h) hb)
      (q₀.tried (q₀.run s))
    rw [ranOut_run_tried hb h, Bool.toNat_false, Nat.add_zero] at hnone
    rw [runAll] at hx hy ⊢
    rw [List.zipWith_cons_cons, runAll] at hy
    cases i with
    | zero =>
      cases hq
      cases hx
      cases hy
      refine ⟨hfirst, ?_⟩
      rw [List.take_succ_cons, List.take_zero, List.countP_singleton, hnone, htimeouts]
      cases (q.run s).ranOut <;> simp <;> omega
    | succ i =>
      have hafter : ((q₀.tried (q₀.run s)).run u).after.untimed = (q₀.run s).after.untimed :=
        congrArg Outcome.after hfirst
      obtain ⟨hsame, hcount⟩ := ih (balanced_run hb q₀) hafter hq hx hy
      refine ⟨hsame, ?_⟩
      rw [List.take_succ_cons, List.countP_cons]
      rw [hnone, htimeouts] at hcount
      cases hran : (q₀.run s).ranOut <;> simp [hran] at hcount ⊢ <;> omega

end Errand

end AutoReset
