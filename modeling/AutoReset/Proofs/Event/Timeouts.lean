import AutoReset.Proofs.Event.Tenants
/-!
# Timeouts are counted where they are answered

The counter of timeouts of an event goes up by one when a bounded wait answers that its time ran
out, and at no other moment: not when a call ends in a fault, nor when it wakes a sleeper. For
the sleeper that a signal wakes finds the signal, however late it is, and so is not one whose
time ran out. An attempt that has an answer **ticks** (`AutoReset.Attempt.Ticks`) if it counts
timeouts in this way. Every stay inside the lock ticks (`AutoReset.Call.ticks_inside`), every
call that runs from rest to rest does (`AutoReset.Cell.ticks_enter`), and so does the end of a
sleep whose time has run out (`AutoReset.Cell.ticks_expire`).
-/

namespace AutoReset

/-- How many timeouts an answer speaks of: one, if it is that the time ran out. -/
def Reply.expiries (r : Option Reply) : Nat := if r = some .timedOut then 1 else 0

theorem Reply.expiries_le_one (r : Option Reply) : expiries r ≤ 1 := by
  unfold expiries
  split <;> decide

theorem Reply.expiries_of_ne {r : Option Reply} (h : r ≠ some .timedOut) : expiries r = 0 :=
  if_neg h

namespace Attempt

variable {σ α β : Type} {timeouts : σ → Nat} {reply : α → Option Reply} {reply' : β → Option Reply}
  {x : Attempt σ α} {f : α → Attempt σ β}

/-- The answer that an attempt ends with; none if it ends in a fault. -/
def replied (reply : α → Option Reply) (x : Attempt σ α) (s : σ) : Option Reply :=
  match x s with
  | .ok a _ => reply a
  | .error _ _ => none

/-- **Does an attempt count a timeout** if its answer is that the time ran out, and none
otherwise? -/
def Ticks (timeouts : σ → Nat) (reply : α → Option Reply) (x : Attempt σ α) : Prop :=
  ∀ s, timeouts (x.after s) = timeouts s + Reply.expiries (x.replied reply s)

theorem Ticks.pure {a : α} (h : reply a ≠ some .timedOut) :
    Ticks timeouts reply (pure a : Attempt σ α) :=
  fun s => congrArg (timeouts s + ·) (Reply.expiries_of_ne h).symm

/-- What is done before leaves the timeouts as they are. -/
theorem Ticks.bind (hx : Leaves timeouts x) (hf : ∀ a, Ticks timeouts reply' (f a)) :
    Ticks timeouts reply' (x >>= f) := by
  intro s
  have hs := hx s
  simp only [after] at hs
  simp only [after_bind, replied, bind_apply]
  cases hxs : x s with
  | ok a s₁ =>
    rw [hxs] at hs
    rw [← hs]
    exact hf a s₁
  | error e s₁ =>
    rw [hxs] at hs
    exact hs

end Attempt

open Attempt

/-! ### Latches -/

namespace Latch

/-- How many bounded waits ran out. -/
def timeouts (l : Latch) : Nat := l.stats.timeouts.toNat

theorem timeouts_post : Leaves timeouts post := by
  have hcount : Leaves timeouts countPost := by
    intro l
    simp only [after, countPost]
    cases Counter.succ? l.stats.posts <;> rfl
  have habsorb : Leaves timeouts countCoalesced := by
    intro l
    simp only [after, countCoalesced]
    cases Counter.succ? l.stats.coalesced <;> rfl
  refine hcount.bind fun _ => Leaves.get.bind fun l => ?_
  cases l.signaled with
  | true => exact habsorb.bind fun _ => .pure _
  | false => exact Leaves.bind (fun _ => rfl) fun _ => .pure _

theorem timeouts_take : Leaves timeouts take := by
  have hcount : Leaves timeouts countConsumed := by
    intro l
    simp only [after, countConsumed]
    cases Counter.succ? l.stats.consumed <;> rfl
  refine Leaves.get.bind fun l => ?_
  cases l.signaled with
  | true => exact Leaves.bind (fun _ => rfl) fun _ => hcount.bind fun _ => .pure _
  | false => exact .pure _

/-- After a post there is a signal. -/
theorem signaled_of_post {l l' : Latch} {b : Bool} (h : post l = .ok b l') :
    l'.signaled = true := by
  obtain ⟨_, l₁, -, h⟩ := exists_of_bind h
  obtain ⟨_, _, hget, h⟩ := exists_of_bind h
  cases hget
  cases hs : l₁.signaled with
  | true =>
    simp only [hs, if_true] at h
    obtain ⟨_, l₂, hcount, h⟩ := exists_of_bind h
    cases h
    unfold countCoalesced at hcount
    split at hcount <;> cases hcount
    exact hs
  | false =>
    simp only [hs, Bool.false_eq_true, if_false] at h
    cases h
    rfl

/-- Whoever finds a signal takes it, unless that ends in a fault. -/
theorem eq_true_of_take {l l' : Latch} {b : Bool} (hs : l.signaled = true)
    (h : take l = .ok b l') : b = true := by
  obtain ⟨_, _, hget, h⟩ := exists_of_bind h
  cases hget
  rw [if_pos hs] at h
  obtain ⟨_, _, -, h⟩ := exists_of_bind h
  obtain ⟨_, _, -, h⟩ := exists_of_bind h
  cases h
  rfl

end Latch

/-! ### Stays inside the lock -/

/-- The answer of a stay; none if the call goes to sleep. -/
def Verdict.reply : Verdict → Option Reply
  | answer r => some r
  | announce => some .done
  | sleep _ => none

namespace Call

/-- A timeout that is answered has been counted. -/
theorem ticks_recordTimeout :
    Ticks Latch.timeouts Verdict.reply (do
      Latch.recordTimeout
      return Verdict.answer .timedOut) := by
  intro l
  simp only [after_bind, replied, bind_apply, Latch.recordTimeout]
  cases ht : Counter.succ? l.stats.timeouts with
  | none => rfl
  | some n => exact Counter.toNat_of_succ? ht

/-- **A stay counts a timeout if it answers so**, and not otherwise. -/
theorem ticks_inside (c : Call) (since now : Instant) :
    Ticks Latch.timeouts Verdict.reply (c.inside since now) := by
  cases c with
  | signal => exact Ticks.bind Latch.timeouts_post fun _ => .pure nofun
  | wait =>
    refine Ticks.bind Latch.timeouts_take fun b => ?_
    cases b with
    | true => exact .pure nofun
    | false => exact .pure nofun
  | waitTimeout timeout =>
    refine Ticks.bind Latch.timeouts_take fun b => ?_
    cases b with
    | true => exact .pure nofun
    | false =>
      simp only [Bool.false_eq_true, if_false]
      split
      · exact ticks_recordTimeout
      · exact .pure nofun
  | tryWait => exact Ticks.bind Latch.timeouts_take fun _ => .pure nofun
  | isSignaled => exact Ticks.bind Leaves.get fun _ => .pure nofun
  | state => exact Ticks.bind Leaves.get fun _ => .pure nofun
  | stats => exact Ticks.bind Leaves.get fun _ => .pure nofun

/-- Only a post is announced. -/
theorem signaled_of_announce {c : Call} {since now : Instant} {l l' : Latch}
    (h : c.inside since now l = .ok .announce l') : l'.signaled = true := by
  cases c with
  | signal =>
    obtain ⟨_, _, hpost, h⟩ := exists_of_bind h
    cases h
    exact Latch.signaled_of_post hpost
  | wait | tryWait =>
    obtain ⟨b, _, -, h⟩ := exists_of_bind h
    cases b <;> cases h
  | waitTimeout timeout =>
    obtain ⟨b, _, -, h⟩ := exists_of_bind h
    cases b with
    | true => cases h
    | false =>
      simp only [Bool.false_eq_true, if_false] at h
      split at h
      · obtain ⟨_, _, -, h⟩ := exists_of_bind h
        cases h
      · cases h
  | isSignaled | state | stats => cases h

/-- **The time of whoever finds a signal has not run out**, whatever the clock says. -/
theorem replied_of_signaled (c : Call) (since now : Instant) {l : Latch} (hs : l.signaled = true) :
    (c.inside since now).replied Verdict.reply l ≠ some .timedOut := by
  rw [replied]
  cases h : c.inside since now l with
  | error f l' => exact nofun
  | ok v l' =>
    cases c with
    | signal =>
      obtain ⟨_, _, -, h⟩ := exists_of_bind h
      cases h
      exact nofun
    | wait | waitTimeout timeout =>
      obtain ⟨b, _, htake, h⟩ := exists_of_bind h
      cases Latch.eq_true_of_take hs htake
      cases h
      exact nofun
    | tryWait =>
      obtain ⟨_, _, -, h⟩ := exists_of_bind h
      cases h
      exact nofun
    | isSignaled | state | stats =>
      cases h
      exact nofun

end Call

/-! ### Calls on an event at rest -/

namespace Cell

/-- How many bounded waits on the event ran out. -/
def timeouts (c : Cell) : Nat := c.latch.timeouts

theorem ticks_onLatch {α : Type} {reply : α → Option Reply} {x : Attempt Latch α}
    (hx : Ticks Latch.timeouts reply x) : Ticks timeouts reply (onLatch x) := by
  intro c
  have hc := hx c.latch
  simp only [after, replied] at hc
  simp only [after, replied, onLatch, timeouts]
  cases hxc : x c.latch with
  | ok a l =>
    rw [hxc] at hc
    exact hc
  | error f l =>
    rw [hxc] at hc
    exact hc

/-- A sleeper that is woken counts a timeout if it answers so, and not otherwise. -/
theorem ticks_resume (s : Sleeper) (now : Instant) : Ticks timeouts id (resume s now) := by
  intro c
  have hc := ticks_onLatch (s.call.ticks_inside s.since now) c
  simp only [after, replied] at hc
  simp only [resume, after_bind, replied, bind_apply]
  cases hv : onLatch (s.call.inside s.since now) c with
  | error f c₁ =>
    rw [hv] at hc
    exact hc
  | ok v c₁ =>
    rw [hv] at hc
    cases v with
    | answer r => exact hc
    | announce => exact hc
    | sleep b => exact hc

/-- **A sleeper that finds a signal** leaves the timeouts as they are. -/
theorem timeouts_resume_of_signaled (s : Sleeper) (now : Instant) {c : Cell}
    (hs : c.latch.signaled = true) : timeouts ((resume s now).after c) = timeouts c := by
  have hne : (resume s now).replied id c ≠ some .timedOut := by
    have hinside := s.call.replied_of_signaled s.since now hs
    rw [replied] at hinside
    simp only [resume, replied, bind_apply, onLatch]
    cases hv : s.call.inside s.since now c.latch with
    | error f l => exact nofun
    | ok v l =>
      rw [hv] at hinside
      cases v with
      | answer r => exact hinside
      | announce => exact nofun
      | sleep b => exact nofun
  rw [ticks_resume s now c, Reply.expiries_of_ne hne, Nat.add_zero]

theorem timeouts_wakeLongest_of_signaled (now : Instant) {c : Cell}
    (hs : c.latch.signaled = true) : timeouts ((wakeLongest now).after c) = timeouts c := by
  rw [wakeLongest, after_bind, get_apply]
  cases hc : c.sleepers with
  | nil =>
    simp only [hc]
    rfl
  | cons s rest =>
    simp only [hc]
    have hresume := timeouts_resume_of_signaled s now (c := { c with sleepers := rest }) hs
    rw [after_bind, modify_apply]
    simp only [after_bind]
    rw [after] at hresume
    cases hr : resume s now { c with sleepers := rest } with
    | ok r c₁ =>
      rw [hr] at hresume
      exact hresume
    | error f c₁ =>
      rw [hr] at hresume
      exact hresume

/-- **A call that runs from rest to rest** counts a timeout if it answers so, and not otherwise;
in particular not for the sleeper that it wakes. -/
theorem ticks_enter (c : Call) (now : Instant) : Ticks timeouts Passage.reply (enter c now) := by
  intro e
  have he := ticks_onLatch (c.ticks_inside now now) e
  simp only [after, replied] at he
  simp only [enter, after_bind, replied, bind_apply]
  cases hv : onLatch (c.inside now now) e with
  | error f e₁ =>
    rw [hv] at he
    exact he
  | ok v e₁ =>
    rw [hv] at he
    cases v with
    | answer r => exact he
    | sleep b => exact he
    | announce =>
      have hs : e₁.latch.signaled = true := by
        unfold onLatch at hv
        cases hl : c.inside now now e.latch with
        | error f l =>
          rw [hl] at hv
          cases hv
        | ok v l =>
          rw [hl] at hv
          cases hv
          exact Call.signaled_of_announce hl
      have hwake := timeouts_wakeLongest_of_signaled now hs
      rw [after] at hwake
      simp only [after_bind, bind_apply]
      cases hw : wakeLongest now e₁ with
      | ok r e₂ =>
        rw [hw] at hwake
        exact hwake.trans he
      | error f e₂ =>
        rw [hw] at hwake
        exact hwake.trans he

/-- **The end of a sleep whose time has run out** counts a timeout if the answer is that. -/
theorem ticks_expire (now : Instant) : Ticks timeouts id (expire now) := by
  refine Ticks.bind Leaves.get fun c => ?_
  cases c.sleepers.getLast? with
  | none => exact .pure nofun
  | some s => exact Ticks.bind (fun _ => rfl) fun _ => ticks_resume s now

end Cell

end AutoReset
