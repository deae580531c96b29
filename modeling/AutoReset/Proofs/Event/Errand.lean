import AutoReset.Proofs.Event.Stay
/-!
# Errands: what a script does to an event at rest

Between two calls of a script the event is at rest, and all that a script can tell of it
is the latch and the number of calls that sleep (`AutoReset.Rest`). An **errand** is one
call of a script, together with what becomes of its time if it is a bounded wait: either
the time does not run out, or it does so before the script goes on.

What comes of an errand is a function of the event at rest (`AutoReset.Errand.run`). The
call has its answer at once, or it sleeps (`AutoReset.Errand.settle`); and a signal that
is posted while calls sleep is consumed by one of them, which returns. Which of them it
is makes no difference to the number that is left.
-/

namespace AutoReset

/-- One call of a script, with what becomes of its time. -/
inductive Errand where
  | signal
  | wait
  | tryWait
  /-- A bounded wait with time enough. -/
  | longWait (timeout : Duration)
  /-- A bounded wait that runs out before the script goes on, unless there is a signal for
  it. Does the log sink fail then? -/
  | shortWait (timeout : Duration) (sinkFails : Bool)
  deriving DecidableEq

/-- An event at rest, as far as a script can tell. -/
structure Rest where
  /-- The flag and the counters. -/
  latch : Latch
  /-- How many calls sleep. -/
  blocked : Nat
  deriving DecidableEq

/-- What a script can tell of one errand. -/
structure Outcome where
  /-- The event at rest again. -/
  after : Rest
  /-- How many sleepers returned. -/
  released : Nat
  /-- The answer; none if the call sleeps. -/
  reply : Option Reply
  deriving DecidableEq

namespace Errand

/-- The call of an errand. -/
def call : Errand → Call
  | signal => .signal
  | wait => .wait
  | tryWait => .tryWait
  | longWait d => .waitTimeout d
  | shortWait d _ => .waitTimeout d

/-- Has the call, made at `since`, the time at `now` that the errand says? -/
def InTime (since now : Instant) : Errand → Prop
  | longWait d => (Call.waitTimeout d).patient since now = true
  | shortWait d _ => (Call.waitTimeout d).patient since now = false
  | _ => True

instance (since now : Instant) (q : Errand) : Decidable (q.InTime since now) :=
  match q with
  | longWait d => inferInstanceAs (Decidable ((Call.waitTimeout d).patient since now = true))
  | shortWait d _ => inferInstanceAs (Decidable ((Call.waitTimeout d).patient since now = false))
  | signal | wait | tryWait => inferInstanceAs (Decidable True)

/-- Does the log sink fail, if that is a question? -/
def sinkFails? : Errand → Option Bool
  | shortWait _ sinkFails => some sinkFails
  | _ => none

/-- What comes of the call before anybody is woken: its answer, or none if it sleeps, and
the latch. -/
def settle : Errand → Latch → Option Reply × Latch
  | signal, l =>
    match Latch.post l with
    | .ok _ l => (some .done, l)
    | .error f l => (some (.fault f), l)
  | wait, l | longWait _, l =>
    match Latch.take l with
    | .ok true l => (some .done, l)
    | .ok false l => (none, l)
    | .error f l => (some (.fault f), l)
  | tryWait, l =>
    match Latch.take l with
    | .ok b l => (some (.flag b), l)
    | .error f l => (some (.fault f), l)
  | shortWait _ sinkFails, l =>
    match Latch.take l with
    | .ok true l => (some .done, l)
    | .ok false l =>
      match Latch.recordTimeout l with
      | .ok _ l => (some (Reply.timedOut.logged sinkFails), l)
      | .error f l => (some (.fault f), l)
    | .error f l => (some (.fault f), l)

/-- **What comes of an errand** at an event at rest. -/
def run (q : Errand) (s : Rest) : Outcome :=
  match q.settle s.latch, s.blocked with
  | (none, l), b => ⟨⟨l, b + 1⟩, 0, none⟩
  | (some r, l), 0 => ⟨⟨l, 0⟩, 0, some r⟩
  | (some r, l), b + 1 =>
    -- a signal that is posted while calls sleep goes to one of them
    if q = signal ∧ r = .done then ⟨⟨l.taken, b⟩, 1, some r⟩ else ⟨⟨l, b + 1⟩, 0, some r⟩

/-- What comes of one errand after the other. -/
def runAll (s : Rest) : List Errand → List Outcome
  | [] => []
  | q :: qs => q.run s :: runAll (q.run s).after qs

/-! ### Errands on a latch in balance -/

/-- The answer of a call that has consumed a signal. -/
def success : Errand → Reply
  | tryWait => .flag true
  | _ => .done

/-- **What can come of an errand** before anybody is woken. -/
inductive Settles (l : Latch) : Errand → Option Reply → Latch → Prop
  /-- The signal is posted. -/
  | posted (hp : l.stats.posts ≠ Counter.last) : Settles l signal (some .done) l.posted
  /-- There is no counting it any more. -/
  | full (hp : l.stats.posts = Counter.last) :
    Settles l signal (some (.fault .counterOverflow)) l
  /-- A signal is consumed. -/
  | taken {q : Errand} (hq : q ≠ signal) (hs : l.signaled = true) :
    Settles l q (some q.success) l.taken
  /-- There is none, and the call does not wait for it. -/
  | missed (hs : l.signaled = false) : Settles l tryWait (some (.flag false)) l
  /-- There is none, and the call sleeps. -/
  | slept {q : Errand} (hq : q.call.waits = true) (hlong : ∀ d b, q ≠ shortWait d b)
    (hs : l.signaled = false) : Settles l q none l
  /-- There is none, and the time runs out. -/
  | expired {d : Duration} {sinkFails : Bool} (hs : l.signaled = false)
    (ht : l.stats.timeouts ≠ Counter.last) :
    Settles l (shortWait d sinkFails) (some (Reply.timedOut.logged sinkFails)) l.expired
  /-- The time runs out, and there is no counting that any more. -/
  | expiredFull {d : Duration} {sinkFails : Bool} (hs : l.signaled = false)
    (ht : l.stats.timeouts = Counter.last) :
    Settles l (shortWait d sinkFails) (some (.fault .counterOverflow)) l

/-- **These are all the cases.** -/
theorem settles_settle (hb : l.Balanced) (q : Errand) :
    Settles l q (q.settle l).1 (q.settle l).2 := by
  have htake := Latch.take_eq hb
  cases q with
  | signal =>
    simp only [settle, Latch.post_eq hb]
    by_cases hp : l.stats.posts = Counter.last
    · simpa only [if_pos hp] using .full hp
    · simpa only [if_neg hp] using .posted hp
  | wait | longWait _ =>
    cases hs : l.signaled with
    | true => simpa only [settle, htake, hs, if_true] using .taken nofun hs
    | false =>
      simpa only [settle, htake, hs, Bool.false_eq_true, if_false] using .slept rfl nofun hs
  | tryWait =>
    cases hs : l.signaled with
    | true => simpa only [settle, htake, hs, if_true] using .taken nofun hs
    | false => simpa only [settle, htake, hs, Bool.false_eq_true, if_false] using .missed hs
  | shortWait d b =>
    cases hs : l.signaled with
    | true => simpa only [settle, htake, hs, if_true] using .taken nofun hs
    | false =>
      simp only [settle, htake, hs, Bool.false_eq_true, if_false, Latch.recordTimeout_eq]
      by_cases ht : l.stats.timeouts = Counter.last
      · simpa only [if_pos ht] using .expiredFull hs ht
      · simpa only [if_neg ht] using .expired hs ht

theorem settles_of_eq (hb : l.Balanced) {answer : Option Reply} (h : q.settle l = (answer, l')) :
    Settles l q answer l' := by
  have hsettles := settles_settle hb q
  rwa [h] at hsettles

/-- **Only one of them is the case.** -/
theorem Settles.settle_eq (hb : l.Balanced) {answer : Option Reply} (h : Settles l q answer l') :
    q.settle l = (answer, l') := by
  have htake := Latch.take_eq hb
  cases h with
  | posted hp => simp only [settle, Latch.post_eq hb, if_neg hp]
  | full hp => simp only [settle, Latch.post_eq hb, if_pos hp]
  | taken hq hs =>
    rw [if_pos hs] at htake
    cases q with
    | signal => exact absurd rfl hq
    | _ => simp only [settle, htake, success]
  | missed hs => simp only [settle, htake, hs, Bool.false_eq_true, if_false]
  | slept hq hlong hs =>
    cases q with
    | wait | longWait _ => simp only [settle, htake, hs, Bool.false_eq_true, if_false]
    | shortWait d b => exact absurd rfl (hlong d b)
    | _ => cases hq
  | expired hs ht =>
    simp only [settle, htake, hs, Bool.false_eq_true, if_false, Latch.recordTimeout_eq, if_neg ht]
  | expiredFull hs ht =>
    simp only [settle, htake, hs, Bool.false_eq_true, if_false, Latch.recordTimeout_eq, if_pos ht]

/-- Can the call have this answer, for all that the errand says of the log sink? -/
def Admits (q : Errand) (r : Reply) : Prop :=
  ∀ b, q.sinkFails? = some b → r ≠ Reply.timedOut.logged (!b)

variable {since now : Instant} {l l' : Latch} {r : Reply} {q : Errand}

/-- **A stay that decides the call settles the errand.** -/
theorem settle_of_decides (hb : l.Balanced)
    (hlong : ∀ d, q = .longWait d → q.call.patient since now) (hr : q.Admits r)
    (h : Call.Decides since now l q.call r l') :
    q.settle l = (some r, l') := by
  refine Settles.settle_eq hb ?_
  cases q with
  | signal =>
    cases h with
    | posted hp => exact .posted hp
    | answered ha =>
      cases ha with
      | overflow hp => exact .full hp
      | take hc _ => cases hc
      | look hc => cases hc
  | wait =>
    obtain ⟨hs, rfl, rfl⟩ := Call.taken_of_decides rfl h
    exact .taken nofun hs
  | longWait d =>
    obtain ⟨hs, rfl, rfl⟩ := Call.taken_of_decides (hlong d rfl) h
    exact .taken nofun hs
  | tryWait =>
    cases h with
    | answered ha =>
      cases ha with
      | take hc hs =>
        cases hc
        exact .taken nofun hs
      | miss hs => exact .missed hs
      | look hc => cases hc
  | shortWait d b =>
    cases h with
    | answered ha =>
      cases ha with
      | take hc hs =>
        cases hc
        exact .taken nofun hs
      | expire sinkFails hs _ ht =>
        -- the sink did what the errand says
        have hsink : sinkFails = b :=
          Bool.not_eq_not.mp fun hne => hr b rfl (congrArg (Reply.timedOut.logged ·) hne)
        rw [hsink]
        exact .expired hs ht
      | expireOverflow hs _ ht => exact .expiredFull hs ht
      | look hc => cases hc

/-- A wait that finds nothing sleeps, if it has the time. -/
theorem settle_of_waits (hb : l.Balanced) (hs : l.signaled = false) (hc : q.call.waits = true)
    (hshort : ∀ d b, q ≠ .shortWait d b) : q.settle l = (none, l) :=
  (Settles.slept hc hshort hs).settle_eq hb

/-- **Only a signal leaves a signal** where there was none. -/
theorem eq_signal_of_settle (hb : l.Balanced) (hs : l.signaled = false)
    (h : q.settle l = (some r, l')) (hs' : l'.signaled = true) : q = .signal ∧ r = .done := by
  cases settles_of_eq hb h with
  | posted _ => exact ⟨rfl, rfl⟩
  | taken _ hset => cases hs.symm.trans hset
  | expired _ _ =>
    rw [Latch.signaled_expired] at hs'
    cases hs.symm.trans hs'
  | _ => cases hs.symm.trans hs'

/-- A signal that is done is pending. -/
theorem signaled_of_settle (hb : l.Balanced) (h : Errand.signal.settle l = (some .done, l')) :
    l'.signaled = true := by
  cases settles_of_eq hb h with
  | posted _ => rfl
  | taken hq _ => exact absurd rfl hq

end Errand

end AutoReset
