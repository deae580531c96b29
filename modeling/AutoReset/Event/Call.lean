import AutoReset.Latch
import AutoReset.Time.Deadline
/-!
# Calls on an event, and what happens inside its lock

An event is a latch behind a lock, with a place for callers to sleep. Every call
on it does its work in stays inside the lock, and this file says what one stay
does (`AutoReset.Call.inside`): the latch it leaves, and the verdict.

* The call has its answer, and leaves.
* A signal was posted: before it leaves, the call wakes one sleeper.
* There was nothing to take: the call goes to sleep, giving up the lock as it
  does so, and comes back for another stay when something has woken it. A bounded
  wait fixed its deadline when it was made, and sleeps no longer than what is
  left of it; once nothing is left it counts the timeout instead.

What order the stays of different callers come in is not decided here.
-/

namespace AutoReset

/-- A call on one event. -/
inductive Call where
  /-- Latch a signal and wake one sleeper. -/
  | signal
  /-- Sleep until there is a signal to consume. -/
  | wait
  /-- Sleep until there is a signal to consume, but no longer than this. -/
  | waitTimeout (timeout : Duration)
  /-- Consume a pending signal, if there is one. -/
  | tryWait
  /-- Is a signal pending? -/
  | isSignaled
  /-- The state of the flag. -/
  | state
  /-- The counters. -/
  | stats
  deriving DecidableEq

/-- What a call gives to its caller. -/
inductive Reply where
  /-- It is done: the signal was latched, or one was consumed. -/
  | done
  /-- Yes or no. -/
  | flag (b : Bool)
  /-- The bounded wait ran out. -/
  | timedOut
  /-- The state of the flag. -/
  | state (s : State)
  /-- The counters. -/
  | stats (s : Stats)
  /-- It ended in a fault. -/
  | fault (f : Fault)
  deriving DecidableEq

/-- What a call does at the end of a stay inside the lock. -/
inductive Verdict where
  /-- It leaves with its answer. -/
  | answer (r : Reply)
  /-- It wakes a sleeper and then leaves. -/
  | announce
  /-- It sleeps, for no longer than the bound if there is one. -/
  | sleep (bound : Option Duration)
  deriving DecidableEq

/-- One stay inside the lock of a call that was made at `since`; the clock is at
`now`. -/
def Call.inside (c : Call) (since now : Instant) : Attempt Latch Verdict :=
  match c with
  | .signal => do
    let _ ← Latch.post
    return .announce
  | .wait => do
    if ← Latch.take then
      return .answer .done
    else
      return .sleep none
  | .waitTimeout timeout => do
    if ← Latch.take then
      return .answer .done
    else
      -- a signal counts even after the deadline, so the time is looked at only here
      let remaining := (Deadline.startingAt since timeout).remainingAt now
      if remaining.isZero then
        Latch.recordTimeout
        return .answer .timedOut
      else
        return .sleep (some remaining)
  | .tryWait => do
    return .answer (.flag (← Latch.take))
  | .isSignaled => do
    return .answer (.flag (← get).signaled)
  | .state => do
    return .answer (.state (← get).state)
  | .stats => do
    return .answer (.stats (← get).stats)

/-- Is there a bound on the time that the call sleeps? -/
def Call.isBounded : Call → Bool
  | .waitTimeout _ => true
  | _ => false

end AutoReset
