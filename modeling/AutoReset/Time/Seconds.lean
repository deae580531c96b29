import AutoReset.Number.Binary64
import AutoReset.Time.Duration
/-!
# Durations from floating-point seconds

A number of seconds becomes a duration if it is not negative and below `2 ^ 64`.
The exact value of the number is rounded to whole nanoseconds, a half to the even
neighbour. A negated zero is not negative, and what is no number is refused like a
number that is too large; negative infinity is negative.
-/

namespace AutoReset

/-- Why a number of seconds is no duration. -/
inductive SecondsError where
  /-- It is below zero. -/
  | negative
  /-- It is `2 ^ 64` or more, or no number. -/
  | tooLarge
  deriving DecidableEq, Repr

/-- The reason in words. -/
def SecondsError.message : SecondsError → String
  | negative => "cannot convert float seconds to Duration: value is negative"
  | tooLarge => "cannot convert float seconds to Duration: value is either too big or NaN"

/-- The nanoseconds in `mantissa * 2 ^ exponent` seconds, rounded. -/
def nanosOfSeconds (mantissa : Nat) (exponent : Int) : Nat :=
  Binary64.scaledQuotient (mantissa * 1000000000) 1 exponent

/-- The duration of this many nanoseconds, if it is in range. -/
def Duration.ofNanos? (n : Nat) : Option Duration :=
  Duration.mk? (n / 1000000000) (n % 1000000000)

/-- **A duration is found by its exact number.** -/
theorem Duration.ofNanos?_eq_some_iff {n : Nat} {d : Duration} :
    ofNanos? n = some d ↔ d.toNanos = n := by
  have hs := d.secs_lt
  have hn := d.nanos_lt
  unfold ofNanos? mk? toNanos
  split
  · rw [Option.some.injEq, ← toNanos_inj]
    simp only [toNanos]
    omega
  · simp only [reduceCtorEq, false_iff]
    omega

/-- The duration of a number of seconds. -/
def Duration.ofSeconds (x : Binary64) : Except SecondsError Duration :=
  match x.value with
  | .nan => .error .tooLarge
  | .infinite negative => .error (if negative then .negative else .tooLarge)
  | .finite negative mantissa exponent =>
    if negative ∧ mantissa ≠ 0 then .error .negative
    else if Binary64.powerLe (64 - exponent) mantissa 1 then .error .tooLarge
    else
      match Duration.ofNanos? (nanosOfSeconds mantissa exponent) with
      | some d => .ok d
      | none => .error .tooLarge

end AutoReset
