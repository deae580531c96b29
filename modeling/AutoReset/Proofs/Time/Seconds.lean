import AutoReset.Proofs.Time.Deadline
import AutoReset.Time.Seconds
import Mathlib.Algebra.Order.Field.Power
import Mathlib.Algebra.Order.Ring.Abs
import Mathlib.Algebra.Order.Ring.Rat
import Mathlib.Order.WithBotTop
import Mathlib.Tactic.Linarith
import Mathlib.Tactic.NormNum
import Mathlib.Tactic.Ring
/-!
# Which numbers of seconds are durations

The bits of a floating-point number stand for one exact value, a fraction or one of the two
infinities, or for no value at all (`AutoReset.Binary64.exactValue?`). It alone decides what
becomes of a number of seconds (`AutoReset.Duration.ofSeconds_cases`): what is no number, is below
zero, or is `2 ^ 64` or more is refused, and everything else is rounded to a whole number of
nanoseconds, which is never more than half a nanosecond off.

Rounding upwards does not lead past the longest duration. A number with bits behind the point is
below `2 ^ 53`, and one without them is a whole number of seconds, which is not rounded.
-/

namespace AutoReset

/-! ### Rounded quotients as fractions -/

section Rounding

variable {num den : Nat}

/-- A rounded quotient is at most a half off. -/
theorem abs_roundDiv_sub_le (num : Nat) (h : 0 < den) :
    |(roundDiv num den : ℚ) - num / den| ≤ 1 / 2 := by
  have hden : (0 : ℚ) < den := by exact_mod_cast h
  have habove : (2 * (roundDiv num den * den) : ℚ) ≤ 2 * num + den := by
    exact_mod_cast roundDiv_mul_le num den h
  have hbelow : (2 * num : ℚ) ≤ 2 * (roundDiv num den * den) + den := by
    exact_mod_cast le_roundDiv_mul num den h
  rw [abs_le]
  constructor
  · rw [neg_le_sub_iff_le_add, div_le_iff₀ hden]
    linarith
  · rw [sub_le_iff_le_add, ← sub_le_iff_le_add', le_div_iff₀ hden]
    linarith

/-- A quotient is rounded down to zero up to a half, for zero is even. -/
theorem roundDiv_eq_zero_iff (h : 0 < den) : roundDiv num den = 0 ↔ 2 * num ≤ den := by
  constructor
  · intro hzero
    have hbelow := le_roundDiv_mul num den h
    rw [hzero] at hbelow
    omega
  · intro hle
    have hq : num / den = 0 := Nat.div_eq_of_lt (by omega)
    have hr : num % den = num := Nat.mod_eq_of_lt (by omega)
    simp only [roundDiv, hq, hr]
    split
    · rfl
    · rw [if_neg (by omega), if_pos trivial]

/-- A whole number is not rounded. -/
theorem roundDiv_one (num : Nat) : roundDiv num 1 = num := by
  simp [roundDiv, Nat.mod_one]

end Rounding

namespace Binary64

/-! ### Exact values -/

/-- A number scaled by a power of two, in steps to one side or the other. -/
theorem shift_div_shift (num den : Nat) (shift : Int) :
    ((num <<< shift.toNat : Nat) : ℚ) / (den <<< (-shift).toNat : Nat) =
      num / den * 2 ^ shift := by
  rcases Int.eq_nat_or_neg shift with ⟨n, rfl | rfl⟩
  · simp [Nat.shiftLeft_eq, zpow_natCast]
    ring
  · simp [Nat.shiftLeft_eq, zpow_neg, zpow_natCast]
    ring

/-- **Powers of two are compared exactly.** -/
theorem powerLe_iff {k : Int} {num den : Nat} (h : 0 < den) :
    powerLe k num den = true ↔ (2 : ℚ) ^ k ≤ num / den := by
  have hden : (0 : ℚ) < den := by exact_mod_cast h
  rw [powerLe, decide_eq_true_eq]
  rcases Int.eq_nat_or_neg k with ⟨n, rfl | rfl⟩
  · simp only [Int.toNat_natCast, Int.toNat_neg_natCast, Nat.shiftLeft_eq, pow_zero, mul_one,
      zpow_natCast, le_div_iff₀ hden]
    rw [mul_comm den]
    exact_mod_cast Iff.rfl
  · have hpow : (0 : ℚ) < 2 ^ n := by positivity
    simp only [Int.toNat_neg_natCast, neg_neg, Int.toNat_natCast, Nat.shiftLeft_eq, pow_zero,
      mul_one, zpow_neg, zpow_natCast, le_div_iff₀ hden, inv_mul_le_iff₀ hpow]
    rw [mul_comm num]
    exact_mod_cast Iff.rfl

/-- The fraction that a finite number is. -/
def fraction (negative : Bool) (mantissa : Nat) (exponent : Int) : ℚ :=
  (if negative then -1 else 1) * (mantissa * 2 ^ exponent)

/-- The exact values: the fractions, and an infinity at either end. -/
abbrev Exact := WithBotTop ℚ

/-- **The exact value of a number**, unless it is none. -/
def exactValue? (x : Binary64) : Option Exact :=
  match x.value with
  | .finite negative mantissa exponent => some (fraction negative mantissa exponent : ℚ)
  | .infinite true => some ⊥
  | .infinite false => some ⊤
  | .nan => none

theorem fraction_of_negative {mantissa : Nat} (h : mantissa ≠ 0) (exponent : Int) :
    fraction true mantissa exponent < 0 := by
  have hm : (0 : ℚ) < mantissa := by exact_mod_cast Nat.pos_of_ne_zero h
  have hpos : (0 : ℚ) < mantissa * 2 ^ exponent := by positivity
  simp only [fraction, if_true]
  linarith

/-- The sign of a zero is of no account. -/
theorem fraction_of_not_negative {negative : Bool} {mantissa : Nat}
    (h : ¬(negative = true ∧ mantissa ≠ 0)) (exponent : Int) :
    fraction negative mantissa exponent = mantissa * 2 ^ exponent := by
  cases negative with
  | false => simp [fraction]
  | true =>
    have hm : mantissa = 0 := by simpa using h
    simp [fraction, hm]

/-- A finite number has no more than fifty-three bits. -/
theorem mantissa_lt {x : Binary64} {negative : Bool} {mantissa : Nat} {exponent : Int}
    (h : x.value = .finite negative mantissa exponent) : mantissa < 2 ^ 53 := by
  have hfraction : x.bits.toNat % fractions < fractions := Nat.mod_lt _ (by decide)
  have hpow : fractions + fractions = 2 ^ 53 := by decide
  simp only [value] at h
  split at h
  · split at h
    · cases h
    · cases h
  · split at h
    · cases h
      omega
    · cases h
      omega

end Binary64

/-! ### Rounding to nanoseconds -/

section Nanos

variable {mantissa : Nat} {exponent : Int}

/-- The number of nanoseconds is a quotient of whole numbers, which is then rounded. -/
theorem nanos_eq_div (mantissa : Nat) (exponent : Int) :
    (mantissa * 2 ^ exponent * 10 ^ 9 : ℚ) =
      ((mantissa * 1000000000) <<< exponent.toNat : Nat) / (1 <<< (-exponent).toNat : Nat) := by
  rw [Binary64.shift_div_shift]
  push_cast
  ring

theorem one_shiftLeft_pos (n : Nat) : 0 < 1 <<< n := by
  rw [Nat.shiftLeft_eq]
  positivity

/-- **The nanoseconds are at most a half off.** -/
theorem abs_nanosOfSeconds_sub_le (mantissa : Nat) (exponent : Int) :
    |(nanosOfSeconds mantissa exponent : ℚ) - mantissa * 2 ^ exponent * 10 ^ 9| ≤ 1 / 2 := by
  rw [nanos_eq_div]
  exact abs_roundDiv_sub_le _ (one_shiftLeft_pos _)

/-- No nanosecond is left exactly up to half of one. -/
theorem nanosOfSeconds_eq_zero_iff :
    nanosOfSeconds mantissa exponent = 0 ↔ (mantissa * 2 ^ exponent * 10 ^ 9 : ℚ) ≤ 1 / 2 := by
  have hden := one_shiftLeft_pos (-exponent).toNat
  have hcast : (0 : ℚ) < (1 <<< (-exponent).toNat : Nat) := by exact_mod_cast hden
  rw [nanos_eq_div, div_le_iff₀ hcast, nanosOfSeconds, Binary64.scaledQuotient, roundDiv_eq_zero_iff hden,
    ← @Nat.cast_le ℚ]
  push_cast
  constructor
  · intro h
    linarith
  · intro h
    linarith

/-- **Rounding does not lead past the longest duration.** -/
theorem nanosOfSeconds_le_max (hm : mantissa < 2 ^ 53)
    (h : (mantissa * 2 ^ exponent : ℚ) < 2 ^ 64) :
    nanosOfSeconds mantissa exponent ≤ Duration.max.toNanos := by
  have hmax : Duration.max.toNanos + 1 = 2 ^ 64 * 1000000000 := by
    simp only [Duration.toNanos, Duration.max]
    norm_num
  rcases Int.le_total 0 exponent with he | he
  · -- a whole number of seconds is not rounded
    obtain ⟨n, rfl⟩ := Int.eq_ofNat_of_zero_le he
    have hsecs : mantissa * 2 ^ n < 2 ^ 64 := by
      rw [zpow_natCast] at h
      exact_mod_cast h
    have hneg : (-(n : Int)).toNat = 0 := by omega
    rw [nanosOfSeconds, Binary64.scaledQuotient, hneg, Nat.shiftLeft_zero, roundDiv_one,
      Int.toNat_natCast, Nat.shiftLeft_eq, Nat.mul_right_comm]
    omega
  · have hround := (abs_le.mp (abs_nanosOfSeconds_sub_le mantissa exponent)).2
    have hscale : (2 : ℚ) ^ exponent ≤ 1 := zpow_le_one_of_nonpos₀ one_le_two he
    have hcast : (mantissa : ℚ) ≤ 2 ^ 53 := by exact_mod_cast hm.le
    have hle : (mantissa : ℚ) * 2 ^ exponent ≤ 2 ^ 53 * 1 :=
      mul_le_mul hcast hscale (by positivity) (by positivity)
    have hnanos : (nanosOfSeconds mantissa exponent : ℚ) ≤ (2 ^ 54 * 1000000000 : Nat) := by
      push_cast
      linarith
    have := Nat.cast_le.mp hnanos
    omega

end Nanos

/-! ### The classes of numbers -/

namespace Duration

variable {x : Binary64} {d : Duration}

/-- **The classes of numbers of seconds**, with what becomes of each: the exact value alone
decides. -/
inductive OfSeconds (x : Binary64) : Except SecondsError Duration → Prop
  /-- What is no number is refused. -/
  | nan (h : x.exactValue? = none) : OfSeconds x (.error .tooLarge)
  /-- What is below zero is refused. -/
  | negative {v : Binary64.Exact} (h : x.exactValue? = some v) (hv : v < (0 : ℚ)) :
    OfSeconds x (.error .negative)
  /-- What is `2 ^ 64` or more is refused. -/
  | tooLarge {v : Binary64.Exact} (h : x.exactValue? = some v) (hv : (2 ^ 64 : ℚ) ≤ v) :
    OfSeconds x (.error .tooLarge)
  /-- Everything else is rounded to the nearest nanosecond, and to none exactly up to half of
  one. -/
  | rounded {q : ℚ} {d : Duration} (h : x.exactValue? = some (q : Binary64.Exact)) (hq : 0 ≤ q)
    (hlt : q < 2 ^ 64) (hd : |(d.toNanos : ℚ) - q * 10 ^ 9| ≤ 1 / 2)
    (hzero : d = .zero ↔ q * 10 ^ 9 ≤ 1 / 2) : OfSeconds x (.ok d)

/-- **What becomes of a number of seconds.** -/
theorem ofSeconds_cases (x : Binary64) : OfSeconds x (ofSeconds x) := by
  unfold ofSeconds
  cases hx : x.value with
  | nan => exact .nan (by rw [Binary64.exactValue?, hx])
  | infinite negative =>
    cases negative with
    | true =>
      have hexact : x.exactValue? = some ⊥ := by rw [Binary64.exactValue?, hx]
      exact .negative hexact (WithBot.bot_lt_coe _)
    | false =>
      have hexact : x.exactValue? = some ⊤ := by rw [Binary64.exactValue?, hx]
      exact .tooLarge hexact le_top
  | finite negative mantissa exponent =>
    have hexact :
        x.exactValue? =
          some ((Binary64.fraction negative mantissa exponent : ℚ) : Binary64.Exact) := by
      rw [Binary64.exactValue?, hx]
    by_cases hneg : negative = true ∧ mantissa ≠ 0
    · obtain ⟨rfl, hm⟩ := hneg
      simp only [hm, ne_eq, not_false_eq_true, and_self, if_true]
      exact .negative hexact (WithBotTop.coe_lt_coe.mpr (Binary64.fraction_of_negative hm exponent))
    · rw [Binary64.fraction_of_not_negative hneg] at hexact
      simp only [if_neg hneg]
      -- the test for `2 ^ 64` compares without scaling the number
      have hscale : Binary64.powerLe (64 - exponent) mantissa 1 = true ↔
          (2 : ℚ) ^ 64 ≤ mantissa * 2 ^ exponent := by
        rw [Binary64.powerLe_iff Nat.one_pos, zpow_sub₀ two_ne_zero, div_le_iff₀ (by positivity),
          Nat.cast_one, div_one]
        rfl
      by_cases hlarge : Binary64.powerLe (64 - exponent) mantissa 1 = true
      · rw [if_pos hlarge]
        exact .tooLarge hexact (WithBotTop.coe_le_coe.mpr (hscale.mp hlarge))
      · rw [if_neg hlarge]
        have hlt := not_le.mp (mt hscale.mpr hlarge)
        have hmax := nanosOfSeconds_le_max (Binary64.mantissa_lt hx) hlt
        obtain ⟨d, hd⟩ := exists_of_le hmax
        rw [ofNanos?_eq_some_iff.mpr hd]
        refine .rounded hexact (by positivity) hlt ?_ ?_
        · rw [hd]
          exact abs_nanosOfSeconds_sub_le mantissa exponent
        · rw [← toNanos_eq_zero, hd, nanosOfSeconds_eq_zero_iff]

/-- Is the number one that no duration comes of? It is no number, it is below zero, or it is
`2 ^ 64` or more. -/
def Refused (x : Binary64) : Prop :=
  x.exactValue? = none ∨ ∃ v, x.exactValue? = some v ∧ (v < (0 : ℚ) ∨ (2 ^ 64 : ℚ) ≤ v)

/-- Does the number round to no time at all? It is zero or more, and at most half a
nanosecond. -/
def Vanishes (x : Binary64) : Prop :=
  ∃ q : ℚ, x.exactValue? = some (q : Binary64.Exact) ∧ 0 ≤ q ∧ q * 10 ^ 9 ≤ 1 / 2

theorem not_refused_of_exact {q : ℚ} (h : x.exactValue? = some (q : Binary64.Exact)) (hq : 0 ≤ q)
    (hlt : q < 2 ^ 64) : ¬Refused x := by
  rintro (hnan | ⟨v, hv, hbelow | habove⟩)
  · rw [h] at hnan
    cases hnan
  · cases h.symm.trans hv
    exact absurd (WithBotTop.coe_lt_coe.mp hbelow) (not_lt.mpr hq)
  · cases h.symm.trans hv
    exact absurd (WithBotTop.coe_le_coe.mp habove) (not_le.mpr hlt)

/-- **Exactly these are refused.** -/
theorem ofSeconds_eq_error_iff : (∃ e, ofSeconds x = .error e) ↔ Refused x := by
  have hclass := ofSeconds_cases x
  constructor
  · rintro ⟨e, he⟩
    rw [he] at hclass
    cases hclass with
    | nan h => exact .inl h
    | negative h hv => exact .inr ⟨_, h, .inl hv⟩
    | tooLarge h hv => exact .inr ⟨_, h, .inr hv⟩
  · intro hrefused
    cases hx : ofSeconds x with
    | error e => exact ⟨e, rfl⟩
    | ok d =>
      rw [hx] at hclass
      cases hclass with
      | rounded h hq hlt => exact absurd hrefused (not_refused_of_exact h hq hlt)

/-- **A duration is the exact value rounded to the nearest nanosecond.** -/
theorem abs_sub_le_of_ofSeconds (h : ofSeconds x = .ok d) :
    ∃ q : ℚ, x.exactValue? = some (q : Binary64.Exact) ∧
      |(d.toNanos : ℚ) - q * 10 ^ 9| ≤ 1 / 2 := by
  have hclass := ofSeconds_cases x
  rw [h] at hclass
  cases hclass with
  | rounded hexact _ _ hd => exact ⟨_, hexact, hd⟩

/-- **No time at all comes exactly of what is up to half a nanosecond.** -/
theorem ofSeconds_eq_zero_iff : ofSeconds x = .ok .zero ↔ Vanishes x := by
  have hclass := ofSeconds_cases x
  constructor
  · intro h
    rw [h] at hclass
    cases hclass with
    | rounded hexact hq _ _ hzero => exact ⟨_, hexact, hq, hzero.mp rfl⟩
  · rintro ⟨q, hexact, hq, hhalf⟩
    cases hx : ofSeconds x with
    | error e =>
      have hfit := not_refused_of_exact hexact hq (by linarith)
      exact absurd (ofSeconds_eq_error_iff.mp ⟨e, hx⟩) hfit
    | ok d =>
      rw [hx] at hclass
      cases hclass with
      | rounded h _ _ _ hzero =>
        cases hexact.symm.trans h
        rw [hzero.mpr hhalf]

/-- A zero of either sign is zero. -/
theorem vanishes_zero (negative : Bool) : Vanishes (.zero negative) := by
  have hvalue : (Binary64.zero negative).value = .finite negative 0 (-1074) := by
    cases negative with
    | false => decide
    | true => decide
  refine ⟨Binary64.fraction negative 0 (-1074), by rw [Binary64.exactValue?, hvalue], ?_, ?_⟩
  · simp [Binary64.fraction]
  · simp [Binary64.fraction]

end Duration

end AutoReset
