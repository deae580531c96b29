/-!
# Rounding a quotient

A quotient of natural numbers is rounded to the nearest natural number, and one
that lies halfway between two goes to the even one. The rounded quotient is never
more than half a unit off (`AutoReset.roundDiv_mul_le`, `AutoReset.le_roundDiv_mul`).
-/

namespace AutoReset

/-- The quotient, rounded to the nearest number; a half goes to the even
neighbour. -/
def roundDiv (num den : Nat) : Nat :=
  let q := num / den
  let twice := 2 * (num % den)
  if twice < den then q
  else if den < twice then q + 1
  else if q % 2 = 0 then q
  else q + 1

private theorem div_mod_bounds (num den : Nat) (h : 0 < den) :
    num / den * den + num % den = num ∧ num % den < den :=
  ⟨by rw [Nat.mul_comm]; exact Nat.div_add_mod num den, Nat.mod_lt num h⟩

/-- **A rounded quotient is at most half a unit too large.** -/
theorem roundDiv_mul_le (num den : Nat) (h : 0 < den) :
    2 * (roundDiv num den * den) ≤ 2 * num + den := by
  obtain ⟨hq, hr⟩ := div_mod_bounds num den h
  unfold roundDiv
  simp only
  split
  · omega
  · split
    · rw [Nat.add_mul]
      omega
    · split
      · omega
      · rw [Nat.add_mul]
        omega

/-- **A rounded quotient is at most half a unit too small.** -/
theorem le_roundDiv_mul (num den : Nat) (h : 0 < den) :
    2 * num ≤ 2 * (roundDiv num den * den) + den := by
  obtain ⟨hq, hr⟩ := div_mod_bounds num den h
  unfold roundDiv
  simp only
  split
  · omega
  · split
    · rw [Nat.add_mul]
      omega
    · split
      · omega
      · rw [Nat.add_mul]
        omega

end AutoReset
