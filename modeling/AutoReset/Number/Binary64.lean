import AutoReset.Number.Rounding
/-!
# Binary floating-point numbers of 64 bits

A floating-point number is kept as its bits: a sign, eleven bits of exponent and
fifty-two of fraction. Three operations are needed. `AutoReset.Binary64.value` reads
the bits as an exact number, a signed natural number times a power of two, or as
an infinity or as no number at all, and `AutoReset.Binary64.le` compares two such
values exactly. `AutoReset.Binary64.nearest` goes the other way: from a fraction to
the bits of the number nearest to it, where a tie goes to the one with an even last
bit, and what is too large becomes infinite. It works out the exponent from the sizes
of numerator and denominator and leaves the rest to one rounded quotient; a quotient
that rounds up to the next power of two carries into the exponent bits by itself.
-/

namespace AutoReset

/-- The bits of a floating-point number. -/
structure Binary64 where
  /-- Sign, exponent and fraction, from the top bit down. -/
  bits : UInt64
  deriving DecidableEq

namespace Binary64

/-- What the bits stand for. -/
inductive Value where
  /-- The number `mantissa * 2 ^ exponent`, negated if that is said. A zero can be
  negated too. -/
  | finite (negative : Bool) (mantissa : Nat) (exponent : Int)
  /-- Larger than every number, or smaller if negated. -/
  | infinite (negative : Bool)
  /-- No number. -/
  | nan
  deriving DecidableEq

/-- The number of values of the fraction bits. -/
def fractions : Nat := 1 <<< 52

/-- The exponent bits that stand for no finite number. -/
def topExponent : Nat := 2047

/-- Reads the bits. -/
def value (x : Binary64) : Value :=
  let n := x.bits.toNat
  let negative := decide (0x8000000000000000 ≤ n)
  let exponent := n / fractions % 2048
  let fraction := n % fractions
  if exponent = topExponent then
    if fraction = 0 then .infinite negative else .nan
  else if exponent = 0 then .finite negative fraction (-1074)
  else .finite negative (fractions + fraction) (exponent - 1075)

/-- The integer `mantissa * 2 ^ shift`, or its negation. -/
def scaled (negative : Bool) (mantissa shift : Nat) : Int :=
  if negative then -(mantissa <<< shift : Nat) else (mantissa <<< shift : Nat)

/-- Is one value at most another? What is no number compares with nothing. Two numbers
are compared as multiples of the smaller power of two. -/
def Value.le : Value → Value → Bool
  | .nan, _ | _, .nan => false
  | .infinite s, .infinite t => s || !t
  | .infinite s, .finite .. => s
  | .finite .., .infinite t => !t
  | .finite s m e, .finite t n f =>
    scaled s m (e - min e f).toNat ≤ scaled t n (f - min e f).toNat

/-- Is one floating-point number at most another? -/
def le (x y : Binary64) : Bool := x.value.le y.value

/-- The number with these bits below its sign. -/
def ofMagnitude (negative : Bool) (magnitude : Nat) : Binary64 :=
  ⟨UInt64.ofNat ((if negative then 0x8000000000000000 else 0) + magnitude)⟩

/-- The bits below the sign of the infinite numbers. -/
def infiniteMagnitude : Nat := topExponent * fractions

/-- Infinity. -/
def infinity (negative : Bool) : Binary64 := ofMagnitude negative infiniteMagnitude

/-- A value that is no number. -/
def notANumber : Binary64 := ofMagnitude false (infiniteMagnitude + fractions / 2)

/-- Zero. -/
def zero (negative : Bool) : Binary64 := ofMagnitude negative 0

/-- The quotient `num / den * 2 ^ shift`, rounded. -/
def scaledQuotient (num den : Nat) (shift : Int) : Nat :=
  roundDiv (num <<< shift.toNat) (den <<< (-shift).toNat)

/-- Is `2 ^ k` at most `num / den`? -/
def powerLe (k : Int) (num den : Nat) : Bool :=
  den <<< k.toNat ≤ num <<< (-k).toNat

/-- The exponent of the largest power of two that is at most `num / den`. -/
def floorLog (num den : Nat) : Int :=
  let k : Int := num.log2 - den.log2
  if powerLe k num den then k else k - 1

/-- The number nearest to `num / den`, or to its negation. -/
def nearest (negative : Bool) (num den : Nat) : Binary64 :=
  if num = 0 then zero negative
  else
    -- fifty-three bits for a number of usual size, fewer at the lower end
    let exponent := max (floorLog num den - 52) (-1074)
    let magnitude := (exponent + 1074).toNat * fractions + scaledQuotient num den (-exponent)
    ofMagnitude negative (min magnitude infiniteMagnitude)

/-- The number nearest to an integer. -/
def ofInt (z : Int) : Binary64 := nearest (z < 0) z.natAbs 1

example : (ofInt 3).value = .finite false (3 <<< 51) (-51) := by decide +kernel

example : (nearest false 1 10).bits = 0x3FB999999999999A := by decide +kernel

example : (nearest false 1 10).le (ofInt 1) ∧ ¬(ofInt 1).le (nearest false 1 10) := by
  decide +kernel

end Binary64

end AutoReset
