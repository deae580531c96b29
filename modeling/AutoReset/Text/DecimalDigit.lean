/-!
# Decimal digits

Many scripts have ten digits of their own, and in each of them the ten stand
side by side from zero to nine. So the decimal digits of Unicode 14 are told by
their zeros (`AutoReset.Text.digitZeros`), and the value of a digit is its distance
from the zero of its script. Numerals that are not part of such a ten, such as a
raised two, are no digits.
-/

namespace AutoReset.Text

/-- The code points of the zeros, ascending. -/
def digitZeros : List Nat :=
  [0x30, 0x660, 0x6F0, 0x7C0, 0x966, 0x9E6, 0xA66, 0xAE6, 0xB66, 0xBE6, 0xC66, 0xCE6, 0xD66,
    0xDE6, 0xE50, 0xED0, 0xF20, 0x1040, 0x1090, 0x17E0, 0x1810, 0x1946, 0x19D0, 0x1A80, 0x1A90,
    0x1B50, 0x1BB0, 0x1C40, 0x1C50, 0xA620, 0xA8D0, 0xA900, 0xA9D0, 0xA9F0, 0xAA50, 0xABF0,
    0xFF10, 0x104A0, 0x10D30, 0x11066, 0x110F0, 0x11136, 0x111D0, 0x112F0, 0x11450, 0x114D0,
    0x11650, 0x116C0, 0x11730, 0x118E0, 0x11950, 0x11C50, 0x11D50, 0x11DA0, 0x16A60, 0x16AC0,
    0x16B50, 0x1D7CE, 0x1D7D8, 0x1D7E2, 0x1D7EC, 0x1D7F6, 0x1E140, 0x1E2F0, 0x1E950, 0x1FBF0]

/-- The value of a digit of any script. -/
def digit? (c : Char) : Option Nat :=
  digitZeros.findSome? fun z => if z ≤ c.toNat ∧ c.toNat < z + 10 then some (c.toNat - z) else none

/-- A digit is worth less than ten. -/
theorem digit?_lt {c : Char} {d : Nat} (h : digit? c = some d) : d < 10 := by
  obtain ⟨z, -, hz⟩ := List.exists_of_findSome?_eq_some h
  split at hz
  · cases hz
    omega
  · cases hz

/-- In ASCII the value of a digit is its distance from the character zero. -/
theorem digit?_of_isDigit {c : Char} (h : c.isDigit = true) :
    digit? c = some (c.toNat - '0'.toNat) := by
  have hc : 48 ≤ c.toNat ∧ c.toNat < 58 := by
    simp only [Char.isDigit, Bool.and_eq_true, decide_eq_true_eq] at h
    obtain ⟨h₁, h₂⟩ := h
    have h₁' : 48 ≤ c.val.toNat := UInt32.le_iff_toNat_le.mp h₁
    have h₂' : c.val.toNat ≤ 57 := UInt32.le_iff_toNat_le.mp h₂
    exact ⟨h₁', Nat.lt_succ_of_le h₂'⟩
  simp [digit?, digitZeros, hc]

example : digitZeros.length = 66 := rfl

example : digit? '\u0663' = some 3 ∧ digit? '\u00b2' = none := by decide

end AutoReset.Text
