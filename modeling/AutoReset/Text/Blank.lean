/-!
# Blanks

The characters that leave a gap and no mark: those with the white-space property
of Unicode 14, as closed ranges of code points. The blanks of ASCII are among
them (`AutoReset.Text.isBlank_of_isWhitespace`), and the separators below the
space are not.
-/

namespace AutoReset.Text

/-- The blanks, as closed ranges of code points, ascending and apart. -/
def blankRanges : List (Nat × Nat) :=
  [(0x09, 0x0D), (0x20, 0x20), (0x85, 0x85), (0xA0, 0xA0), (0x1680, 0x1680), (0x2000, 0x200A),
    (0x2028, 0x2029), (0x202F, 0x202F), (0x205F, 0x205F), (0x3000, 0x3000)]

/-- Is the character a blank? -/
def isBlank (c : Char) : Bool :=
  blankRanges.any fun r => r.1 ≤ c.toNat && c.toNat ≤ r.2

/-- The table takes in what is a blank in ASCII. -/
theorem isBlank_of_isWhitespace {c : Char} (h : c.isWhitespace = true) : isBlank c = true := by
  simp only [Char.isWhitespace, Bool.or_eq_true, decide_eq_true_eq] at h
  rcases h with ((h | h) | h) | h <;> subst h <;> decide

example : (blankRanges.map fun r => r.2 + 1 - r.1).sum = 25 := by decide

example : isBlank 'a' = false ∧ isBlank '\x1f' = false ∧ isBlank '\u200b' = false := by decide

end AutoReset.Text
