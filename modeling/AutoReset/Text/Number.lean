import AutoReset.Text.Spec
/-!
# Numbers in a text

The characters of a number under a format specification. A number has a head
(its sign, and `0x` where the specification asks for it) and digits. A number
shorter than the width grows in one of two ways: by zeros between head and
digits, or by the fill character around the whole, at the end of the field
unless an alignment says otherwise. A number longer than the width is written in
full (`AutoReset.Text.Spec.length_number`).

An address is a number that is always written in sixteens, with its mark. A padded
word stands in a field as well, at the start of it, and is cut to the precision.
-/

namespace AutoReset.Text

/-- The digits of a natural number in a radix. -/
def Radix.digits : Radix → Nat → List Char
  | .decimal, n => Nat.toDigits 10 n
  | .lowerHex, n => Nat.toDigits 16 n
  | .upperHex, n => (Nat.toDigits 16 n).map Char.toUpper

namespace Spec

/-- What stands before the digits: the sign, and the mark of the radix. -/
def head (s : Spec) (negative : Bool) : List Char :=
  (if negative then ['-'] else if s.plus then ['+'] else []) ++
    (if s.alternate && s.radix != .decimal then ['0', 'x'] else [])

/-- Puts a text into a field of the width; `usual` is where it stands if the
specification does not say. -/
def pad (s : Spec) (usual : Align) (text : List Char) : List Char :=
  let gap := s.width.toNat - text.length
  match s.align.getD usual with
  | .left => text ++ List.replicate gap s.fill
  | .right => List.replicate gap s.fill ++ text
  | .centre => List.replicate (gap / 2) s.fill ++ text ++ List.replicate (gap - gap / 2) s.fill

/-- The characters of a number. -/
def number (s : Spec) (z : Int) : List Char :=
  let head := s.head (z < 0)
  let digits := s.radix.digits z.natAbs
  -- filling up with zeros wins over a fill character and an alignment
  if s.zeroPad then
    head ++ List.replicate (s.width.toNat - (head.length + digits.length)) '0' ++ digits
  else
    s.pad .right (head ++ digits)

/-- The characters of an address. Where a text spreads over lines, an address has as many digits
as any. -/
def pointer (s : Spec) (n : Nat) : List Char :=
  { s with
    radix := .lowerHex
    alternate := true
    zeroPad := s.zeroPad || s.alternate
    width := if s.alternate && s.width == 0 then 18 else s.width : Spec }.number n

/-- What is written of a padded word. -/
def cut (s : Spec) (text : List Char) : List Char :=
  match s.precision with
  | none => text
  | some p => text.take p.toNat

/-- The characters of a padded word. -/
def padded (s : Spec) (text : List Char) : List Char := s.pad .left (s.cut text)

theorem length_pad (s : Spec) (usual : Align) (text : List Char) :
    (s.pad usual text).length = max s.width.toNat text.length := by
  unfold pad
  cases s.align.getD usual <;> simp <;> omega

/-- **A number fills its width**, and a longer one is not cut. -/
theorem length_number (s : Spec) (z : Int) :
    (s.number z).length =
      max s.width.toNat ((s.head (z < 0)).length + (s.radix.digits z.natAbs).length) := by
  unfold number
  cases s.zeroPad
  · simp [length_pad]
  · simp
    omega

end Spec

end AutoReset.Text
