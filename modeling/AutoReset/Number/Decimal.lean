import AutoReset.Number.Binary64
import AutoReset.Text.Blank
import AutoReset.Text.DecimalDigit
/-!
# Reading numbers from a text

Two readers, for whole numbers and for floating-point numbers. The digits may be
those of any script, and the blanks around the number any blanks: both are first
written in ASCII (`AutoReset.Decimal.toAscii`). Then the blanks on both sides are
dropped, a sign may stand before the number, and single underscores may stand
between digits. A floating-point number may have a point and an exponent, or be
one of the words for infinity and for no number, in letters of either size.

A decimal stands for an exact fraction, which is then rounded once. Exponents are
cut off where the result is certainly zero or infinite, so that no text asks for a
number with more digits than its own length and a constant allow.
-/

namespace AutoReset.Decimal

/-- Writes a digit as the one of ASCII with its value, and a blank as a space. -/
def toAscii (c : Char) : Char :=
  if Text.isBlank c then ' '
  else
    match Text.digit? c with
    | some d => Char.ofNat ('0'.toNat + d)
    | none => c

/-- Drops the spaces on both sides. -/
def strip (text : List Char) : List Char :=
  ((text.dropWhile (· = ' ')).reverse.dropWhile (· = ' ')).reverse

/-- The characters of a number in a text. -/
def trimmed (text : List Char) : List Char :=
  strip (text.map toAscii)

/-- Reads a sign. True stands for minus. -/
def readSign : List Char → Bool × List Char
  | '-' :: rest => (true, rest)
  | '+' :: rest => (false, rest)
  | rest => (false, rest)

/-- The value of a digit. -/
def digitValue (c : Char) : Nat := c.toNat - '0'.toNat

/-- Takes the digits at the start, over single underscores between them. -/
def spanDigits : List Char → List Nat × List Char
  | [] => ([], [])
  | c :: rest =>
    if c.isDigit then
      let (ds, rest) := spanAfterDigit rest
      (digitValue c :: ds, rest)
    else ([], c :: rest)
where
  /-- Goes on behind a digit. -/
  spanAfterDigit : List Char → List Nat × List Char
    | [] => ([], [])
    | [c] => if c.isDigit then ([digitValue c], []) else ([], [c])
    | c :: d :: rest =>
      if c.isDigit then
        let (ds, rest) := spanAfterDigit (d :: rest)
        (digitValue c :: ds, rest)
      else if c = '_' ∧ d.isDigit then
        let (ds, rest) := spanAfterDigit rest
        (digitValue d :: ds, rest)
      else ([], c :: d :: rest)

/-- The number with these digits, first digit first. -/
def ofDigits (ds : List Nat) : Nat := ds.foldl (fun n d => 10 * n + d) 0

/-- Reads a whole number. -/
def readInt? (text : List Char) : Option Int :=
  let (negative, rest) := readSign (trimmed text)
  match spanDigits rest with
  | ([], _) => none
  | (ds, []) => some (if negative then -(ofDigits ds : Int) else ofDigits ds)
  | _ => none

/-- The number nearest to `digits * 10 ^ exponent`, where there are `length`
digits. -/
def nearest (negative : Bool) (digits length : Nat) (exponent : Int) : Binary64 :=
  if digits = 0 then .zero negative
  else if 400 < exponent then .infinity negative
  else if exponent + length < -400 then .zero negative
  else .nearest negative (digits * Nat.pow 10 exponent.toNat) (Nat.pow 10 (-exponent).toNat)

/-- Reads an exponent: a sign and digits, behind an `e`. -/
def readExponent? : List Char → Option Int
  | [] => some 0
  | e :: rest =>
    if e = 'e' ∨ e = 'E' then
      let (negative, rest) := readSign rest
      match spanDigits rest with
      | ([], _) => none
      | (ds, []) => some (if negative then -(ofDigits ds : Int) else ofDigits ds)
      | _ => none
    else none

/-- Reads the digits behind a point. -/
def readFraction : List Char → List Nat × List Char
  | '.' :: rest => spanDigits rest
  | rest => ([], rest)

/-- Reads a floating-point number. -/
def readFloat? (text : List Char) : Option Binary64 :=
  let (negative, rest) := readSign (trimmed text)
  match String.ofList (rest.map Char.toLower) with
  | "inf" | "infinity" => some (.infinity negative)
  | "nan" => some .notANumber
  | _ =>
    let (whole, rest) := spanDigits rest
    let (fraction, rest) := readFraction rest
    let ds := whole ++ fraction
    if ds.isEmpty then none
    else
      (readExponent? rest).map fun e =>
        nearest negative (ofDigits ds) ds.length (e - fraction.length)

end AutoReset.Decimal
