import AutoReset.Fault
/-!
# Format specifications

A specification says how the numbers in a text are to be written: in which
radix, with which sign and mark, and how a short one is filled up to a width. It
is read from a short code such as `*^w?` or `#x?`, in which the letter `w` stands
for a number given beside it (`AutoReset.Text.Spec.read?`). A specification has
sixteen bits for a width and for a precision, so a code that has a `w` for a larger
number gives a fault (`AutoReset.Text.Spec.field_eq_error_iff`), while a code without a
`w` does not look at the number. The parts of a code come in one order:

* a fill character and an alignment `<`, `^` or `>`, the fill optional;
* a sign `+`, a mark `#`, a zero `0`, each optional;
* a width `w` and a precision `.w`, each optional;
* a kind: nothing, `?`, `x?` or `X?`.
-/

namespace AutoReset.Text

/-- The digits in which a number is written. -/
inductive Radix where
  /-- Ten digits. -/
  | decimal
  /-- Sixteen digits, small letters. -/
  | lowerHex
  /-- Sixteen digits, capital letters. -/
  | upperHex
  deriving DecidableEq, Repr

/-- The side of a field at which a short text stands. -/
inductive Align where
  /-- At the start of the field. -/
  | left
  /-- In the middle; an odd gap has its larger half behind the text. -/
  | centre
  /-- At the end of the field. -/
  | right
  deriving DecidableEq, Repr

/-- How the numbers of a text are written. -/
structure Spec where
  /-- The digits. -/
  radix : Radix := .decimal
  /-- Does a text spread over lines, and does a hexadecimal number carry `0x`? -/
  alternate : Bool := false
  /-- Does a number that is not negative carry `+`? -/
  plus : Bool := false
  /-- Is a short number filled up with zeros, behind its sign and mark? -/
  zeroPad : Bool := false
  /-- The least number of characters of a number. -/
  width : UInt16 := 0
  /-- The largest number of characters of a padded word. -/
  precision : Option UInt16 := none
  /-- Where a short number stands, if that is said. -/
  align : Option Align := none
  /-- What fills a gap. -/
  fill : Char := ' '
  deriving DecidableEq, Repr

/-- What a specification is applied to. -/
inductive Style where
  /-- The text for a reader. -/
  | display
  /-- The text that shows how a value is built. -/
  | debug
  deriving DecidableEq, Repr

namespace Spec

/-- Decimal numbers without decoration, all on one line. -/
def plain : Spec := {}

/-- Decimal numbers without decoration, one field a line. -/
def pretty : Spec := { alternate := true }

/-! ### Reading a code -/

/-- The alignment that a character stands for. -/
def alignOf? : Char → Option Align
  | '<' => some .left
  | '^' => some .centre
  | '>' => some .right
  | _ => none

/-- Reads a fill and an alignment, where there are any. -/
def readAlign (s : Spec) : List Char → Spec × List Char
  | c :: d :: rest =>
    match alignOf? d with
    | some a => ({ s with fill := c, align := some a }, rest)
    | none =>
      match alignOf? c with
      | some a => ({ s with align := some a }, d :: rest)
      | none => (s, c :: d :: rest)
  | [c] =>
    match alignOf? c with
    | some a => ({ s with align := some a }, [])
    | none => (s, [c])
  | [] => (s, [])

/-- Is the character next? Then it is read. -/
def readMark (mark : Char) : List Char → Bool × List Char
  | c :: rest => if c = mark then (true, rest) else (false, c :: rest)
  | [] => (false, [])

/-- Reads the kind that ends a code. -/
def readKind (s : Spec) : List Char → Option (Style × Spec)
  | [] => some (.display, s)
  | ['?'] => some (.debug, s)
  | ['x', '?'] => some (.debug, { s with radix := .lowerHex })
  | ['X', '?'] => some (.debug, { s with radix := .upperHex })
  | _ => none

/-- A number as a width or a precision; it faults if sixteen bits do not hold it. -/
def field (n : Nat) : Except Fault UInt16 :=
  if n < UInt16.size then .ok (UInt16.ofNat n) else .error .fieldTooLarge

/-- A number that fits is kept as it is. -/
theorem toNat_of_field {n : Nat} {w : UInt16} (h : field n = .ok w) : w.toNat = n := by
  unfold field at h
  split at h
  · next hn =>
    cases h
    exact UInt16.toNat_ofNat_of_lt' hn
  · cases h

/-- Exactly the numbers of more than sixteen bits do not fit. -/
theorem field_eq_error_iff {n : Nat} {f : Fault} :
    field n = .error f ↔ UInt16.size ≤ n ∧ f = .fieldTooLarge := by
  unfold field
  split
  · simp
    omega
  · simp
    exact ⟨fun h => ⟨by omega, h.symm⟩, fun h => h.2.symm⟩

/-- Reads a code, with the number for which its letter `w` stands. Nothing comes
of a text that is no code; of a code comes its style, and a specification unless the
number does not fit. -/
def read? (code : List Char) (number : Nat) : Option (Style × Except Fault Spec) :=
  let (s, code) := readAlign plain code
  let (plus, code) := readMark '+' code
  let (alternate, code) := readMark '#' code
  let (zeroPad, code) := readMark '0' code
  let (wide, code) := readMark 'w' code
  let (precise, code) :=
    match code with
    | '.' :: 'w' :: rest => (true, rest)
    | rest => (false, rest)
  (readKind { s with plus, alternate, zeroPad } code).map fun (style, s) =>
    (style, do
      let width ← if wide then field number else .ok 0
      let precision ← if precise then (field number).map some else .ok none
      return { s with width, precision })

example : read? "*^w?".toList 3 =
    some (.debug, .ok { fill := '*', align := some .centre, width := 3 }) := rfl

example : read? "#x?".toList (2 ^ 16) =
    some (.debug, .ok { alternate := true, radix := .lowerHex }) := rfl

example : read? ".w".toList (2 ^ 16) = some (.display, .error .fieldTooLarge) := rfl

end Spec

end AutoReset.Text
