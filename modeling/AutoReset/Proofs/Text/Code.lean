import AutoReset.Text.Spec
/-!
# Format codes, part by part

A code is read from its characters (`AutoReset.Text.Spec.read?`). Here it is put together from
its parts (`AutoReset.Text.Code`): each part is there or is not, and there are no other codes.
Every code is read as what its parts say (`AutoReset.Text.Code.read?_text`), so that a statement
on codes can go through parts instead of characters.

What the reading has to tell apart is a fill and a code without one. The fill can be any
character, also one that stands for a part of its own, and it is known by the alignment behind
it. No other part of a code has the character of an alignment
(`AutoReset.Text.Code.alignOf?_of_mem_marks`).
-/

namespace AutoReset.Text

/-- The character of an alignment. -/
def Align.mark : Align → Char
  | .left => '<'
  | .centre => '^'
  | .right => '>'

/-- A format code. -/
structure Code where
  /-- The alignment, with the fill in front of it. -/
  place : Option (Option Char × Align) := none
  /-- Is there a `+`? -/
  plus : Bool := false
  /-- Is there a `#`? -/
  alternate : Bool := false
  /-- Is there a `0`? -/
  zeroPad : Bool := false
  /-- Is the number a width? -/
  wide : Bool := false
  /-- Is the number a precision? -/
  precise : Bool := false
  /-- The digits, in a code for texts that show how a value is built. -/
  kind : Option Radix := none
  deriving DecidableEq, Repr

namespace Code

/-! ### What a code says -/

/-- For what texts the code is. -/
def style (c : Code) : Style :=
  if c.kind.isSome then .debug else .display

/-- The digits of the numbers. -/
def radix (c : Code) : Radix :=
  c.kind.getD .decimal

/-- The fill that the code names. -/
def fill? (c : Code) : Option Char :=
  c.place.bind Prod.fst

/-- The code asks for a number, and is given one of more than sixteen bits. -/
def Overlong (c : Code) (n : Nat) : Prop :=
  (c.wide || c.precise) = true ∧ UInt16.size ≤ n

instance (c : Code) (n : Nat) : Decidable (c.Overlong n) :=
  inferInstanceAs (Decidable (_ ∧ _))

/-- The specification that the code stands for, with a number that is not too large. -/
def spec (c : Code) (n : Nat) : Spec where
  radix := c.radix
  alternate := c.alternate
  plus := c.plus
  zeroPad := c.zeroPad
  width := if c.wide then UInt16.ofNat n else 0
  precision := if c.precise then some (UInt16.ofNat n) else none
  align := c.place.map Prod.snd
  fill := c.fill?.getD ' '

/-! ### Its characters -/

/-- A part of a code that is there or is not. -/
def part (b : Bool) (mark : List Char) : List Char :=
  if b then mark else []

/-- The alignment, as it stands in a code. -/
def placing : Option (Option Char × Align) → List Char
  | none => []
  | some (none, a) => [a.mark]
  | some (some c, a) => [c, a.mark]

/-- The end of a code, which says the style and the digits. -/
def ending : Option Radix → List Char
  | none => []
  | some .decimal => ['?']
  | some .lowerHex => ['x', '?']
  | some .upperHex => ['X', '?']

/-- What follows the alignment. -/
def marks (c : Code) : List Char :=
  part c.plus ['+'] ++ (part c.alternate ['#'] ++ (part c.zeroPad ['0'] ++ (part c.wide ['w'] ++
    (part c.precise ['.', 'w'] ++ ending c.kind))))

/-- The characters of a code. -/
def text (c : Code) : List Char :=
  placing c.place ++ c.marks

example : ({ place := some (some '*', .centre), wide := true, kind := some .decimal } : Code).text =
    "*^w?".toList := rfl

/-! ### Reading a code -/

section Reading

open Spec

variable {c : Code} {x mark : Char} {b : Bool} {rest : List Char}

@[simp] theorem alignOf?_mark (a : Align) : alignOf? a.mark = some a := by
  cases a <;> rfl

theorem mem_part {part' : List Char} : x ∈ part b part' ↔ b = true ∧ x ∈ part' := by
  cases b <;> simp [part]

/-- What follows the alignment has no character of an alignment. -/
theorem alignOf?_of_mem_marks (hx : x ∈ c.marks) : alignOf? x = none := by
  have hmem : x ∈ "+#0w.?xX".toList := by
    obtain ⟨place, plus, alternate, zeroPad, wide, precise, kind⟩ := c
    simp only [marks, List.mem_append, mem_part] at hx
    rcases hx with h | h | h | h | h | h
    case inr.inr.inr.inr.inr =>
      cases kind with
      | none => cases h
      | some r => cases r <;> exact (by decide : _ ⊆ "+#0w.?xX".toList) h
    all_goals exact (by decide : _ ⊆ "+#0w.?xX".toList) h.2
  have hnone : "+#0w.?xX".toList.all (fun y => alignOf? y == none) = true := by decide
  exact eq_of_beq (List.all_eq_true.mp hnone x hmem)

/-- The alignment is read, and its fill is told by what stands behind it. -/
theorem readAlign_placing (place : Option (Option Char × Align))
    (hrest : ∀ x ∈ rest, alignOf? x = none) :
    readAlign plain (placing place ++ rest) =
      ({ align := place.map Prod.snd, fill := (place.bind Prod.fst).getD ' ' }, rest) := by
  match place with
  | none =>
    match rest with
    | [] => rfl
    | [x] => simp [placing, readAlign, hrest x, plain]
    | x :: y :: rest => simp [placing, readAlign, hrest x, hrest y, plain]
  | some (none, a) =>
    match rest with
    | [] => simp [placing, readAlign, plain]
    | y :: rest => simp [placing, readAlign, hrest y, plain]
  | some (some f, a) => simp [placing, readAlign, plain]

/-- A part of one character is read if it is there. -/
theorem readMark_part (hrest : mark ∉ rest.head?) :
    readMark mark (part b [mark] ++ rest) = (b, rest) := by
  cases b with
  | true => simp [part, readMark]
  | false =>
    match rest with
    | [] => rfl
    | x :: rest =>
      have hx : x ≠ mark := by simpa using hrest
      simp [part, readMark, hx]

theorem not_mem_head?_part {y : Char} {ys : List Char} (hy : x ≠ y) (hrest : x ∉ rest.head?) :
    x ∉ (part b (y :: ys) ++ rest).head? := by
  cases b with
  | true => simpa [part] using hy.symm
  | false => simpa [part] using hrest

theorem not_mem_head?_ending {kind : Option Radix} (hx : x ∉ ['?', 'x', 'X']) :
    x ∉ (ending kind).head? := by
  simp only [List.mem_cons, List.not_mem_nil, not_or] at hx
  match kind with
  | none => simp [ending]
  | some .decimal => simpa [ending] using Ne.symm hx.1
  | some .lowerHex => simpa [ending] using Ne.symm hx.2.1
  | some .upperHex => simpa [ending] using Ne.symm hx.2.2.1

/-- The specification with the number in its places. -/
def numbered (wide precise : Bool) (n : Nat) (s : Spec) : Except Fault Spec := do
  let width ← if wide then field n else .ok 0
  let precision ← if precise then (field n).map some else .ok none
  return { s with width, precision }

/-- The number is taken as it is, unless it is asked for and does not fit. -/
theorem numbered_eq (wide precise : Bool) (n : Nat) (s : Spec) :
    numbered wide precise n s =
      if (wide || precise) = true ∧ UInt16.size ≤ n then .error .fieldTooLarge
      else .ok { s with
        width := if wide then UInt16.ofNat n else 0
        precision := if precise then some (UInt16.ofNat n) else none } := by
  unfold numbered
  by_cases hn : n < UInt16.size
  · have hfield : field n = .ok (UInt16.ofNat n) := if_pos hn
    have hle : ¬ ((wide || precise) = true ∧ UInt16.size ≤ n) := fun h => Nat.not_le.mpr hn h.2
    rw [hfield, if_neg hle]
    cases wide <;> cases precise <;> rfl
  · have hfield : field n = .error .fieldTooLarge := if_neg hn
    have hle : UInt16.size ≤ n := Nat.not_lt.mp hn
    rw [hfield]
    cases wide <;> cases precise
    · rfl
    all_goals exact (if_pos ⟨by decide, hle⟩ : ite _ (Except.error Fault.fieldTooLarge) _ = _).symm

/-- The end of a code says the style and the digits; then the number goes where it is asked
for. -/
theorem numbered_ending (kind : Option Radix) (wide precise : Bool) (n : Nat) (s : Spec)
    (hs : s.radix = .decimal) :
    ((readKind s (ending kind)).map fun p => (p.1, numbered wide precise n p.2)) =
      some (if kind.isSome then .debug else .display,
        if (wide || precise) = true ∧ UInt16.size ≤ n then .error .fieldTooLarge
        else .ok { s with
          radix := kind.getD .decimal
          width := if wide then UInt16.ofNat n else 0
          precision := if precise then some (UInt16.ofNat n) else none }) := by
  have hread : readKind s (ending kind) =
      some (if kind.isSome then .debug else .display,
        { s with radix := kind.getD .decimal }) := by
    cases s
    cases hs
    match kind with
    | none | some .decimal | some .lowerHex | some .upperHex => rfl
  rw [hread]
  exact congrArg (fun e => some (_, e)) (numbered_eq wide precise n _)

/-- **Every code is read as what its parts say.** -/
theorem read?_text (c : Code) (n : Nat) :
    read? c.text n =
      some (c.style, if c.Overlong n then .error .fieldTooLarge else .ok (c.spec n)) := by
  obtain ⟨place, plus, alternate, zeroPad, wide, precise, kind⟩ := c
  unfold read? text
  rw [readAlign_placing place fun x => alignOf?_of_mem_marks]
  dsimp only [marks]
  rw [readMark_part, readMark_part, readMark_part, readMark_part]
  · -- what is left of the code is its precision and its end
    match precise, kind with
    | true, kind => exact numbered_ending kind wide true n _ rfl
    | false, none => exact numbered_ending none wide false n _ rfl
    | false, some .decimal => exact numbered_ending (some .decimal) wide false n _ rfl
    | false, some .lowerHex => exact numbered_ending (some .lowerHex) wide false n _ rfl
    | false, some .upperHex => exact numbered_ending (some .upperHex) wide false n _ rfl
  all_goals
    -- the character of a part is not that of a later one
    repeat refine not_mem_head?_part (by decide) ?_
    exact not_mem_head?_ending (by decide)

end Reading

end Code

end AutoReset.Text
