import AutoReset.Text.Number
/-!
# Numbers read back from a text

A number in a text has its digits in the middle. In front of them may stand the fill, a sign and
the mark `0x`, behind them the fill again. Reading goes through these in order
(`AutoReset.Text.Spec.readNumber`), and what has to be known for it is where each part ends.

* The digits end where a character stands that is no digit. So the fill must not be one, and
  neither must be what follows the number.
* What stands before the first digit is fill and sign. So the fill must not be `-`.
* How much fill there is behind the digits is not seen in the text, for what follows the number
  may begin with the same character. It follows from the width and from the number of digits.

Zeros that fill up a number are read as digits, and do no harm
(`AutoReset.Text.Radix.value_replicate_append`). With any other fill that can be told from a number
(`AutoReset.Text.Radix.IsFiller`), a number is read back from its text at every width
(`AutoReset.Text.Spec.readNumber_append`).
-/

namespace AutoReset.Text

/-! ### Digits and their values -/

namespace Radix

/-- The digits, in ascending order. -/
def alphabet : Radix → List Char
  | decimal => "0123456789".toList
  | lowerHex => "0123456789abcdef".toList
  | upperHex => "0123456789ABCDEF".toList

/-- How many digits there are. -/
def base (r : Radix) : Nat := r.alphabet.length

/-- Is the character a digit? -/
def isDigit (r : Radix) (c : Char) : Bool := r.alphabet.contains c

/-- The number that a row of digits stands for. -/
def value (r : Radix) (cs : List Char) : Nat :=
  cs.foldl (fun n c => n * r.base + r.alphabet.idxOf c) 0

variable {r : Radix} {n : Nat} {cs ds : List Char}

/-- A number below the base is one digit. -/
theorem digits_of_lt : ∀ {r : Radix} {n : Nat}, n < r.base →
    r.digits n = [r.alphabet.getD n '0'] := by
  intro r n hn
  revert n
  cases r <;> decide

/-- Any other number has one digit more than its quotient by the base. -/
theorem digits_of_le (hn : r.base ≤ n) :
    r.digits n = r.digits (n / r.base) ++ r.digits (n % r.base) := by
  have hsplit : ∀ b, 1 < b → b ≤ n →
      Nat.toDigits b n = Nat.toDigits b (n / b) ++ Nat.toDigits b (n % b) := by
    intro b hb hbn
    rw [Nat.toDigits_of_base_le hb hbn, Nat.toDigits_of_lt_base (Nat.mod_lt n (by omega))]
  cases r with
  | decimal => exact hsplit 10 (by decide) hn
  | lowerHex => exact hsplit 16 (by decide) hn
  | upperHex =>
    exact (congrArg _ (hsplit 16 (by decide) hn)).trans List.map_append

theorem one_lt_base (r : Radix) : 1 < r.base := by
  cases r <;> decide

theorem digits_ne_nil (r : Radix) (n : Nat) : r.digits n ≠ [] := by
  cases r <;> simp [digits]

theorem isDigit_getD : ∀ {r : Radix} {n : Nat}, n < r.base →
    r.isDigit (r.alphabet.getD n '0') = true ∧ r.value [r.alphabet.getD n '0'] = n := by
  intro r n hn
  revert n
  cases r <;> decide

/-- The value goes through a row of digits from the left. -/
theorem value_append_singleton (cs : List Char) (c : Char) :
    r.value (cs ++ [c]) = r.value cs * r.base + r.value [c] := by
  simp [value, List.foldl_append]

/-- Zeros in front do not change the value. -/
theorem value_replicate_append (k : Nat) (cs : List Char) :
    r.value (List.replicate k '0' ++ cs) = r.value cs := by
  induction k with
  | zero => rfl
  | succ k ih =>
    have hzero : 0 * r.base + r.alphabet.idxOf '0' = 0 := by cases r <;> rfl
    rw [List.replicate_succ, List.cons_append]
    unfold value
    rw [List.foldl_cons, hzero]
    exact ih

/-- A number is written in digits. -/
theorem isDigit_of_mem_digits {c : Char} (hc : c ∈ r.digits n) : r.isDigit c = true := by
  induction n using Nat.strongRecOn with
  | ind n ih =>
    by_cases hn : n < r.base
    · rw [digits_of_lt hn, List.mem_singleton] at hc
      exact hc ▸ (isDigit_getD hn).1
    · have hmod := Nat.mod_lt n (Nat.lt_of_succ_lt r.one_lt_base)
      rw [digits_of_le (Nat.not_lt.mp hn), List.mem_append] at hc
      rcases hc with hc | hc
      · exact ih _ (Nat.div_lt_self (by omega) r.one_lt_base) hc
      · exact ih _ (by omega) hc

/-- **The digits of a number stand for it.** -/
theorem value_digits (r : Radix) (n : Nat) : r.value (r.digits n) = n := by
  induction n using Nat.strongRecOn with
  | ind n ih =>
    by_cases hn : n < r.base
    · rw [digits_of_lt hn]
      exact (isDigit_getD hn).2
    · have hmod := Nat.mod_lt n (Nat.lt_of_succ_lt r.one_lt_base)
      have hdiv := ih _ (Nat.div_lt_self (by omega) r.one_lt_base)
      rw [digits_of_le (Nat.not_lt.mp hn), digits_of_lt hmod, value_append_singleton, hdiv,
        (isDigit_getD hmod).2, Nat.mul_comm]
      exact Nat.div_add_mod n r.base

/-- Zeros in front of a number are digits as well. -/
theorem isDigit_of_mem_replicate_append {k : Nat} {c : Char}
    (hc : c ∈ List.replicate k '0' ++ r.digits n) : r.isDigit c = true := by
  rcases List.mem_append.mp hc with hc | hc
  · rw [List.eq_of_mem_replicate hc]
    cases r <;> rfl
  · exact isDigit_of_mem_digits hc

/-! ### What can stand beside a number -/

/-- Signs and punctuation are no digits. -/
theorem isDigit_eq_false (r : Radix) {c : Char}
    (hc : c ∈ ['-', '+'] ++ [',', ')', ' ', '\x7d', '\n']) : r.isDigit c = false := by
  have hall : (['-', '+'] ++ [',', ')', ' ', '\x7d', '\n']).all (r.isDigit · == false) = true := by
    cases r <;> decide
  exact eq_of_beq (List.all_eq_true.mp hall c hc)

/-- The character can fill up a number, and is not taken for a part of it nor for the end of a
line. -/
structure IsFiller (r : Radix) (fill : Char) : Prop where
  /-- It is no digit. -/
  digit : r.isDigit fill = false
  /-- It is no sign. -/
  sign : fill ≠ '-'
  /-- It does not begin a line. -/
  line : fill ≠ '\n'

/-- The rest of a text does not go on with a digit. -/
def Stops (r : Radix) (rest : List Char) : Prop :=
  ∀ c ∈ rest.head?, r.isDigit c = false

theorem stops_nil : r.Stops [] := fun _ h => nomatch h

theorem stops_cons {c : Char} {rest : List Char} (hc : r.isDigit c = false) :
    r.Stops (c :: rest) := by
  intro d hd
  cases hd
  exact hc

theorem stops_replicate_append {c : Char} {rest : List Char} (k : Nat) (hc : r.isDigit c = false)
    (hrest : r.Stops rest) : r.Stops (List.replicate k c ++ rest) := by
  cases k with
  | zero => exact hrest
  | succ k => exact stops_cons hc

end Radix

/-! ### Reading -/

/-- Reading takes characters from the front of a text, and may fail. -/
abbrev Reader := StateT (List Char) Option

namespace Reader

/-- The text has to come next. -/
def literal (text : List Char) : Reader Unit := fun cs =>
  if text.isPrefixOf cs then some ((), cs.drop text.length) else none

/-- Takes the characters up to the first one that is not as asked for. -/
def chars (p : Char → Bool) : Reader (List Char) := fun cs =>
  some (cs.takeWhile p, cs.dropWhile p)

variable {α β : Type} {x : Reader α} {f : α → Reader β} {cs text rest : List Char}

/-- What is read from a text, if all of it is read. -/
def whole (x : Reader α) (text : String) : Option α :=
  match x text.toList with
  | some (a, []) => some a
  | _ => none

/-- After a part that was read, reading goes on with the rest. -/
theorem bind_of_some {a : α} (h : x cs = some (a, rest)) : (x >>= f) cs = f a rest := by
  show (x cs >>= fun p => f p.1 p.2) = _
  rw [h]
  rfl

/-- Where a part cannot be read, the whole cannot. -/
theorem bind_of_none (h : x cs = none) : (x >>= f) cs = none := by
  show (x cs >>= fun p => f p.1 p.2) = _
  rw [h]
  rfl

theorem literal_append (text rest : List Char) : literal text (text ++ rest) = some ((), rest) := by
  unfold literal
  rw [if_pos (List.isPrefixOf_iff_prefix.mpr (List.prefix_append text rest)), List.drop_left]

theorem chars_append {p : Char → Bool} (htext : ∀ c ∈ text, p c = true)
    (hrest : ∀ c ∈ rest.head?, p c = false) : chars p (text ++ rest) = some (text, rest) := by
  have htake : rest.takeWhile p = [] := by
    cases rest with
    | nil => rfl
    | cons c rest => exact List.takeWhile_cons_of_neg (by simp [hrest c rfl])
  have hdrop : rest.dropWhile p = rest := by
    cases rest with
    | nil => rfl
    | cons c rest => exact List.dropWhile_cons_of_neg (by simp [hrest c rfl])
  unfold chars
  rw [List.takeWhile_append_of_pos htext, List.dropWhile_append_of_pos htext, htake, hdrop,
    List.append_nil]

end Reader

namespace Spec

/-- The mark of the radix, where the specification asks for it. -/
def mark (s : Spec) : List Char :=
  if s.alternate && s.radix != .decimal then ['0', 'x'] else []

/-- The sign of a number. -/
def sign (s : Spec) (negative : Bool) : List Char :=
  if negative then ['-'] else if s.plus then ['+'] else []

/-- How many fill characters stand behind a number of this length. -/
def behind (s : Spec) (length : Nat) : Nat :=
  let gap := s.width.toNat - length
  match s.align.getD .right with
  | .left => gap
  | .centre => gap - gap / 2
  | .right => 0

/-- Reads a number. -/
def readNumber (s : Spec) : Reader Int := do
  let before ← Reader.chars fun c => !s.radix.isDigit c
  Reader.literal s.mark
  let digits ← Reader.chars s.radix.isDigit
  let negative := before.contains '-'
  let length := (s.sign negative).length + s.mark.length + digits.length
  Reader.literal (List.replicate (s.behind length) s.fill)
  if digits.isEmpty then failure
  else return if negative then -(s.radix.value digits : Int) else s.radix.value digits

variable {s : Spec}

theorem behind_eq_zero {length : Nat} (h : s.width.toNat ≤ length) : s.behind length = 0 := by
  unfold behind
  rw [Nat.sub_eq_zero_of_le h]
  cases s.align.getD .right <;> rfl

/-- A text in a field has fill in front of it and behind it. -/
theorem exists_pad_eq (s : Spec) (text : List Char) : ∃ k,
    s.pad .right text =
      List.replicate k s.fill ++ (text ++ List.replicate (s.behind text.length) s.fill) := by
  unfold pad behind
  cases s.align.getD .right with
  | left => exact ⟨0, rfl⟩
  | centre => exact ⟨_, List.append_assoc _ _ _⟩
  | right => exact ⟨_, congrArg _ (List.append_nil text).symm⟩

/-- **The parts of a number**: sign, mark and digits. There may be zeros in front of the digits,
and fill around the whole. -/
theorem exists_number_eq (s : Spec) (z : Int) : ∃ k m, ∀ digits,
    digits = List.replicate m '0' ++ s.radix.digits z.natAbs →
    s.number z = List.replicate k s.fill ++ (s.sign (z < 0) ++ (s.mark ++ (digits ++
      List.replicate (s.behind ((s.sign (z < 0)).length + s.mark.length + digits.length))
        s.fill))) := by
  have hhead : s.head (z < 0) = s.sign (z < 0) ++ s.mark := rfl
  unfold number
  dsimp only
  rw [hhead]
  cases s.zeroPad with
  | true =>
    refine ⟨0, s.width.toNat -
      ((s.sign (z < 0) ++ s.mark).length + (s.radix.digits z.natAbs).length), ?_⟩
    rintro digits rfl
    rw [behind_eq_zero (by simp; omega)]
    simp
  | false =>
    obtain ⟨k, hk⟩ := s.exists_pad_eq (s.sign (z < 0) ++ s.mark ++ s.radix.digits z.natAbs)
    refine ⟨k, 0, ?_⟩
    rintro digits rfl
    rw [if_neg (by simp), hk]
    simp [Nat.add_assoc]

/-! ### What stands before the digits -/

theorem neg_mem_sign_iff {negative : Bool} : '-' ∈ s.sign negative ↔ negative = true := by
  unfold sign
  cases negative <;> cases s.plus <;> decide

theorem isDigit_of_mem_sign {negative : Bool} {c : Char} (hc : c ∈ s.sign negative) :
    s.radix.isDigit c = false := by
  have hsign : c ∈ ['-', '+'] := by
    unfold sign at hc
    cases negative <;> cases s.plus <;> simp_all
  exact s.radix.isDigit_eq_false (List.mem_append_left _ hsign)

/-- Fill and sign have no digit. -/
theorem isDigit_of_mem_before (hfill : s.radix.IsFiller s.fill) {k : Nat} {negative : Bool}
    {c : Char} (hc : c ∈ List.replicate k s.fill ++ s.sign negative) :
    s.radix.isDigit c = false := by
  rcases List.mem_append.mp hc with hc | hc
  · exact List.eq_of_mem_replicate hc ▸ hfill.digit
  · exact isDigit_of_mem_sign hc

/-- Fill and sign tell if the number is negative. -/
theorem contains_before (hfill : s.radix.IsFiller s.fill) (k : Nat) (negative : Bool) :
    (List.replicate k s.fill ++ s.sign negative).contains '-' = negative := by
  have hfree : '-' ∉ List.replicate k s.fill := fun h =>
    hfill.sign (List.eq_of_mem_replicate h).symm
  rw [Bool.eq_iff_iff, List.contains_iff_mem, List.mem_append, neg_mem_sign_iff]
  simp only [hfree, false_or]

/-- Mark and digits begin with a digit. -/
theorem isDigit_of_head?_mark {digits : List Char} (hne : digits ≠ [])
    (hall : ∀ c ∈ digits, s.radix.isDigit c = true) (rest : List Char) :
    ∀ c ∈ (s.mark ++ (digits ++ rest)).head?, s.radix.isDigit c = true := by
  unfold mark
  split
  · intro c hc
    cases hc
    cases s.radix <;> rfl
  · obtain ⟨d, digits, rfl⟩ := List.exists_cons_of_ne_nil hne
    intro c hc
    cases hc
    exact hall _ List.mem_cons_self

/-- **A number is read back from its text**, whatever stands behind it that does not go on with a
digit. -/
theorem readNumber_append (hfill : s.radix.IsFiller s.fill) (z : Int) {rest : List Char}
    (hrest : s.radix.Stops rest) : s.readNumber (s.number z ++ rest) = some (z, rest) := by
  obtain ⟨k, m, hnumber⟩ := s.exists_number_eq z
  obtain ⟨digits, hdigits⟩ : ∃ digits, digits = List.replicate m '0' ++ s.radix.digits z.natAbs :=
    ⟨_, rfl⟩
  have hall : ∀ c ∈ digits, s.radix.isDigit c = true := fun c hc =>
    Radix.isDigit_of_mem_replicate_append (hdigits ▸ hc)
  have hne : digits ≠ [] := hdigits ▸
    List.append_ne_nil_of_right_ne_nil _ (s.radix.digits_ne_nil _)
  have hvalue : s.radix.value digits = z.natAbs := by
    rw [hdigits, Radix.value_replicate_append, Radix.value_digits]
  rw [hnumber digits hdigits]
  generalize htail : List.replicate (s.behind _) s.fill = tail
  have hstop : s.radix.Stops (tail ++ rest) :=
    htail ▸ Radix.stops_replicate_append _ hfill.digit hrest
  have htext : List.replicate k s.fill ++ (s.sign (z < 0) ++ (s.mark ++ (digits ++ tail))) ++ rest =
      (List.replicate k s.fill ++ s.sign (z < 0)) ++ (s.mark ++ (digits ++ (tail ++ rest))) := by
    simp only [List.append_assoc]
  have hz : (if decide (z < 0) = true then -(z.natAbs : Int) else z.natAbs) = z := by
    simp only [decide_eq_true_eq]
    omega
  rw [htext]
  unfold readNumber
  rw [Reader.bind_of_some (Reader.chars_append
      (fun c hc => by rw [isDigit_of_mem_before hfill hc]; rfl)
      (fun c hc => by rw [isDigit_of_head?_mark hne hall _ c hc]; rfl)),
    Reader.bind_of_some (Reader.literal_append s.mark _),
    Reader.bind_of_some (Reader.chars_append hall hstop), contains_before hfill, htail,
    Reader.bind_of_some (Reader.literal_append tail rest), if_neg (by simpa using hne), hvalue, hz]
  rfl

/-- A number stands on one line. -/
theorem newline_not_mem_number (hfill : s.radix.IsFiller s.fill) (z : Int) :
    '\n' ∉ s.number z := by
  obtain ⟨k, m, hnumber⟩ := s.exists_number_eq z
  have hreplicate : ∀ k, '\n' ∉ List.replicate k s.fill := fun k h =>
    hfill.line (List.eq_of_mem_replicate h).symm
  have hsign : '\n' ∉ s.sign (z < 0) := by
    unfold sign
    cases decide (z < 0) <;> cases s.plus <;> decide
  have hmark : '\n' ∉ s.mark := by
    unfold mark
    split <;> decide
  have hdigits : '\n' ∉ List.replicate m '0' ++ s.radix.digits z.natAbs := fun h =>
    Bool.false_ne_true ((s.radix.isDigit_eq_false (by decide)).symm.trans
      (Radix.isDigit_of_mem_replicate_append h))
  rw [hnumber _ rfl, List.mem_append, List.mem_append, List.mem_append, List.mem_append]
  rintro (h | h | h | h | h)
  · exact hreplicate k h
  · exact hsign h
  · exact hmark h
  · exact hdigits h
  · exact hreplicate _ h

end Spec

end AutoReset.Text
