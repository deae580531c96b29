import AutoReset.Latch.Text
import AutoReset.Proofs.Text.Code
import AutoReset.Proofs.Text.Flag
/-!
# The texts of a latch and of its parts tell them apart

A text under a format code is there to be read. For the counters this is not plain to see: they may
be written in one of two bases, with signs and marks, with zeros or fill around them, and to any
width. Still every text of counters is read back (`AutoReset.Stats.ofText?_text`), and so is every
text of a latch, with its flag (`AutoReset.Latch.ofText?_text`). So the texts of different values
are different. States and errors are words, which no code changes
(`AutoReset.Text.Code.exists_word_text`).

`AutoReset.Text.Code.faithful_texts` says this of all codes and all numbers. It has three limits.

* A fill must not be taken for a part of a number (`AutoReset.Text.Code.Clear`). A digit could be:
  filled up with ones at the end, 1 and 11 have the same text.
* A flag is a padded word, and a precision of zero leaves nothing of it. Any other leaves a letter
  that the other flag does not have there.
* A width and a precision must fit into sixteen bits. With a larger one there is no text at all, not
  even for a word that the number would not change (`AutoReset.Text.Code.width_not_ignored`).
-/

namespace AutoReset

open Text

/-! ### Counters and latches read back -/

/-- The count that a number stands for, if there is one. -/
def Counter.ofInt? (z : Int) : Option Counter :=
  if 0 ≤ z ∧ z < UInt64.size then some (UInt64.ofNat z.toNat) else none

theorem Counter.ofInt?_toNat (c : Counter) : ofInt? c.toNat = some c := by
  have hrange : 0 ≤ (c.toNat : Int) ∧ (c.toNat : Int) < UInt64.size :=
    ⟨Int.natCast_nonneg _, Int.ofNat_lt.mpr c.toNat_lt_size⟩
  unfold ofInt?
  rw [if_pos hrange, Int.toNat_natCast, UInt64.ofNat_toNat]

namespace Stats

/-- The counters that a row of numbers stands for. -/
def ofNumbers? : List Int → Option Stats
  | [posts, coalesced, consumed, timeouts] => do
    let posts ← Counter.ofInt? posts
    let coalesced ← Counter.ofInt? coalesced
    let consumed ← Counter.ofInt? consumed
    let timeouts ← Counter.ofInt? timeouts
    return { posts, coalesced, consumed, timeouts }
  | _ => none

/-- The counters in a text that was written under the specification. -/
def ofText? (s : Spec) (text : String) : Option Stats :=
  ((zero.tree.scan s 0).whole text).bind ofNumbers?

variable {s : Spec}

theorem numbers_tree (a : Stats) :
    a.tree.numbers = [(a.posts.toNat : Int), a.coalesced.toNat, a.consumed.toNat,
      a.timeouts.toNat] := rfl

theorem ofNumbers?_numbers (a : Stats) : ofNumbers? a.tree.numbers = some a := by
  rw [numbers_tree]
  unfold ofNumbers?
  simp only [Counter.ofInt?_toNat]
  rfl

/-- The texts of all counters have one form. -/
theorem scan_tree (a : Stats) (s : Spec) (d : Nat) : a.tree.scan s d = zero.tree.scan s d := rfl

/-- **The counters are read back from their text.** -/
theorem ofText?_text (hfill : s.radix.IsFiller s.fill) (a : Stats) :
    ofText? s (a.tree.text s) = some a := by
  have hwhole := a.tree.whole_scan_text hfill
  rw [scan_tree] at hwhole
  unfold ofText?
  rw [hwhole, Option.bind_some, ofNumbers?_numbers]

/-- Different counters have different texts. -/
theorem text_inj (hfill : s.radix.IsFiller s.fill) {a b : Stats} :
    b.tree.text s = a.tree.text s ↔ b = a := by
  refine ⟨fun h => Option.some.inj ?_, fun h => h ▸ rfl⟩
  rw [← ofText?_text hfill b, ← ofText?_text hfill a, h]

end Stats

namespace Latch

/-- The latch in a text that was written under the specification. -/
def ofText? (s : Spec) (text : String) : Option Latch :=
  [true, false].findSome? fun signaled =>
    (((⟨signaled, .zero⟩ : Latch).tree.scan s 0).whole text).bind fun zs =>
      (Stats.ofNumbers? zs).map (⟨signaled, ·⟩)

variable {s : Spec}

theorem numbers_tree (l : Latch) : l.tree.numbers = l.stats.tree.numbers := rfl

theorem scan_tree (b : Bool) (a : Stats) (s : Spec) (d : Nat) :
    (⟨b, a⟩ : Latch).tree.scan s d = (⟨b, .zero⟩ : Latch).tree.scan s d := rfl

theorem tree_eq (l : Latch) : l.tree = .record "Latch".toList (.cons "signaled".toList
    (.flag l.signaled) (.cons "stats".toList l.stats.tree .nil)) := rfl

theorem whole_scan_other (hfill : s.radix.IsFiller s.fill) (hprecision : s.precision ≠ some 0)
    (a b : Stats) :
    ((⟨true, a⟩ : Latch).tree.scan s 0).whole ((⟨false, b⟩ : Latch).tree.text s) = none := by
  have hscan : (⟨true, a⟩ : Latch).tree.scan s 0 ((⟨false, b⟩ : Latch).tree.render s) = none := by
    rw [tree_eq, tree_eq, Tree.scan, Tree.render]
    split
    · rw [Fields.scanLines, Fields.renderLines.eq_def]
      simp only [shift, List.append_assoc, literal_bind, bind_assoc]
      exact Reader.bind_of_none (Tree.scan_flag_other hfill.line hprecision 1 _)
    · simp only [shift, List.append_assoc, literal_bind]
      exact Reader.bind_of_none (Tree.scan_flag_other hfill.line hprecision 0 _)
  unfold Reader.whole Tree.text
  rw [String.toList_ofList, hscan]

/-- **The latch is read back from its text.** -/
theorem ofText?_text (hfill : s.radix.IsFiller s.fill) (hprecision : s.precision ≠ some 0)
    (l : Latch) : ofText? s (l.tree.text s) = some l := by
  obtain ⟨signaled, a⟩ := l
  have hwhole := (⟨signaled, a⟩ : Latch).tree.whole_scan_text hfill
  rw [scan_tree, numbers_tree] at hwhole
  have hread : (((⟨signaled, .zero⟩ : Latch).tree.scan s 0).whole
      ((⟨signaled, a⟩ : Latch).tree.text s)).bind (fun zs =>
        (Stats.ofNumbers? zs).map (Latch.mk signaled)) = some ⟨signaled, a⟩ := by
    rw [hwhole, Option.bind_some, Stats.ofNumbers?_numbers, Option.map_some]
  unfold ofText?
  cases signaled with
  | true => rw [List.findSome?_cons, hread]
  | false =>
    rw [List.findSome?_cons, whole_scan_other hfill hprecision, Option.bind_none,
      List.findSome?_cons, hread]

/-- Different latches have different texts. -/
theorem text_inj (hfill : s.radix.IsFiller s.fill) (hprecision : s.precision ≠ some 0)
    {l m : Latch} : m.tree.text s = l.tree.text s ↔ m = l := by
  refine ⟨fun h => Option.some.inj ?_, fun h => h ▸ rfl⟩
  rw [← ofText?_text hfill hprecision m, ← ofText?_text hfill hprecision l, h]

end Latch

/-! ### Words -/

theorem State.name_injective : Function.Injective State.name := by
  intro x y h
  cases x <;> cases y <;> simp_all [State.name]

/-- An error as it is written in a style. -/
def EventError.written : Style → EventError → String
  | .debug => EventError.name
  | .display => EventError.message

theorem EventError.written_injective (style : Style) : Function.Injective (written style) := by
  intro x y h
  cases style <;> cases x <;> cases y <;> simp_all [written, name, message]

theorem Text.Tree.text_ofString (word : String) (s : Spec) : (Tree.ofString word).text s = word :=
  String.ofList_toList

namespace Writable

/-- Every value shows how it is built. -/
theorem writer?_debug {style : Style} (h : style = .debug) (w : Writable) :
    w.writer? style = some w.tree.text := by
  rw [h]
  rfl

/-- An error can be written in every style, and its text is one word. -/
theorem writer?_error (style : Style) (e : EventError) :
    ∃ write, (Writable.error e).writer? style = some write ∧ ∀ s, write s = e.written style := by
  cases style with
  | debug => exact ⟨_, rfl, fun s => Tree.text_ofString _ s⟩
  | display => exact ⟨_, rfl, fun _ => rfl⟩

end Writable

/-! ### Values under a code -/

namespace Text.Code

variable {c : Code} {n : Nat}

/-- If the code names a fill, then one that can be told from a number. -/
def Clear (c : Code) : Prop :=
  ∀ f ∈ c.fill?, c.radix.IsFiller f

/-- The code of a style that says nothing more. -/
def bare : Style → Code
  | .display => {}
  | .debug => { kind := some .decimal }

/-- A clear code fills up numbers with what can be told from them. -/
theorem Clear.isFiller (h : c.Clear) (n : Nat) : (c.spec n).radix.IsFiller (c.spec n).fill := by
  show c.radix.IsFiller (c.fill?.getD ' ')
  cases hf : c.fill? with
  | none => exact ⟨c.radix.isDigit_eq_false (by decide), by decide, by decide⟩
  | some f => exact h f hf

/-- A precision is zero only if the number is. -/
theorem spec_precision_ne (h : ¬ c.Overlong n) (hprecise : c.precise = true → n ≠ 0) :
    (c.spec n).precision ≠ some 0 := by
  show (if c.precise then some (UInt16.ofNat n) else none) ≠ some 0
  cases hp : c.precise with
  | false => simp
  | true =>
    have hn : n < UInt16.size := by
      simpa [Overlong, hp] using h
    intro hzero
    have hnat := congrArg UInt16.toNat (Option.some.inj hzero)
    rw [UInt16.toNat_ofNat_of_lt' hn] at hnat
    exact hprecise hp hnat

/-- Which text a value has under a code. -/
theorem text?_eq (c : Code) (n : Nat) (w : Writable) :
    w.text? c.text n = (w.writer? c.style).map fun write =>
      if c.Overlong n then .error .fieldTooLarge else .ok (write (c.spec n)) := by
  unfold Writable.text?
  rw [read?_text]
  cases hw : w.writer? c.style with
  | none => simp [hw]
  | some write =>
    simp only [Option.bind_eq_bind, Option.bind_some, hw, Option.map_some]
    split <;> rfl

theorem text?_of_overlong (h : c.Overlong n) {w : Writable} {write : Spec → String}
    (hwrite : w.writer? c.style = some write) :
    w.text? c.text n = some (.error .fieldTooLarge) := by
  rw [text?_eq, hwrite, Option.map_some, if_pos h]

theorem text?_eq_ok_iff (h : ¬ c.Overlong n) {w : Writable} {write : Spec → String}
    (hwrite : w.writer? c.style = some write) {text : String} :
    w.text? c.text n = some (.ok text) ↔ write (c.spec n) = text := by
  rw [text?_eq, hwrite, Option.map_some, if_neg h, Option.some.injEq, Except.ok.injEq]

theorem style_bare (style : Style) : (bare style).style = style := by
  cases style <;> rfl

theorem not_overlong_bare (style : Style) : ¬ (bare style).Overlong 0 := by
  cases style <;> decide

/-- **A word is written as it stands under every code**, and different words make different
texts. -/
theorem exists_word_text {α : Type} {wrap : α → Writable} {word : α → String}
    (hword : Function.Injective word) (h : ¬ c.Overlong n)
    (hwriter : ∀ a, ∃ write, (wrap a).writer? c.style = some write ∧ ∀ s, write s = word a) (x : α) :
    ∃ text, (wrap x).text? c.text n = some (.ok text) ∧
      (wrap x).text? (bare c.style).text 0 = some (.ok text) ∧
      ∀ y, (wrap y).text? c.text n = some (.ok text) ↔ y = x := by
  have hiff : ∀ y text, (wrap y).text? c.text n = some (.ok text) ↔ word y = text := by
    intro y text
    obtain ⟨write, hwrite, hconst⟩ := hwriter y
    rw [text?_eq_ok_iff h hwrite, hconst]
  obtain ⟨write, hwrite, hconst⟩ := hwriter x
  rw [← style_bare c.style] at hwrite
  refine ⟨word x, (hiff x _).mpr rfl, ?_, fun y => (hiff y _).trans hword.eq_iff⟩
  exact (text?_eq_ok_iff (not_overlong_bare _) hwrite).mpr (hconst _)

/-- **Texts are faithful.** Take any code and any number for its width and its precision. If the
code asks for the number, and sixteen bits do not hold it, then nothing is written, whatever the
value. Otherwise

* counters have a text that no other counters have, and they are read back from it;
* a latch has one as well, with its flag and its counters, if the precision leaves something of the
  flag;
* a state is written as it is under the code that says nothing more, and differs from the other
  one;
* and so is an error, shown as it is built or in words. -/
theorem faithful_texts (c : Code) (n : Nat) :
    (c.Overlong n →
      (c.style = .debug → ∀ w : Writable, w.text? c.text n = some (.error .fieldTooLarge)) ∧
      ∀ e : EventError, (Writable.error e).text? c.text n = some (.error .fieldTooLarge)) ∧
    (¬ c.Overlong n →
      (c.style = .debug → c.Clear → ∀ a : Stats, ∃ text,
        (Writable.stats a).text? c.text n = some (.ok text) ∧
        Stats.ofText? (c.spec n) text = some a ∧
        ∀ b : Stats, (Writable.stats b).text? c.text n = some (.ok text) ↔ b = a) ∧
      (c.Clear → (c.precise = true → n ≠ 0) → ∀ l : Latch, ∃ text, l.tree.text (c.spec n) = text ∧
        Latch.ofText? (c.spec n) text = some l ∧
        ∀ m : Latch, m.tree.text (c.spec n) = text ↔ m = l) ∧
      (c.style = .debug → ∀ x : State, ∃ text,
        (Writable.state x).text? c.text n = some (.ok text) ∧
        (Writable.state x).text? (bare c.style).text 0 = some (.ok text) ∧
        ∀ y : State, (Writable.state y).text? c.text n = some (.ok text) ↔ y = x) ∧
      ∀ x : EventError, ∃ text, (Writable.error x).text? c.text n = some (.ok text) ∧
        (Writable.error x).text? (bare c.style).text 0 = some (.ok text) ∧
        ∀ y : EventError, (Writable.error y).text? c.text n = some (.ok text) ↔ y = x) := by
  refine ⟨fun h => ⟨fun hstyle w => ?_, fun e => ?_⟩, fun h => ⟨fun hstyle hclear a => ?_,
    fun hclear hprecise l => ?_, fun hstyle => ?_, ?_⟩⟩
  · exact text?_of_overlong h (Writable.writer?_debug hstyle w)
  · obtain ⟨write, hwrite, -⟩ := Writable.writer?_error c.style e
    exact text?_of_overlong h hwrite
  · have hiff : ∀ (b : Stats) text, _ ↔ b.tree.text (c.spec n) = text := fun b text =>
      text?_eq_ok_iff h (Writable.writer?_debug hstyle (.stats b))
    have hfill := hclear.isFiller n
    exact ⟨_, (hiff a _).mpr rfl, Stats.ofText?_text hfill a,
      fun b => (hiff b _).trans (Stats.text_inj hfill)⟩
  · have hfill := hclear.isFiller n
    have hprecision := spec_precision_ne h hprecise
    exact ⟨_, rfl, Latch.ofText?_text hfill hprecision l,
      fun _ => Latch.text_inj hfill hprecision⟩
  · exact exists_word_text State.name_injective h fun x =>
      ⟨_, Writable.writer?_debug hstyle _, fun s => Tree.text_ofString _ s⟩
  · exact exists_word_text (EventError.written_injective c.style) h (Writable.writer?_error c.style)

/-- Counters in the middle between stars, the same counters with a sign and zeros in front, a latch
over several lines, and an error with the largest precision and with one more. -/
theorem faithful_texts_starred :
    (∃ text, (Writable.stats { posts := 255, consumed := .last }).text? "*^w?".toList 7 =
        some (.ok text) ∧
      Stats.ofText? { fill := '*', align := some .centre, width := 7 } text =
        some { posts := 255, consumed := .last } ∧
      (Writable.stats .zero).text? "*^w?".toList 7 ≠ some (.ok text)) ∧
    (∃ text, (Writable.stats { posts := 255, consumed := .last }).text? "+#0wx?".toList 9 =
        some (.ok text) ∧
      Stats.ofText?
        { plus := true, alternate := true, zeroPad := true, width := 9, radix := .lowerHex } text =
          some { posts := 255, consumed := .last }) ∧
    (∃ text, (⟨true, .zero⟩ : Latch).tree.text .pretty = text ∧
      Latch.ofText? .pretty text = some ⟨true, .zero⟩) ∧
    (∃ text, (Writable.error .timeout).text? ".w".toList 65535 = some (.ok text) ∧
      (Writable.error .timeout).text? [] 0 = some (.ok text)) ∧
    (Writable.error .timeout).text? ".w".toList 65536 = some (.error .fieldTooLarge) := by
  refine ⟨?_, ?_, ?_, ?_, ?_⟩
  · have hclear : Clear { place := some (some '*', .centre), wide := true, kind := some .decimal } :=
      fun f hf => by cases hf; exact ⟨by decide, by decide, by decide⟩
    obtain ⟨text, htext, hread, hiff⟩ := ((faithful_texts _ 7).2 (by decide)).1 rfl hclear
      { posts := 255, consumed := .last }
    exact ⟨text, htext, hread, fun h => absurd ((hiff .zero).mp h) (by decide)⟩
  · have hcode := faithful_texts
      { plus := true, alternate := true, zeroPad := true, wide := true, kind := some .lowerHex } 9
    obtain ⟨text, htext, hread, -⟩ := (hcode.2 (by decide)).1 rfl (fun f hf => nomatch hf)
      { posts := 255, consumed := .last }
    exact ⟨text, htext, hread⟩
  · have hcode := faithful_texts { alternate := true, kind := some .decimal } 0
    obtain ⟨text, htext, hread, -⟩ := (hcode.2 (by decide)).2.1 (fun f hf => nomatch hf)
      (fun h => nomatch h) ⟨true, .zero⟩
    exact ⟨text, htext, hread⟩
  · have hcode := faithful_texts { precise := true } 65535
    obtain ⟨text, htext, hbare, -⟩ := (hcode.2 (by decide)).2.2.2 .timeout
    exact ⟨text, htext, hbare⟩
  · exact ((faithful_texts { precise := true } 65536).1 (by decide)).2 .timeout

/-- **A width or a precision that does not fit is not ignored**, also where the text would not
depend on it: the words of an error are not written with a precision of `2 ^ 16`, a state is not
written with such a width, and counters are not told apart. -/
theorem width_not_ignored :
    (Writable.error .timeout).text? ".w".toList 65536 = some (.error .fieldTooLarge) ∧
    (Writable.error .timeout).text? [] 65536 = some (.ok "timed out waiting for event") ∧
    (Writable.state .set).text? "w?".toList 65536 = some (.error .fieldTooLarge) ∧
    (Writable.state .set).text? "?".toList 65536 = some (.ok "Set") ∧
    (Writable.stats .zero).text? "w?".toList 65536 =
      (Writable.stats { posts := 1 }).text? "w?".toList 65536 ∧
    Fault.fieldTooLarge.message = "Formatting argument out of range" := by
  refine ⟨rfl, rfl, rfl, rfl, rfl, rfl⟩

/-- With a digit for a fill there would be two counts for one text. -/
example : ({ posts := 1 } : Stats).tree.text { fill := '1', align := some .left, width := 2 } =
    ({ posts := 11 } : Stats).tree.text { fill := '1', align := some .left, width := 2 } := rfl

end Text.Code

end AutoReset
