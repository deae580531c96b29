import AutoReset.Proofs.Text.Numeral
import AutoReset.Text.Tree
/-!
# Trees read back from their texts

A text shows a tree with its names, its words and its numbers. Of two trees that differ in their
numbers alone the texts differ in the numbers alone, so a text can be read by going along a tree of
the same form: what is not a number has to stand there as it is, flags and addresses included, and
the numbers are read (`AutoReset.Text.Tree.scan`). The text of a tree then gives back the numbers of
the tree, in their order (`AutoReset.Text.Tree.scan_render`).

Spread over lines, a text is moved right once for each record around it. So reading is done at a
depth, and at each depth the same pieces are looked for, moved as often
(`AutoReset.Text.shift`). Numbers stand on one line, and are not moved.
-/

namespace AutoReset.Text

/-! ### Moving right -/

theorem indent_append (a b : List Char) : indent (a ++ b) = indent a ++ indent b := by
  induction a with
  | nil => rfl
  | cons c a ih =>
    rw [List.cons_append, indent, indent, ih]
    split <;> rfl

/-- What stands on one line is not moved. -/
theorem indent_eq_self {a : List Char} (ha : '\n' ∉ a) : indent a = a := by
  induction a with
  | nil => rfl
  | cons c a ih =>
    rw [List.mem_cons, not_or] at ha
    rw [indent, if_neg (Ne.symm ha.1), ih ha.2]

/-- Moves every line but the first to the right, as often as said. -/
def shift : Nat → List Char → List Char
  | 0, text => text
  | d + 1, text => shift d (indent text)

theorem shift_append (d : Nat) (a b : List Char) : shift d (a ++ b) = shift d a ++ shift d b := by
  induction d generalizing a b with
  | zero => rfl
  | succ d ih =>
    unfold shift
    rw [indent_append, ih]

theorem shift_eq_self {a : List Char} (ha : '\n' ∉ a) (d : Nat) : shift d a = a := by
  induction d with
  | zero => rfl
  | succ d ih =>
    unfold shift
    rw [indent_eq_self ha, ih]

theorem shift_indent (d : Nat) (a : List Char) : shift d (indent a) = shift (d + 1) a := rfl

/-! ### Reading along a tree -/

mutual

/-- The numbers of a tree, in their order. -/
def Tree.numbers : Tree → List Int
  | .word _ => []
  | .flag _ => []
  | .number z => [z]
  | .pointer _ => []
  | .record _ fields => fields.numbers
  | .wrapper _ inner => inner.numbers

/-- The numbers of the fields of a record. -/
def Fields.numbers : Fields → List Int
  | .nil => []
  | .cons _ value rest => value.numbers ++ rest.numbers

end

open Reader

mutual

/-- Reads a text of the form of the tree at a depth, and gives the numbers in it. -/
def Tree.scan (s : Spec) (d : Nat) : Tree → Reader (List Int)
  | .word text => do
    literal (shift d text)
    return []
  | .flag b => do
    literal (shift d ((Tree.flag b).render s))
    return []
  | .number _ => do
    return [← s.readNumber]
  | .pointer n => do
    literal (shift d ((Tree.pointer n).render s))
    return []
  | .record name .nil => do
    literal (shift d name)
    return []
  | .record name (.cons first value rest) =>
    if s.alternate then do
      literal (shift d name)
      literal (shift d " \x7b\n".toList)
      let zs ← Fields.scanLines s d (.cons first value rest)
      literal (shift d ['\x7d'])
      return zs
    else do
      literal (shift d name)
      literal (shift d " \x7b ".toList)
      literal (shift d first)
      literal (shift d ": ".toList)
      let zs ← Tree.scan s d value
      let zs' ← Fields.scanInline s d rest
      literal (shift d " \x7d".toList)
      return zs ++ zs'
  | .wrapper name inner =>
    if s.alternate then do
      literal (shift d name)
      literal (shift d "(\n    ".toList)
      let zs ← Tree.scan s (d + 1) inner
      literal (shift d ",\n)".toList)
      return zs
    else do
      literal (shift d name)
      literal (shift d ['('])
      let zs ← Tree.scan s d inner
      literal (shift d [')'])
      return zs

/-- Reads the fields behind the first one on the same line. -/
def Fields.scanInline (s : Spec) (d : Nat) : Fields → Reader (List Int)
  | .nil => return []
  | .cons name value rest => do
    literal (shift d ", ".toList)
    literal (shift d name)
    literal (shift d ": ".toList)
    let zs ← Tree.scan s d value
    let zs' ← Fields.scanInline s d rest
    return zs ++ zs'

/-- Reads the fields that have lines of their own. -/
def Fields.scanLines (s : Spec) (d : Nat) : Fields → Reader (List Int)
  | .nil => return []
  | .cons name value rest => do
    literal (shift d "    ".toList)
    literal (shift d name)
    literal (shift d ": ".toList)
    let zs ← Tree.scan s (d + 1) value
    literal (shift d ",\n".toList)
    let zs' ← Fields.scanLines s d rest
    return zs ++ zs'

end

section Reading

variable {s : Spec}

theorem literal_bind {α : Type} (text rest : List Char) (f : Unit → Reader α) :
    (literal text >>= f) (text ++ rest) = f () rest :=
  bind_of_some (literal_append text rest)

/-- A text that begins with a mark, moved right, does not go on with a digit. -/
theorem stops_shift (d : Nat) (text rest : List Char)
    (htext : text.head?.any ([',', ')', ' ', '\x7d'].contains ·) = true) :
    s.radix.Stops (shift d text ++ rest) := by
  match text with
  | [] => cases htext
  | c :: text =>
    have hc : c ∈ [',', ')', ' ', '\x7d'] := List.contains_iff_mem.mp htext
    have hline : '\n' ∉ [c] := fun h => absurd (List.mem_singleton.mp h ▸ hc) (by decide)
    rw [← List.singleton_append, shift_append, shift_eq_self hline]
    exact Radix.stops_cons (s.radix.isDigit_eq_false
      ((by decide : _ ⊆ ['-', '+'] ++ [',', ')', ' ', '\x7d', '\n']) hc))

/-- So it is with the fields on the same line, and the end of a record behind them. -/
theorem stops_renderInline (d : Nat) (fields : Fields) (rest : List Char) :
    s.radix.Stops (shift d (fields.renderInline s) ++ (shift d " \x7d".toList ++ rest)) := by
  cases fields with
  | nil =>
    unfold Fields.renderInline
    rw [shift_eq_self (by decide)]
    exact stops_shift d _ rest (by decide)
  | cons name value fields =>
    rw [Fields.renderInline.eq_def]
    simp only [shift_append, List.append_assoc]
    exact stops_shift d _ _ (by decide)

mutual

/-- **The text of a tree gives back its numbers**, in every layout and at every depth. -/
theorem Tree.scan_render (hfill : s.radix.IsFiller s.fill) (d : Nat) :
    ∀ (t : Tree) {rest : List Char}, s.radix.Stops rest →
      t.scan s d (shift d (t.render s) ++ rest) = some (t.numbers, rest)
  | .word text, rest, _ => by
    rw [Tree.scan, Tree.render, literal_bind]
    rfl
  | .flag b, rest, _ => by
    rw [Tree.scan, literal_bind]
    rfl
  | .number z, rest, hrest => by
    rw [Tree.scan, Tree.render, shift_eq_self (s.newline_not_mem_number hfill z),
      bind_of_some (s.readNumber_append hfill z hrest)]
    rfl
  | .pointer n, rest, _ => by
    rw [Tree.scan, literal_bind]
    rfl
  | .record name .nil, rest, _ => by
    rw [Tree.scan, Tree.render, literal_bind]
    rfl
  | .record name (.cons first value fields), rest, hrest => by
    rw [Tree.scan, Tree.render]
    split
    · have hfields := Fields.scanLines_render hfill d (.cons first value fields)
      simp only [shift_append, List.append_assoc, literal_bind, bind_of_some (hfields _)]
      rfl
    · have hvalue := Tree.scan_render hfill d value (stops_renderInline d fields rest)
      have hfields := Fields.scanInline_render hfill d fields rest
      simp only [shift_append, List.append_assoc, literal_bind, bind_of_some hvalue,
        bind_of_some hfields]
      rfl
  | .wrapper name inner, rest, _ => by
    rw [Tree.scan, Tree.render]
    split
    · have hinner := Tree.scan_render hfill (d + 1) inner
        (stops_shift d ",\n)".toList rest (by decide))
      simp only [shift_append, shift_indent, List.append_assoc, literal_bind, bind_of_some hinner]
      rfl
    · have hinner := Tree.scan_render hfill d inner
        (stops_shift d [')'] rest (by decide))
      simp only [shift_append, List.append_assoc, literal_bind, bind_of_some hinner]
      rfl

theorem Fields.scanInline_render (hfill : s.radix.IsFiller s.fill) (d : Nat) :
    ∀ (fields : Fields) (rest : List Char),
      fields.scanInline s d (shift d (fields.renderInline s) ++ (shift d " \x7d".toList ++ rest)) =
        some (fields.numbers, shift d " \x7d".toList ++ rest)
  | .nil, rest => by
    unfold Fields.scanInline Fields.renderInline
    rw [shift_eq_self (by decide)]
    rfl
  | .cons name value fields, rest => by
    have hvalue := Tree.scan_render hfill d value (stops_renderInline d fields rest)
    have hfields := Fields.scanInline_render hfill d fields rest
    rw [Fields.scanInline, Fields.renderInline.eq_def]
    simp only [shift_append, List.append_assoc, literal_bind, bind_of_some hvalue,
      bind_of_some hfields]
    rfl

theorem Fields.scanLines_render (hfill : s.radix.IsFiller s.fill) (d : Nat) :
    ∀ (fields : Fields) (rest : List Char),
      fields.scanLines s d (shift d (fields.renderLines s) ++ rest) =
        some (fields.numbers, rest)
  | .nil, rest => by
    unfold Fields.scanLines Fields.renderLines
    rw [shift_eq_self (by decide)]
    rfl
  | .cons name value fields, rest => by
    have hvalue := Tree.scan_render hfill (d + 1) value (stops_shift d ",\n".toList
      (shift d (fields.renderLines s) ++ rest) (by decide))
    have hfields := Fields.scanLines_render hfill d fields rest
    rw [Fields.scanLines, Fields.renderLines.eq_def]
    simp only [shift_append, shift_indent, List.append_assoc, literal_bind, bind_of_some hvalue,
      bind_of_some hfields]
    rfl

end

/-- The whole text of a tree is read. -/
theorem Tree.whole_scan_text (hfill : s.radix.IsFiller s.fill) (t : Tree) :
    (t.scan s 0).whole (t.text s) = some t.numbers := by
  have hscan := t.scan_render hfill 0 Radix.stops_nil
  rw [List.append_nil, shift] at hscan
  unfold whole Tree.text
  rw [String.toList_ofList, hscan]

end Reading

end AutoReset.Text
