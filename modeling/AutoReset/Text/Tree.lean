import AutoReset.Text.Number
/-!
# Texts that show how a value is built

A value is shown as a tree: words, truth values, numbers and addresses at the
leaves, records with named fields and one-place wrappers above them. One printer
writes every tree, on one line or spread over lines, and hands the format
specification down to each leaf; a word is written as it stands, whatever the
specification.

Spread over lines, each field has a line of its own that ends in a comma, and
what stands inside a record is moved right by four blanks for each record around
it (`AutoReset.Text.indent`).

Addresses differ from run to run. Where that is not to be seen, a name stands for
each address but zero (`AutoReset.Text.Tree.hidden`).
-/

namespace AutoReset.Text

mutual

/-- How a value is built. -/
inductive Tree where
  /-- A word, written as it stands. -/
  | word (text : List Char)
  /-- A truth value, a padded word. -/
  | flag (value : Bool)
  /-- A number, written as the specification says. -/
  | number (value : Int)
  /-- An address. -/
  | pointer (value : Nat)
  /-- A named record. -/
  | record (name : List Char) (fields : Fields)
  /-- A name around one value. -/
  | wrapper (name : List Char) (inner : Tree)

/-- The fields of a record, in order. -/
inductive Fields where
  /-- No field left. -/
  | nil
  /-- A field, and those behind it. -/
  | cons (name : List Char) (value : Tree) (rest : Fields)

end

namespace Tree

/-- A word given as a string. -/
def ofString (s : String) : Tree := .word s.toList

/-- A counter or another natural number. -/
def natural (n : Nat) : Tree := .number n

end Tree

/-- A record from its name and its fields. -/
def record (name : String) (fields : List (String × Tree)) : Tree :=
  .record name.toList (fields.foldr (fun f rest => .cons f.1.toList f.2 rest) .nil)

/-- A name around one value. -/
def wrapper (name : String) (inner : Tree) : Tree := .wrapper name.toList inner

/-- Moves every line but the first right by four blanks. -/
def indent : List Char → List Char
  | [] => []
  | c :: rest => if c = '\n' then c :: ' ' :: ' ' :: ' ' :: ' ' :: indent rest else c :: indent rest

mutual

/-- The characters of a tree under a specification. -/
def Tree.render (s : Spec) : Tree → List Char
  | .word text => text
  | .flag b => s.padded (if b then "true" else "false").toList
  | .number z => s.number z
  | .pointer n => s.pointer n
  | .record name .nil => name
  | .record name (.cons first value rest) =>
    if s.alternate then
      name ++ " \x7b\n".toList ++ Fields.renderLines s (.cons first value rest) ++ ['\x7d']
    else
      name ++ " \x7b ".toList ++ first ++ ": ".toList ++ Tree.render s value ++
        Fields.renderInline s rest ++ " \x7d".toList
  | .wrapper name inner =>
    if s.alternate then
      name ++ "(\n    ".toList ++ indent (Tree.render s inner) ++ ",\n)".toList
    else
      name ++ ['('] ++ Tree.render s inner ++ [')']

/-- The fields behind the first one, on the same line. -/
def Fields.renderInline (s : Spec) : Fields → List Char
  | .nil => []
  | .cons name value rest =>
    ", ".toList ++ name ++ ": ".toList ++ Tree.render s value ++ Fields.renderInline s rest

/-- The fields, each on its own lines. -/
def Fields.renderLines (s : Spec) : Fields → List Char
  | .nil => []
  | .cons name value rest =>
    "    ".toList ++ name ++ ": ".toList ++ indent (Tree.render s value) ++ ",\n".toList ++
      Fields.renderLines s rest

end

/-- The text of a tree under a specification. -/
def Tree.text (t : Tree) (s : Spec) : String :=
  String.ofList (t.render s)

/-! ### Texts without addresses -/

mutual

/-- The tree with a name for each address but zero. -/
def Tree.hidden : Tree → Tree
  | .pointer n => .ofString (if n = 0 then "0x0" else "<ptr>")
  | .record name fields => .record name fields.hidden
  | .wrapper name inner => .wrapper name inner.hidden
  | t => t

/-- The fields with a name for each address but zero. -/
def Fields.hidden : Fields → Fields
  | .nil => .nil
  | .cons name value rest => .cons name value.hidden rest.hidden

end

/-- A tree, and the specification under which it is written. -/
structure Shown where
  /-- The tree. -/
  tree : Tree
  /-- The specification. -/
  spec : Spec

namespace Shown

/-- The text. -/
def text (x : Shown) : String := x.tree.text x.spec

/-- The same, with names for the addresses. -/
def hidden (x : Shown) : Shown := { x with tree := x.tree.hidden }

/-- To whom it is reported, addresses say nothing. -/
instance : CoeOut Shown String := ⟨fun x => x.hidden.text⟩

end Shown

end AutoReset.Text
