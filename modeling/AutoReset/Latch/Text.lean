import AutoReset.Latch
import AutoReset.Text.Tree
/-!
# The texts of a latch and of its parts

A state and an error are written as one word, so a format specification does not
change them. The counters are a record of four numbers, each written as the
specification says. A latch is a record of its flag and its counters.
-/

namespace AutoReset

open Text

/-- A state is one word. -/
def State.tree (s : State) : Tree := .ofString s.name

/-- An error is one word. -/
def EventError.tree (e : EventError) : Tree := .ofString e.name

/-- The outcome of a call that may report an error. -/
def resultTree : Except EventError Unit → Tree
  | .ok () => wrapper "Ok" (.ofString "()")
  | .error e => wrapper "Err" e.tree

/-- The counters are a record of four numbers. -/
def Stats.tree (s : Stats) : Tree :=
  record "EventStats"
    [("posts", .natural s.posts.toNat), ("coalesced", .natural s.coalesced.toNat),
      ("consumed", .natural s.consumed.toNat), ("timeouts", .natural s.timeouts.toNat)]

/-- A latch is a record of its flag and its counters. -/
def Latch.tree (l : Latch) : Tree :=
  record "Latch" [("signaled", .flag l.signaled), ("stats", l.stats.tree)]

/-- What can be written by a format specification. -/
inductive Writable where
  /-- The state of an event. -/
  | state (s : State)
  /-- Its counters. -/
  | stats (s : Stats)
  /-- An error. -/
  | error (e : EventError)

/-- How the value is built. -/
def Writable.tree : Writable → Tree
  | .state s => s.tree
  | .stats s => s.tree
  | .error e => e.tree

/-- How the value is written in a style. A text for a reader is there for errors only,
and no specification changes it. -/
def Writable.writer? : Style → Writable → Option (Spec → String)
  | .debug, w => some w.tree.text
  | .display, .error e => some fun _ => e.message
  | .display, _ => none

/-- The text of a value under a format code and the number beside it. Nothing comes
of a text that is no code, and of a code in a style that the value does not have. A
number that does not fit is a fault also where the text would not depend on it. -/
def Writable.text? (code : List Char) (number : Nat) (w : Writable) :
    Option (Except Fault String) := do
  let (style, spec) ← Spec.read? code number
  let write ← w.writer? style
  return spec.map write

end AutoReset
