import AutoReset.Latch.Text
import AutoReset.Latch.Word
import AutoReset.Table
/-!
# Latches in named registers

A latch is a plain value: it can be copied, and the copies go their own ways. A
bank of registers holds latches under names, and a list of steps works on it.
After each step the latch of the register that the step names is reported, beside
the step's own result.
-/

namespace AutoReset

namespace Registers

/-- What a step does to its register. -/
inductive Command where
  /-- A fresh latch goes in. -/
  | fresh
  /-- The latch of another register goes in. -/
  | copy (source : String)
  /-- One operation. -/
  | letter (a : Letter)
  /-- A word, run a number of times. -/
  | repeated (w : List Letter) (times : Nat)
  /-- The text of the latch. -/
  | text (spec : Text.Spec)

/-- The result of a step. -/
inductive Result where
  /-- Nothing to report. -/
  | nothing
  /-- What a post or a take returned. -/
  | flag (b : Bool)
  /-- How many results were true. -/
  | count (n : Nat)
  /-- A text. -/
  | text (s : String)
  /-- The operation ended in a fault. -/
  | fault (f : Fault)

/-- A step: a command on a register. -/
structure Step where
  /-- The register. -/
  register : String
  /-- What is done to it. -/
  command : Command

/-- What is reported after a step. -/
structure Report where
  /-- The result of the step. -/
  result : Result
  /-- The latch in its register afterwards. -/
  latch : Latch

/-- The result of an operation on a latch, and the latch it leaves. -/
def outcome {α : Type} (toResult : α → Result) (x : Attempt Latch α) (l : Latch) : Report :=
  match x l with
  | .ok a l' => ⟨toResult a, l'⟩
  | .error f l' => ⟨.fault f, l'⟩

/-- The result of one operation: recording a timeout has none to show. -/
def Result.ofLetter : Letter → Bool → Result
  | .recordTimeout, _ => .nothing
  | _, b => .flag b

/-- Runs a command on the latch of its register. -/
def Command.onLatch (c : Command) (l : Latch) : Report :=
  match c with
  | .fresh => ⟨.nothing, .fresh⟩
  | .copy _ => ⟨.nothing, l⟩
  | .letter a => outcome (.ofLetter a) a.act l
  | .repeated w n => outcome .count (Latch.repeatWord w n) l
  | .text spec => ⟨.text (l.tree.text spec), l⟩

/-- The latch that a step starts from; none if a register that it reads is
empty. -/
def Step.start? (bank : Table Latch) (s : Step) : Option Latch :=
  match s.command with
  | .fresh => some .fresh
  | .copy source => bank.get? source
  | _ => bank.get? s.register

/-- Runs one step. Nothing comes of a step that reads an empty register. -/
def step? (bank : Table Latch) (s : Step) : Option (Report × Table Latch) :=
  (s.start? bank).map fun l =>
    let report := s.command.onLatch l
    (report, bank.set s.register report.latch)

/-- Runs the steps in turn and lists the reports. -/
def run? : Table Latch → List Step → Option (List Report)
  | _, [] => some []
  | bank, s :: steps =>
    match step? bank s with
    | none => none
    | some (report, bank) => (run? bank steps).map (report :: ·)

end Registers

end AutoReset
