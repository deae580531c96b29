import AutoReset.Latch
/-!
# Words over the operations of a latch

A history of a latch is a word over three letters. Running a word gives the list
of results (`AutoReset.Latch.run`), running it again and again the number of
results that were true (`AutoReset.Latch.repeatWord`). A letter that has no
result of its own counts as false.
-/

namespace AutoReset

/-- One operation of a latch. -/
inductive Letter where
  /-- Latch a signal. -/
  | post
  /-- Consume the pending signal. -/
  | take
  /-- Count a bounded wait that ran out. -/
  | recordTimeout
  deriving DecidableEq, Repr

/-- What a letter does to a latch. -/
def Letter.act : Letter → Attempt Latch Bool
  | post => Latch.post
  | take => Latch.take
  | recordTimeout => do
    Latch.recordTimeout
    return false

namespace Latch

/-- Runs a word from left to right, and lists the results. -/
def run : List Letter → Attempt Latch (List Bool)
  | [] => return []
  | a :: w => do
    let r ← a.act
    let rs ← run w
    return r :: rs

/-- Runs a word and counts the results that are true. -/
def successes (w : List Letter) : Attempt Latch Nat := do
  let rs ← run w
  return rs.count true

/-- Runs a word `n` times and adds the results that are true to a sum. -/
def repeatFrom (w : List Letter) : Nat → Nat → Attempt Latch Nat
  | 0, sum => return sum
  | n + 1, sum => do
    let k ← successes w
    repeatFrom w n (sum + k)

/-- Runs a word `n` times and counts the results that are true. -/
def repeatWord (w : List Letter) (n : Nat) : Attempt Latch Nat :=
  repeatFrom w n 0

end Latch

end AutoReset
