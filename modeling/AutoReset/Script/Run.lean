import AutoReset.Script.World
/-!
# Running a script

Each step runs until the events are at rest again, and is then reported: its
answer, the event of its variable as the step left it, the ledgers, and the
records that were made. A bounded wait is waited out if that takes no time worth
speaking of (`AutoReset.Setting.patience`); otherwise it sleeps like any other
wait until a signal comes.

When the script is over the owners that are left release their events. A handle
owns nothing, and an event that only handles refer to stays.
-/

namespace AutoReset.Script

/-! ### Operations by what a variable holds -/

/-- Signals the event of a variable. -/
def Variable.signal (via : Via) : Variable → Entry
  | .owner o => o.signal
  | .handle h =>
    match via with
    | .handle => h.signal
    | .foreign => Foreign.signal h.raw

/-- Waits on the event of a variable. -/
def Variable.wait (via : Via) : Variable → Entry
  | .owner o => o.wait
  | .handle h =>
    match via with
    | .handle => h.wait
    | .foreign => Foreign.wait h.raw

/-- Consumes a signal of the event of a variable, if there is one. -/
def Variable.tryWait : Variable → Entry
  | .owner o => o.tryWait
  | .handle h => h.tryWait

/-- Releases the event of a variable. -/
def Variable.delete (via : Via) : Variable → Attempt System Unit
  | .owner o => o.delete
  | .handle h =>
    match via with
    | .handle => h.delete
    | .foreign => Foreign.delete h.raw

/-- The text of what a variable holds. -/
def Variable.tree (x : Variable) (c : Option Cell) : Text.Tree :=
  match x with
  | .owner o => o.tree (match c with | some c => c.latch.state | none => .unset)
  | .handle h => h.tree

/-! ### One step -/

/-- The answer of a wait. -/
def Answer.ofWait (p : Passage) : Answer :=
  match p.reply with
  | none => .blocked
  | some _ => .returned

/-- The answer of an operation that says yes or no. -/
def Answer.ofTruth (p : Passage) : Answer :=
  match p.reply with
  | some (.flag b) => .truth b
  | _ => .truth false

/-- The answer of a signal. -/
def Answer.ofSignal (p : Passage) : Answer :=
  .released (if p.released.isSome then 1 else 0)

/-- The answer of a bounded wait that began at `start` and ended at `stop`. -/
def Answer.ofBoundedWait (timeout : Duration) (start stop : Instant) (p : Passage) : Answer :=
  match p.reply with
  | none => .blocked
  | some .timedOut => .timedOut (timeout ≤ stop.since start)
  | some _ => .ok

/-- Runs something on the system and answers with what came of it. -/
def answering {α : Type} (x : Attempt System α) (k : α → Act Answer) : Act Answer := do
  match ← Act.perform x with
  | .ok a => k a
  | .error f => return .fault f

/-- Lets a variable hold a handle, and says whether it is null. -/
def holdHandle (v : String) (h : Handle) : Act Answer := do
  Act.assign v (.handle h)
  return .handle h.isNull

variable (setting : Setting)

/-- Runs one step. -/
def Step.run : Step → Act Answer
  | .allocator name plan => do
    answering (System.setUp plan) fun number => do
      modify fun w => { w with allocators := w.allocators.set name number }
      return .nothing
  | .armLog => do
    modify fun w => { w with system.logger.armed := true }
    return .nothing
  | .new v memory => do
    answering (Owner.create setting.policy (← Act.origin memory)) fun
      | .ok o => do
        Act.assign v (.owner o)
        return .ok
      | .error e => return .failed e
  | .create v memory => do
    answering (Handle.create setting.policy (← Act.origin memory)) (holdHandle v)
  | .createForeign v =>
    answering (Foreign.create setting.policy) fun raw => holdHandle v (.ofRaw raw)
  | .null v source => holdHandle v source.handle
  | .copy v source via => do
    holdHandle v (via.copy (← Act.handle source))
  | .compare v w => do
    let a ← Act.handle v
    let b ← Act.handle w
    return .comparison (a = b) (a ≠ b) (a.raw = b.raw) (hash a = hash b)
  | .isNull v => do
    return .truth (← Act.handle v).isNull
  | .isSignaled v => do
    answering (System.run setting.now (← Act.owner v).isSignaled) fun p => return .ofTruth p
  | .text v spec => do
    let x ← Act.lookup v
    return .text ⟨x.tree ((← get).cell? v), spec⟩
  | .signal v via => do
    answering (System.run setting.now ((← Act.lookup v).signal via)) fun p => return .ofSignal p
  | .wait v via => do
    answering (System.run setting.now ((← Act.lookup v).wait via)) fun p => return .ofWait p
  | .tryWait v => do
    answering (System.run setting.now (← Act.lookup v).tryWait) fun p => return .ofTruth p
  | .waitTimeout v timeout => do
    let o ← Act.owner v
    answering (System.waitPatiently setting.patience setting.now o.address timeout)
      fun (p, later) => return .ofBoundedWait timeout setting.now later p
  | .delete v via => do
    let x ← Act.lookup v
    let outcome ← Act.perform (x.delete via)
    match x.address? with
    | some a => modify fun w => w.forget a
    | none => pure ()
    match outcome with
    | .ok () => return .nothing
    | .error f => return .fault f
  | .intoHandle v => do
    let h := (← Act.owner v).intoHandle
    modify fun w => { w with vars := w.vars.set v (.handle h) }
    return .handle h.isNull
  | .intoOwner v => do
    match (← Act.handle v).intoOwner? with
    | some o => do
      modify fun w => w.forget o.address
      modify fun w => { w with vars := w.vars.set v (.owner o) }
      return .owner
    | none => do
      Act.undefine v
      return .noOwner

/-! ### Reports -/

/-- The event of a step as the step left it. -/
structure View where
  /-- The state of the flag. -/
  state : State
  /-- The counters. -/
  stats : Stats
  /-- How many calls sleep on it. -/
  blocked : Nat

/-- What can be seen of an event. -/
def View.ofCell (c : Cell) : View := ⟨c.latch.state, c.latch.stats, c.blocked⟩

/-- What is reported after a step. -/
structure Report where
  /-- The answer of the step. -/
  answer : Answer
  /-- The event of its variable, if there is one. -/
  view : Option View
  /-- The ledgers of the allocators that have a name. -/
  ledgers : Table Ledger
  /-- The records that the step made. -/
  log : List Record

/-- Runs a step and reports it. -/
def Step.report (s : Step) : Act Report := do
  let before := (← get).system.logger.records.length
  let answer ← s.run setting
  let w ← get
  return {
    answer
    view := (s.subject?.bind w.cell?).map View.ofCell
    ledgers := w.ledgers
    log := w.system.logger.records.drop before }

/-- Runs the steps in turn and lists the reports. -/
def reports : List Step → Act (List Report)
  | [] => return []
  | s :: steps => do
    let r ← s.report setting
    return r :: (← reports steps)

/-- The owners that variables hold. -/
def World.owners (w : World) : List Owner :=
  w.vars.values.filterMap fun
    | .owner o => some o
    | .handle _ => none

/-- Turns logging off, and lets the owners that are left release their events. -/
def World.finish (w : World) : World :=
  let quiet := { w.system with logger.limit := none }
  let system := w.owners.foldl
    (fun s o =>
      match o.drop s with
      | .ok () s => s
      | .error _ s => s)
    quiet
  { w with system, vars := .empty }

/-- What is reported of a script: each step, and the ledgers at the end. -/
structure Outcome where
  /-- The steps. -/
  steps : List Report
  /-- The ledgers at the end. -/
  finish : Table Ledger

/-- The state in which a script begins, with logging up to a level. -/
def World.start (limit : Option Level) : World :=
  { system := { System.empty with logger.limit := limit } }

/-- Runs a script with logging up to a level. -/
def run (limit : Option Level) (steps : List Step) : Except Misuse Outcome :=
  match reports setting steps (World.start limit) with
  | .ok (rs, w) => .ok ⟨rs, w.finish.ledgers⟩
  | .error m => .error m

end AutoReset.Script
