import AutoReset.Dynamic.Object
import AutoReset.Table
/-!
# Sessions with objects

A session is a list of steps over named objects. Each step runs until the events
are at rest again, and is reported with its result, the results of sleepers that
it released, and the object as it left it.
-/

namespace AutoReset.Dynamic

/-- What a step does with its object. -/
inductive Command where
  /-- Creates it. -/
  | new
  /-- Creates another object from these arguments, shows it and lets it go. -/
  | tryNew (args : List Value)
  /-- Lets it go. -/
  | delete
  /-- Signals it. -/
  | signal
  /-- Calls a method. -/
  | invoke (m : Method) (args : List Value)
  /-- Reads the computed attribute. -/
  | readSignaled
  /-- Calls what a name stands for. -/
  | call (name : String) (args : List Value)
  /-- Sets an attribute. -/
  | set (name : String) (value : Value)

/-- A step: a command, and the name of the object that it is about. -/
structure Step where
  /-- The name. -/
  name : String
  /-- The command. -/
  command : Command

/-- What can be seen of an object. -/
structure View where
  /-- Is a signal pending? -/
  signaled : Bool
  /-- The counters. -/
  stats : Stats
  /-- How many calls sleep. -/
  blocked : Nat

/-- What is reported after a step. -/
structure Report where
  /-- The result of the step. -/
  result : Result
  /-- The results of released sleepers, where the step is a signal. -/
  released : Option (List Result) := none
  /-- The object, if the step is about one that is there. -/
  view : Option View := none

/-- The state of a session. -/
structure World where
  /-- The events. -/
  system : System := .empty
  /-- The objects, by name. -/
  objects : Table Owner := .empty

namespace World

/-- The object as it is now. -/
def view? (w : World) (name : String) : Option View :=
  ((w.objects.get? name).bind fun o => w.system.cell? o.address).map fun c =>
    ⟨c.latch.signaled, c.latch.stats, c.blocked⟩

/-- Reports a result with the object as it is now. -/
def report (w : World) (name : String) (result : Result)
    (released : Option (List Result) := none) : Report :=
  { result, released, view := w.view? name }

/-- Runs something on the system. -/
def onSystem {α : Type} (w : World) (x : StateM System α) : α × World :=
  let (a, system) := x w.system
  (a, { w with system })

end World

/-! ### Steps -/

/-- The largest number of seconds for which a step stays with a wait: the one nearest to
a fiftieth. -/
def shortWait : Binary64 := .nearest false 1 50

/-- How a step calls a method. It stays with a short wait, and goes on from any other;
the number of seconds is taken as it is given, before it becomes a duration. -/
def mannerOf (m : Method) (args : List Value) : Manner :=
  match m, args.map (Value.toFloat "seconds") with
  | .waitTimeout, [.ok seconds] => if seconds.le shortWait then .staying else .leaving
  | _, _ => .leaving

variable (setting : Setting)

/-- Creates an object under a name; one that had the name goes. -/
def World.create (w : World) (name : String) : Report × World :=
  match w.onSystem (construct setting []) with
  | (.error e, w) => ({ result := .raised e }, w)
  | (.ok o, w) =>
    -- the new object is there before the old one goes
    let before := w.objects.get? name
    let w := { w with objects := w.objects.set name o }
    let w := match before with
      | none => w
      | some old => (w.onSystem (destroy old)).2
    (w.report name (.text qualifiedName), w)

/-- Creates an object from arguments, shows it and lets it go. -/
def World.tryCreate (w : World) (args : List Value) : Report × World :=
  match w.onSystem (construct setting args) with
  | (.error e, w) => ({ result := .raised e }, w)
  | (.ok o, w) =>
    let (e, w) := w.onSystem (invoke setting .staying o .represent [])
    ({ result := e.result }, (w.onSystem (destroy o)).2)

/-- Runs a step on an object that is there. -/
def World.use (w : World) (name : String) (o : Owner) : Command → Report × World
  | .new | .tryNew _ => ({ result := .none }, w)
  | .delete =>
    let (_, w) := w.onSystem (destroy o)
    ({ result := .none }, { w with objects := w.objects.erase name })
  | .signal =>
    let (e, w) := w.onSystem (invoke setting .staying o .signal [])
    (w.report name e.result (some e.released), w)
  | .invoke m args =>
    let (e, w) := w.onSystem (invoke setting (mannerOf m args) o m args)
    (w.report name e.result, w)
  | .readSignaled =>
    let (e, w) := w.onSystem (readSignaled setting o)
    (w.report name e.result, w)
  | .call member args =>
    let (e, w) := w.onSystem (callByName setting o member args)
    (w.report name e.result, w)
  | .set member value => (w.report name (.raised (changeNamed member (some value))), w)

/-- Runs one step. Nothing comes of a step on an object that is not there. -/
def step? (w : World) (s : Step) : Option (Report × World) :=
  match s.command with
  | .new => some (w.create setting s.name)
  | .tryNew args => some (w.tryCreate setting args)
  | command => (w.objects.get? s.name).map fun o => w.use setting s.name o command

/-- Runs the steps in turn and lists the reports. -/
def run? : World → List Step → Option (List Report)
  | _, [] => some []
  | w, s :: steps =>
    match step? setting w s with
    | none => none
    | some (r, w) => (run? w steps).map (r :: ·)

end AutoReset.Dynamic
