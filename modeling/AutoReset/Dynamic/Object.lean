import AutoReset.Dynamic.Member
import AutoReset.Dynamic.Value
import AutoReset.Event.Access
/-!
# Events as objects of a dynamic host

An object of the event class owns an event. Its members are fixed
(`AutoReset.Dynamic.Member`): none of them can be set or deleted. A call looks up the
name, counts the arguments, converts them, and only then touches the event: whatever
is wrong with a call, it has no effect.
-/

namespace AutoReset.Dynamic

/-- What a call on an object gives. -/
inductive Result where
  /-- No value. -/
  | none
  /-- A truth value. -/
  | bool (b : Bool)
  /-- A text. -/
  | text (s : String)
  /-- A whole number. -/
  | number (n : Nat)
  /-- A list of names. -/
  | names (list : List String)
  /-- An object that has no plain form. -/
  | object
  /-- The counters, by name. -/
  | stats (s : Stats)
  /-- The call sleeps. -/
  | blocked
  /-- An exception. -/
  | raised (e : Raised)
  deriving DecidableEq

/-- What came of a call: its result, and the results of the calls that returned
because of it. -/
structure Effect where
  /-- The result. -/
  result : Result
  /-- The results of sleepers that returned. -/
  released : List Result := []

/-! ### Arguments -/

/-- A call whose arguments have been converted. -/
inductive Operation where
  /-- Latch a signal. -/
  | signal
  /-- Wait for a signal. -/
  | wait
  /-- Consume a pending signal, if there is one. -/
  | tryWait
  /-- Wait for a signal, but no longer than this. -/
  | waitTimeout (timeout : Duration)
  /-- The counters. -/
  | stats
  /-- The text of the object. -/
  | text
  /-- Is a signal pending? -/
  | isSignaled
  /-- The result does not hang on the event. -/
  | answer (r : Result)
  deriving DecidableEq

/-- What reading a member gives. -/
def Member.reading : Member → Operation
  | .isSignaled => .isSignaled
  | .about => .answer (.text "")
  | .home => .answer (.text moduleName)
  | .slotNames => .answer (.names [])
  | .method _ | .kind => .answer .object

/-- Reads the attribute with a name. -/
def readNamed (name : String) : Except Raised Operation :=
  match Member.ofName? name with
  | none => .error (.noAttribute name)
  | some m => .ok m.reading

/-- The exception for giving a member a value, or for deleting it. -/
def Member.refusal : Member → Option Value → Raised
  | .isSignaled, _ => .notWritable Member.isSignaled.name
  | .kind, some v => .notClass v.typeName
  | .kind, none => .classStays
  | m, _ => .readOnly m.name

/-- The exception for giving the attribute with a name a value, or for deleting it. -/
def changeNamed (name : String) (value : Option Value) : Raised :=
  match Member.ofName? name with
  | none => .noAttribute name
  | some m => m.refusal value

/-- The text of an object under a format: only the empty format is known. -/
def formatted : Value → Except Raised Operation
  | .text s => if s.isEmpty then .ok .text else .error .noFormat
  | .none => .error (.notText Method.format.name "None")
  | other => .error (.notText Method.format.name other.typeName)

/-- How many bytes an object takes: what every object has takes two words, and an
event is held by one more. -/
def objectSize : Nat := 24

/-- The complaint about the number of arguments of a call. -/
def Method.miscounted (m : Method) (given : Nat) : Raised :=
  match m with
  | .waitTimeout =>
    if given = 0 then .missingArgument m.name "seconds" else .tooManyArguments m.name 1 given
  | .represent | .toText | .hash => .expected 0 given
  | .readAttribute | .deleteAttribute | .compare _ => .expected 1 given
  | .setAttribute => .expected 2 given
  | .format | .reduceFor => .takesOneArgument m.name given
  | _ => .takesNoArguments m.name given

/-- Counts and converts the arguments of a call. -/
def Method.operation : Method → List Value → Except Raised Operation
  | .signal, [] => .ok .signal
  | .wait, [] => .ok .wait
  | .tryWait, [] => .ok .tryWait
  | .waitTimeout, [seconds] => (seconds.toDuration "seconds").map .waitTimeout
  | .stats, [] => .ok .stats
  | .represent, [] | .toText, [] => .ok .text
  | .format, [code] => formatted code
  | .readAttribute, [name] => name.toName.bind readNamed
  | .setAttribute, [name, value] =>
    name.toName.bind fun name => .error (changeNamed name (some value))
  | .deleteAttribute, [name] =>
    name.toName.bind fun name => .error (changeNamed name none)
  | .hash, [] | .compare _, [_] | .admitSubclass, _ => .ok (.answer .object)
  | .prepare, _ | .prepareSubclass, [] | .copyState, [] => .ok (.answer .none)
  | .reduce, [] => .error (.indivisible className)
  | .reduceFor, [protocol] =>
    protocol.toWord.bind fun n => .error (.indivisible (if n < 2 then className else qualifiedName))
  | .size, [] => .ok (.answer (.number objectSize))
  | .names, [] => .ok (.answer (.names (Member.all.map Member.name)))
  | .make, [] => .error .noClass
  | .make, v :: _ => .error (.notMakeable v.typeName)
  | m, args => .error (m.miscounted args.length)

/-- Calls a member. Only methods and the class can be called. -/
def Member.operation (m : Member) (args : List Value) : Except Raised Operation :=
  match m with
  | .method m => m.operation args
  | .isSignaled => .error (.notCallable "bool")
  | .about | .home => .error (.notCallable "str")
  | .slotNames => .error (.notCallable "list")
  | .kind =>
    if args.isEmpty then .ok (.answer .object)
    else .error (.tooManyArguments Method.make.name 0 args.length)

/-- Calls what a name stands for. -/
def callNamed (name : String) (args : List Value) : Except Raised Operation :=
  match Member.ofName? name with
  | none => .error (.noAttribute name)
  | some m => m.operation args

/-! ### Effects -/

/-- The text of an object. -/
def objectText (signaled : Bool) : String :=
  className ++ "(signaled=" ++ (if signaled then "true" else "false") ++ ")"

/-- The result of a wait: a bounded one says whether there was a signal. -/
def waitResult (c : Call) : Option Reply → Result
  | none => .blocked
  | some .timedOut => .bool false
  | some (.fault f) => .raised (.fault f)
  | some _ => if c.isBounded then .bool true else .none

/-- The result of a question with the answer yes or no. -/
def flagResult (p : Passage) (k : Bool → Result) : Result :=
  match p.reply with
  | some (.flag b) => k b
  | _ => k false

/-- How a caller makes a call. -/
inductive Manner where
  /-- It stays with the call: a bounded wait runs out, however long it is. -/
  | staying
  /-- It goes on, and a wait sleeps behind it. -/
  | leaving
  deriving DecidableEq, Repr

variable (setting : Setting)

/-- Makes a bounded wait. -/
def waitIn (manner : Manner) (a : Address) (timeout : Duration) : Attempt System Passage :=
  match manner with
  | .staying => return (← System.waitOut setting.now a timeout).1
  | .leaving => System.enter setting.now a (.waitTimeout timeout)

/-- Carries an operation out on the event of an owner. -/
def Operation.run (manner : Manner) (o : Owner) : Operation → Attempt System Effect
  | .signal => do
    let p ← System.run setting.now o.signal
    return {
      result := .none
      released := p.released.toList.map fun (s, r) => waitResult s.call (some r) }
  | .wait => do
    let p ← System.run setting.now o.wait
    return { result := waitResult .wait p.reply }
  | .tryWait => do
    let p ← System.run setting.now o.tryWait
    return { result := flagResult p .bool }
  | .waitTimeout timeout => do
    let p ← waitIn setting manner o.address timeout
    return { result := waitResult (.waitTimeout timeout) p.reply }
  | .stats => do
    let p ← System.enter setting.now o.address .stats
    match p.reply with
    | some (.stats s) => return { result := .stats s }
    | _ => return { result := .stats .zero }
  | .text => do
    let p ← System.run setting.now o.isSignaled
    return { result := flagResult p fun b => .text (objectText b) }
  | .isSignaled => do
    let p ← System.run setting.now o.isSignaled
    return { result := flagResult p .bool }
  | .answer r => return { result := r }

/-- Runs something; a fault becomes an exception. -/
def raising (x : Attempt System Effect) : StateM System Effect := fun s =>
  match x s with
  | .ok e s => (e, s)
  | .error f s => ({ result := .raised (.fault f) }, s)

/-- Carries out what a call comes to on the object that owns an event. -/
def perform (manner : Manner) (o : Owner) (x : Except Raised Operation) : StateM System Effect :=
  match x with
  | .error e => return { result := .raised e }
  | .ok op => raising (op.run setting manner o)

/-- Calls a method of the object that owns an event. -/
def invoke (manner : Manner) (o : Owner) (m : Method) (args : List Value) :
    StateM System Effect :=
  perform setting manner o (m.operation args)

/-- Reads the computed attribute of an object. -/
def readSignaled (o : Owner) : StateM System Effect :=
  perform setting .staying o (.ok Member.isSignaled.reading)

/-- Calls what a name stands for on an object, and stays with the call. -/
def callByName (o : Owner) (name : String) (args : List Value) : StateM System Effect :=
  perform setting .staying o (callNamed name args)

/-- Creates an object, from no arguments. -/
def construct (args : List Value) : StateM System (Except Raised Owner) :=
  if args.isEmpty then fun s =>
    match Owner.create setting.policy .system s with
    | .ok (.ok o) s => (.ok o, s)
    | .ok (.error _) s => (.error .noMemory, s)
    | .error f s => (.error (.fault f), s)
  else return .error (.tooManyArguments Method.make.name 0 args.length)

/-- Lets an object go, and its event with it. -/
def destroy (o : Owner) : StateM System Unit := fun s =>
  match o.drop s with
  | .ok _ s => ((), s)
  | .error _ s => ((), s)

end AutoReset.Dynamic
