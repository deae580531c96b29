import AutoReset.Fault
import AutoReset.Time.Seconds
/-!
# Values and exceptions of a dynamic host

A host that does not know the types of its values beforehand passes whatever its
programs hold, and learns from an exception that it was the wrong thing. Of lists
and dictionaries only their kind matters here.

An exception has a cause; its class and its words follow from that
(`AutoReset.Dynamic.Raised.className`, `AutoReset.Dynamic.Raised.message`).
-/

namespace AutoReset.Dynamic

/-- A value of the host. -/
inductive Value where
  /-- No value. -/
  | none
  /-- A truth value. -/
  | bool (b : Bool)
  /-- A whole number of any size. -/
  | int (z : Int)
  /-- A floating-point number. -/
  | float (x : Binary64)
  /-- A text. -/
  | text (s : String)
  /-- A list. -/
  | list
  /-- A dictionary. -/
  | dict

/-- The name of the type of a value. -/
def Value.typeName : Value → String
  | none => "NoneType"
  | bool _ => "bool"
  | int _ => "int"
  | float _ => "float"
  | text _ => "str"
  | list => "list"
  | dict => "dict"

/-- What an object of the event class is called. -/
def className : String := "Event"

/-- The module that the event class is in. -/
def moduleName : String := "alice_event"

/-- The class with the module that it is in. -/
def qualifiedName : String := moduleName ++ "." ++ className

/-- The cause of an exception. -/
inductive Raised where
  /-- The argument of this name was not a number, but of this type. -/
  | notReal (argument typeName : String)
  /-- A whole number was too large for a floating-point number. -/
  | intTooLarge
  /-- A number of seconds was no duration. -/
  | badSeconds (e : SecondsError)
  /-- There was no memory for an event. -/
  | noMemory
  /-- A method without parameters got this many arguments. -/
  | takesNoArguments (method : String) (given : Nat)
  /-- A method with one parameter got this many arguments. -/
  | takesOneArgument (method : String) (given : Nat)
  /-- The one argument of a method was missing. -/
  | missingArgument (method argument : String)
  /-- A method with this many parameters got more arguments. -/
  | tooManyArguments (method : String) (parameters given : Nat)
  /-- An operation of every object takes so many arguments, and got this many. -/
  | expected (parameters given : Nat)
  /-- A value of this type was called. -/
  | notCallable (typeName : String)
  /-- An object has no such attribute. -/
  | noAttribute (name : String)
  /-- A computed attribute was set. -/
  | notWritable (name : String)
  /-- A fixed attribute was set. -/
  | readOnly (name : String)
  /-- The name of an attribute was not a text, but of this type. -/
  | nameNotText (typeName : String)
  /-- The argument of this method was not a text, but of this type. -/
  | notText (method typeName : String)
  /-- An object has no text under the format. -/
  | noFormat
  /-- A number was not whole, but of this type. -/
  | notWhole (typeName : String)
  /-- A whole number was too large for a machine word. -/
  | wordTooLarge
  /-- An object of the class that goes by this name cannot be taken apart. -/
  | indivisible (name : String)
  /-- There was no class to make an object of. -/
  | noClass
  /-- A value of this type was given as the class to make an object of. -/
  | notMakeable (typeName : String)
  /-- A value of this type was given as the class of an object. -/
  | notClass (typeName : String)
  /-- The class of an object was deleted. -/
  | classStays
  /-- The operation ended in a fault. -/
  | fault (f : Fault)
  deriving DecidableEq

namespace Raised

/-- The class of an exception. -/
def className : Raised → String
  | notReal .. | takesNoArguments .. | takesOneArgument .. | missingArgument ..
  | tooManyArguments .. | expected .. | notCallable .. | nameNotText .. | notText .. | noFormat
  | notWhole .. | indivisible .. | noClass | notMakeable .. | notClass .. | classStays =>
    "TypeError"
  | intTooLarge | wordTooLarge => "OverflowError"
  | badSeconds _ => "ValueError"
  | noMemory => "MemoryError"
  | noAttribute _ | notWritable _ | readOnly _ => "AttributeError"
  | fault _ => "PanicException"

/-- A method, as messages name it. -/
def methodName (method : String) : String := Dynamic.className ++ "." ++ method ++ "()"

/-- How many were given, with the verb. -/
def given (n : Nat) : String :=
  if n = 1 then "1 was given" else toString n ++ " were given"

/-- How many arguments an operation of every object expects. Where it expects more
than one, a blank stands in the place of its name. -/
def expectation : Nat → String
  | 0 => "expected 0 arguments"
  | 1 => "expected 1 argument"
  | n => " expected " ++ toString n ++ " arguments"

/-- What an exception says. -/
def message : Raised → String
  | notReal argument typeName =>
    "argument '" ++ argument ++ "': must be real number, not " ++ typeName
  | intTooLarge => "int too large to convert to float"
  | badSeconds e => e.message
  | noMemory => EventError.allocationFailure.message
  | takesNoArguments method n =>
    methodName method ++ " takes no arguments (" ++ toString n ++ " given)"
  | takesOneArgument method n =>
    methodName method ++ " takes exactly one argument (" ++ toString n ++ " given)"
  | missingArgument method argument =>
    methodName method ++ " missing 1 required positional argument: '" ++ argument ++ "'"
  | tooManyArguments method parameters n =>
    methodName method ++ " takes " ++ toString parameters ++ " positional arguments but " ++ given n
  | expected parameters n => expectation parameters ++ ", got " ++ toString n
  | notCallable typeName => "'" ++ typeName ++ "' object is not callable"
  | noAttribute name => "'" ++ qualifiedName ++ "' object has no attribute '" ++ name ++ "'"
  | notWritable name =>
    "attribute '" ++ name ++ "' of '" ++ qualifiedName ++ "' objects is not writable"
  | readOnly name => "'" ++ qualifiedName ++ "' object attribute '" ++ name ++ "' is read-only"
  | nameNotText typeName => "attribute name must be string, not '" ++ typeName ++ "'"
  | notText method typeName => method ++ "() argument must be str, not " ++ typeName
  | noFormat => "unsupported format string passed to " ++ qualifiedName ++ ".__format__"
  | notWhole typeName => "'" ++ typeName ++ "' object cannot be interpreted as an integer"
  | wordTooLarge => "Python int too large to convert to C int"
  | indivisible name => "cannot pickle '" ++ name ++ "' object"
  | noClass => qualifiedName ++ ".__new__(): not enough arguments"
  | notMakeable typeName =>
    qualifiedName ++ ".__new__(X): X is not a type object (" ++ typeName ++ ")"
  | notClass typeName => "__class__ must be set to a class, not '" ++ typeName ++ "' object"
  | classStays => "can't delete __class__ attribute"
  | fault f => f.message

end Raised

/-! ### Conversions of arguments -/

/-- The name of an attribute that an argument stands for. -/
def Value.toName : Value → Except Raised String
  | .text s => .ok s
  | other => .error (.nameNotText other.typeName)

/-- The signed word of 32 bits that an argument stands for. A truth value counts as
zero or one. -/
def Value.toWord : Value → Except Raised Int
  | .bool b => .ok (if b then 1 else 0)
  | .int z => if -0x80000000 ≤ z ∧ z < 0x80000000 then .ok z else .error .wordTooLarge
  | other => .error (.notWhole other.typeName)

/-- The floating-point number that an argument stands for. A truth value counts as
zero or one; a whole number is rounded, and refused if it rounds to infinity. -/
def Value.toFloat (argument : String) (v : Value) : Except Raised Binary64 :=
  match v with
  | .bool b => .ok (.ofInt (if b then 1 else 0))
  | .int z =>
    match (Binary64.ofInt z).value with
    | .infinite _ => .error .intTooLarge
    | _ => .ok (.ofInt z)
  | .float x => .ok x
  | other => .error (.notReal argument other.typeName)

/-- The duration that an argument stands for. -/
def Value.toDuration (argument : String) (v : Value) : Except Raised Duration :=
  match v.toFloat argument with
  | .error e => .error e
  | .ok x =>
    match Duration.ofSeconds x with
    | .ok d => .ok d
    | .error e => .error (.badSeconds e)

end AutoReset.Dynamic
