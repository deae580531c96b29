/-!
# The members of an object

Everything that the name of an attribute can stand for. An object of the event class
has its own methods and a computed attribute, its class has a text and a module, and
the rest comes from the class of all objects. The host looks names up in this one
order, and shows them in it: a name that is not here is no attribute
(`AutoReset.Dynamic.Member.ofName?_name`, `AutoReset.Dynamic.Member.name_of_ofName?`).
-/

namespace AutoReset.Dynamic

/-- A comparison of two objects. -/
inductive Comparison where
  /-- Is the first one less? -/
  | less
  /-- Is the first one at most the second? -/
  | atMost
  /-- Are they equal? -/
  | equal
  /-- Are they different? -/
  | different
  /-- Is the first one greater? -/
  | greater
  /-- Is the first one at least the second? -/
  | atLeast
  deriving DecidableEq, Repr

/-- The name of the method that compares. -/
def Comparison.name : Comparison → String
  | less => "__lt__"
  | atMost => "__le__"
  | equal => "__eq__"
  | different => "__ne__"
  | greater => "__gt__"
  | atLeast => "__ge__"

/-- What can be called on an object: the methods of the event class, and from
`AutoReset.Dynamic.Method.toText` on those of every object. -/
inductive Method where
  /-- Make an object of a class. -/
  | make
  /-- The text that shows the object. -/
  | represent
  /-- Latch a signal. -/
  | signal
  /-- Wait for a signal. -/
  | wait
  /-- Wait for a signal, but no longer than a number of seconds. -/
  | waitTimeout
  /-- Consume a pending signal, if there is one. -/
  | tryWait
  /-- The counters. -/
  | stats
  /-- The text of the object. -/
  | toText
  /-- A number for hashing. -/
  | hash
  /-- Read an attribute. -/
  | readAttribute
  /-- Set an attribute. -/
  | setAttribute
  /-- Delete an attribute. -/
  | deleteAttribute
  /-- Compare with another object. -/
  | compare (c : Comparison)
  /-- Prepare a new object. -/
  | prepare
  /-- Take the object apart, for a protocol of this number. -/
  | reduceFor
  /-- Take the object apart. -/
  | reduce
  /-- The state that a copy needs. -/
  | copyState
  /-- Is another class to count as a subclass? -/
  | admitSubclass
  /-- Prepare a new subclass. -/
  | prepareSubclass
  /-- The text of the object under a format. -/
  | format
  /-- How many bytes the object takes. -/
  | size
  /-- The names of the members. -/
  | names
  deriving DecidableEq, Repr

/-- The name of a method. -/
def Method.name : Method → String
  | make => "__new__"
  | represent => "__repr__"
  | signal => "signal"
  | wait => "wait"
  | waitTimeout => "wait_timeout"
  | tryWait => "try_wait"
  | stats => "stats"
  | toText => "__str__"
  | hash => "__hash__"
  | readAttribute => "__getattribute__"
  | setAttribute => "__setattr__"
  | deleteAttribute => "__delattr__"
  | compare c => c.name
  | prepare => "__init__"
  | reduceFor => "__reduce_ex__"
  | reduce => "__reduce__"
  | copyState => "__getstate__"
  | admitSubclass => "__subclasshook__"
  | prepareSubclass => "__init_subclass__"
  | format => "__format__"
  | size => "__sizeof__"
  | names => "__dir__"

/-- What the name of an attribute stands for. -/
inductive Member where
  /-- Something that can be called. -/
  | method (m : Method)
  /-- Is a signal pending? -/
  | isSignaled
  /-- The text about the class. -/
  | about
  /-- The name of the module that the class is in. -/
  | home
  /-- The names of the slots that a copy would have to fill. -/
  | slotNames
  /-- The class. -/
  | kind
  deriving DecidableEq, Repr

namespace Member

/-- The name of a member. -/
def name : Member → String
  | method m => m.name
  | isSignaled => "is_signaled"
  | about => "__doc__"
  | home => "__module__"
  | slotNames => "__slotnames__"
  | kind => "__class__"

/-- The members in the order of the host: those of the event class, and then those
that every object has. -/
def all : List Member :=
  [.method .make, .method .represent, .method .signal, .method .wait, .method .waitTimeout,
    .method .tryWait, .method .stats, .isSignaled, .about, .home, .slotNames,
    .method .hash, .method .toText, .method .readAttribute, .method .setAttribute,
    .method .deleteAttribute, .method (.compare .less), .method (.compare .atMost),
    .method (.compare .equal), .method (.compare .different), .method (.compare .greater),
    .method (.compare .atLeast), .method .prepare, .method .reduceFor, .method .reduce,
    .method .copyState, .method .admitSubclass, .method .prepareSubclass, .method .format,
    .method .size, .method .names, .kind]

/-- The member with a name. -/
def ofName? (name : String) : Option Member := all.find? fun m => m.name = name

/-- What is found under a name has that name. -/
theorem name_of_ofName? {name : String} {m : Member} (h : ofName? name = some m) :
    m.name = name := by
  simpa using List.find?_some h

/-- **Every member is found under its name**: no two members share one. -/
@[simp] theorem ofName?_name (m : Member) : ofName? m.name = some m := by
  cases m with
  | method m =>
    cases m with
    | compare c => cases c <;> decide
    | _ => decide
  | _ => decide

/-- A member is one of the list. -/
theorem mem_all (m : Member) : m ∈ all :=
  List.mem_of_find?_eq_some (ofName?_name m)

end Member

end AutoReset.Dynamic
