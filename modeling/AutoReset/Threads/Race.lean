import AutoReset.Event.Access
import AutoReset.Threads.Tape
/-!
# Races with one possible outcome

A race lets threads loose on a few fresh events. Its outcome does not depend on
who comes first, and that is the point of it:

* in a **ring** a signal goes round: thread `i` waits on event `i` and then
  signals the next one, and the first thread starts each round;
* in a **burst** many threads signal one event, and then two looks are taken at
  what is left;
* in a **contest** many threads try to consume one signal, either by trying or by
  a bounded wait without any time;
* in a **handover** producers take turns behind a gate: each signals a consumer
  and waits for its acknowledgement;
* in a **timed ping-pong** two threads answer each other, one of them by bounded
  waits that never run out.

The events are created, and every request is made, through one of the three ways
to hold an event.
-/

namespace AutoReset.Threads

/-! ### Ways to hold an event -/

/-- A way to hold an event. -/
inductive Route where
  /-- As its owner. -/
  | owner
  /-- By a handle. -/
  | handle
  /-- By a bare number. -/
  | foreign
  deriving DecidableEq, Repr

namespace Route

/-- Creates an event, and says where it is. -/
def create (policy : Placement) : Route → Attempt System (Option Address)
  | owner => do
    match ← Owner.create policy .system with
    | .ok o => return some o.address
    | .error _ => return none
  | handle => return (← Handle.create policy .system).address?
  | foreign => return (Handle.ofRaw (← Foreign.create policy)).address?

/-- Latches a signal. -/
def signal (r : Route) (a : Address) : Entry :=
  match r with
  | owner => Owner.signal ⟨a⟩
  | handle => (Handle.ofAddress a).signal
  | foreign => Foreign.signal a.value

/-- Waits for a signal. -/
def wait (r : Route) (a : Address) : Entry :=
  match r with
  | owner => Owner.wait ⟨a⟩
  | handle => (Handle.ofAddress a).wait
  | foreign => Foreign.wait a.value

/-- Consumes a pending signal, if there is one. Bare numbers have no operation for
that, and go by the handle. -/
def tryWait (r : Route) (a : Address) : Entry :=
  match r with
  | owner => Owner.tryWait ⟨a⟩
  | handle | foreign => (Handle.ofAddress a).tryWait

/-- Waits no longer than the timeout, as the owner does. -/
def waitTimeout (a : Address) (timeout : Duration) : Entry :=
  Owner.waitTimeout ⟨a⟩ timeout

end Route

/-- Creates events until there are enough. -/
def createEvents (policy : Placement) (r : Route) : Nat → Attempt System (List Address)
  | 0 => return []
  | k + 1 => do
    match ← r.create policy with
    | none => return []
    | some a => return a :: (← createEvents policy r k)

/-! ### Requests -/

section Requests

variable {m g : Nat}

/-- The request that an operation on an event of the table comes to. -/
def request? (table : Vector Address m) : Entry → Option (Request m g)
  | .call a c => ((List.finRange m).find? fun e => table.get e = a).map (.call · c)
  | .skip _ => none

/-- What one thread does over and over, `n` times. -/
def loop (n : Nat) (body : List (Request m g)) : List (Request m g) :=
  (List.replicate n body).flatten

variable (r : Route) (table : Vector Address m)

/-- Signals an event of the table. -/
def signals (e : Fin m) : List (Request m g) := (request? table (r.signal (table.get e))).toList

/-- Waits on an event of the table. -/
def waits (e : Fin m) : List (Request m g) := (request? table (r.wait (table.get e))).toList

/-- Tries an event of the table. -/
def tries (e : Fin m) : List (Request m g) := (request? table (r.tryWait (table.get e))).toList

/-- Waits on an event of the table for a time. -/
def waitsFor (timeout : Duration) (e : Fin m) : List (Request m g) :=
  (request? table (Route.waitTimeout (table.get e) timeout)).toList

end Requests

/-! ### Races -/

/-- The races. -/
inductive Kind where
  /-- A signal goes round. -/
  | ring
  /-- Many signals for one event. -/
  | burst
  /-- Many tries for one signal. -/
  | contest
  /-- Many bounded waits for one signal. -/
  | timedContest
  /-- Signals handed over one at a time. -/
  | handover
  /-- Two threads that answer each other. -/
  | timedPingPong
  deriving DecidableEq, Repr

/-- A race: its kind, how many threads take part and how often each acts. -/
structure Race where
  /-- The kind. -/
  kind : Kind
  /-- How many threads take part, on each side if there are two. -/
  threads : Nat
  /-- How often each acts. -/
  times : Nat

/-- What a race comes to, beside the events. -/
inductive Result where
  /-- Nothing more. -/
  | nothing
  /-- What two looks told. -/
  | looks (answers : List Bool)
  /-- How many attempts succeeded. -/
  | successes (n : Nat)
  /-- The counters of an event that is not among those reported. -/
  | stats (s : Stats)

/-- The outcome of a race: its result, and the events reported. -/
structure Outcome where
  /-- The result. -/
  result : Result
  /-- The events reported. -/
  events : List Latch

/-- How many answers of all threads pass a test. -/
def countAnswers {m g : Nat} (answers : List (List (Request m g × Reply)))
    (p : Request m g × Reply → Bool) : Nat :=
  answers.flatten.countP p

/-- Is this a bounded wait that consumed a signal? -/
def isTimedSuccess {m g : Nat} : Request m g × Reply → Bool
  | (.call _ (.waitTimeout _), .done) => true
  | _ => false

/-- Is this a try that consumed a signal? -/
def isSuccess {m g : Nat} : Request m g × Reply → Bool
  | (_, .flag b) => b
  | _ => false

/-- Half a minute. -/
def halfMinute : Duration := ⟨30, 0, by decide, Duration.zero.nanos_lt⟩

/-- The thread and the event behind a place in a ring. -/
def after {t : Nat} (i : Fin t) : Fin t :=
  ⟨(i + 1) % t, Nat.mod_lt _ (by have := i.isLt; omega)⟩

/-- The tapes of a ring: the first thread signals and then waits, the others wait
and then signal. -/
def ringTapes {t : Nat} (r : Route) (table : Vector Address t) (n : Nat) :
    List (List (Request t 0)) :=
  (List.finRange t).map fun i : Fin t =>
    if i.val = 0 then loop n (signals r table (after i) ++ waits r table i)
    else loop n (waits r table i ++ signals r table (after i))

/-- The tapes of a handover: consumers, and producers behind the gate. -/
def handoverTapes (r : Route) (table : Vector Address 2) (t n : Nat) :
    List (List (Request 2 1)) :=
  List.replicate t (loop n (waits r table 0 ++ signals r table 1)) ++
    List.replicate t
      (loop n ([.lockGate 0] ++ signals r table 0 ++ waits r table 1 ++ [.unlockGate 0]))

/-- The tapes of a timed ping-pong: the one that is answered, and the one with
bounded waits. -/
def pingPongTapes (r : Route) (table : Vector Address 2) (n : Nat) : List (List (Request 2 0)) :=
  [loop n (signals r table 0 ++ waits r table 1),
    loop n (waitsFor table halfMinute 0 ++ signals r table 1)]

/-- Fresh latches. -/
def freshLatches (m : Nat) : Vector Latch m := Vector.replicate m .fresh

/-- Runs tapes on one fresh event after the one signal of another thread. -/
def contest (r : Route) (table : Vector Address 1) (tapes : List (List (Request 1 0)))
    (now : Instant) : Vector Latch 1 × List (List (Request 1 0 × Reply)) :=
  let (latches, _) := runTapes (g := 0) (freshLatches 1) [signals r table 0] now
  runTapes latches tapes now

/-- Runs a race on the events of a table. -/
def Race.runOn (race : Race) (r : Route) (table : List Address) (now : Instant) : Option Outcome :=
  let t := race.threads
  let n := race.times
  match race.kind, table with
  | .ring, table =>
    let table : Vector Address table.length := ⟨table.toArray, by simp⟩
    let (latches, _) := runTapes (freshLatches _) (ringTapes r table n) now
    some ⟨.nothing, latches.toList⟩
  | .burst, [a] =>
    let table : Vector Address 1 := #v[a]
    let (latches, _) :=
      runTapes (g := 0) (freshLatches 1) (List.replicate t (loop n (signals r table 0))) now
    let (latches, answers) := runTapes (g := 0) latches [tries r table 0 ++ tries r table 0] now
    some ⟨.looks (answers.flatten.map isSuccess), latches.toList⟩
  | .contest, [a] =>
    let table : Vector Address 1 := #v[a]
    let (latches, answers) := contest r table (List.replicate t (loop n (tries r table 0))) now
    some ⟨.successes (countAnswers answers isSuccess), latches.toList⟩
  | .timedContest, [a] =>
    let table : Vector Address 1 := #v[a]
    let (latches, answers) :=
      contest r table (List.replicate t (loop n (waitsFor table .zero 0))) now
    some ⟨.successes (countAnswers answers isTimedSuccess), latches.toList⟩
  | .handover, [a, b] =>
    let (latches, _) := runTapes (freshLatches 2) (handoverTapes r #v[a, b] t n) now
    some ⟨.stats latches[1].stats, [latches[0]]⟩
  | .timedPingPong, [a, b] =>
    let (latches, answers) := runTapes (freshLatches 2) (pingPongTapes r #v[a, b] n) now
    some ⟨.successes (countAnswers answers isTimedSuccess), latches.toList⟩
  | _, _ => none

/-- How many events a race needs. -/
def Race.events (race : Race) : Nat :=
  match race.kind with
  | .ring => race.threads
  | .burst | .contest | .timedContest => 1
  | .handover | .timedPingPong => 2

/-- Is a signal to go round where there is no event? The place behind the first
event is then asked for modulo zero. -/
def Race.goesRoundNothing (race : Race) : Bool :=
  race.kind = .ring && race.threads = 0 && race.times ≠ 0

/-- Runs a race on events of its own. -/
def Race.run (setting : Setting) (race : Race) (r : Route) : Except Fault (Option Outcome) :=
  if race.goesRoundNothing then .error .remainderByZero
  else
    match createEvents setting.policy r race.events .empty with
    | .ok table _ => .ok (race.runOn r table setting.now)
    | .error f _ => .error f

end AutoReset.Threads
