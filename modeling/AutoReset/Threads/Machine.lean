import AutoReset.Event.Call
/-!
# Threads that share events

Any number of threads run programs that call shared events and lock shared gates.
An event is a monitor: a latch, the thread that holds its lock, and a mark that a
thread once left the lock by a fault. What the threads do is cut into the smallest
steps that another thread can tell apart, and a step is named by an action:

* a thread starts its next request, gets the lock, makes its stay inside it
  (`AutoReset.Call.inside`), wakes a sleeper, leaves the lock with its answer, or
  gives up the lock and falls asleep in one go;
* a sleeper wakes for no reason, or because its time has run out;
* the clock moves on.

Whatever is not settled by the state is settled by the action: which thread is
next, which sleeper a signal wakes, whether the log sink fails, and how far the
clock moves. So `AutoReset.Threads.Machine.step` is a partial function, and the
runs of the machine are the lists of actions that it accepts.

A thread that finds the mark of a fault on a lock gets a poisoned grant; it takes
the latch out of it as it would out of a clean one.
-/

namespace AutoReset.Threads

/-! ### Programs -/

/-- What a program asks for next. -/
inductive Request (m g : Nat) where
  /-- A call on an event. -/
  | call (event : Fin m) (c : Call)
  /-- The lock of a gate. -/
  | lockGate (gate : Fin g)
  /-- An end to holding a gate. -/
  | unlockGate (gate : Fin g)
  deriving DecidableEq

/-- A program, by the states it can be in: what it asks for in each, if anything,
and where the answer takes it. -/
structure Program (σ : Type) (m g : Nat) where
  /-- The next request; none if the program is over. -/
  next : σ → Option (Request m g)
  /-- The state after the answer. -/
  resume : σ → Reply → σ

/-! ### Threads and monitors -/

/-- A call on its way: what was called, and when. -/
structure Visit (m : Nat) where
  /-- The event that is called. -/
  event : Fin m
  /-- The call. -/
  call : Call
  /-- When it was made. -/
  since : Instant
  deriving DecidableEq

/-- Where a thread stands. -/
inductive Status (m : Nat) where
  /-- It is between two requests. -/
  | ready
  /-- It has made its call and wants the lock. -/
  | entering (v : Visit m)
  /-- It holds the lock, and its stay has not begun. -/
  | inside (v : Visit m)
  /-- It holds the lock, and has a signal to announce. -/
  | announcing (v : Visit m)
  /-- It holds the lock, and has its answer. -/
  | leaving (v : Visit m) (r : Reply)
  /-- It holds the lock, and is about to sleep, no longer than the bound. -/
  | drowsy (v : Visit m) (bound : Option Duration)
  /-- It sleeps, no longer than the bound. -/
  | asleep (v : Visit m) (bound : Option Duration)
  /-- It was woken, and wants the lock again. -/
  | woken (v : Visit m)
  deriving DecidableEq

/-- A thread: the state of its program, and where it stands. -/
structure Thread (σ : Type) (m : Nat) where
  /-- The state of its program. -/
  state : σ
  /-- Where it stands. -/
  status : Status m := .ready

/-- What the owner of a lock is given with it. -/
inductive Grant where
  /-- The latch. -/
  | clean (l : Latch)
  /-- The latch, and word that a thread left it by a fault. -/
  | poisoned (l : Latch)
  deriving DecidableEq

/-- The latch in a grant, poisoned or not. -/
def Grant.recover : Grant → Latch
  | clean l => l
  | poisoned l => l

/-- An event as threads meet it. -/
structure Monitor (t : Nat) where
  /-- The flag and the counters. -/
  latch : Latch := .fresh
  /-- The thread that holds the lock. -/
  holder : Option (Fin t) := none
  /-- Did a thread leave the lock by a fault? -/
  poisoned : Bool := false
  deriving DecidableEq

/-- What the lock of a monitor grants. -/
def Monitor.grant {t : Nat} (m : Monitor t) : Grant :=
  if m.poisoned then .poisoned m.latch else .clean m.latch

@[simp] theorem Monitor.recover_grant {t : Nat} (m : Monitor t) : m.grant.recover = m.latch := by
  unfold grant
  split <;> rfl

/-- The threads, what they share, and the clock. -/
structure Machine (σ : Type) (t m g : Nat) where
  /-- The threads. -/
  threads : Vector (Thread σ m) t
  /-- The events. -/
  monitors : Vector (Monitor t) m
  /-- The thread that holds each gate. -/
  gates : Vector (Option (Fin t)) g
  /-- Where the clock stands. -/
  now : Instant

namespace Machine

variable {σ : Type} {t m g : Nat}

/-- A thread of the machine. -/
def thread (μ : Machine σ t m g) (θ : Fin t) : Thread σ m := μ.threads[θ]

/-- Where a thread stands. -/
def status (μ : Machine σ t m g) (θ : Fin t) : Status m := (μ.thread θ).status

/-- An event of the machine. -/
def monitor (μ : Machine σ t m g) (e : Fin m) : Monitor t := μ.monitors[e]

/-- The thread that holds a gate. -/
def gate (μ : Machine σ t m g) (k : Fin g) : Option (Fin t) := μ.gates[k]

/-- Lets a thread stand elsewhere. -/
def setStatus (μ : Machine σ t m g) (θ : Fin t) (s : Status m) : Machine σ t m g :=
  { μ with threads := μ.threads.set θ { μ.thread θ with status := s } }

/-- Takes a thread to its next request, with its program in a new state. -/
def setReady (μ : Machine σ t m g) (θ : Fin t) (x : σ) : Machine σ t m g :=
  { μ with threads := μ.threads.set θ { state := x, status := .ready } }

/-- Puts another monitor in the place of an event. -/
def setMonitor (μ : Machine σ t m g) (e : Fin m) (x : Monitor t) : Machine σ t m g :=
  { μ with monitors := μ.monitors.set e x }

/-- Lets a gate be held by another thread, or by none. -/
def setGate (μ : Machine σ t m g) (k : Fin g) (θ : Option (Fin t)) : Machine σ t m g :=
  { μ with gates := μ.gates.set k θ }

end Machine

/-! ### Steps -/

/-- The name of a step. -/
inductive Action (t : Nat) where
  /-- A thread starts its next request; a gate it asks for must be free. -/
  | start (θ : Fin t)
  /-- A thread gets the lock that it wants. -/
  | acquire (θ : Fin t)
  /-- A thread makes its stay inside the lock. Does the log sink fail, if it is
  used? -/
  | work (θ : Fin t) (sinkFails : Bool)
  /-- A thread wakes a sleeper, or none if none sleeps. -/
  | notify (θ : Fin t) (sleeper : Option (Fin t))
  /-- A thread leaves the lock with its answer. -/
  | leave (θ : Fin t)
  /-- A thread gives up the lock and falls asleep. -/
  | sleep (θ : Fin t)
  /-- A sleeper wakes for no reason. -/
  | wake (θ : Fin t)
  /-- A sleeper wakes because its time has run out. -/
  | expire (θ : Fin t)
  /-- The clock moves on. -/
  | tick (later : Instant)
  deriving DecidableEq

/-- Where a thread stands after its stay inside the lock. -/
def Status.afterWork {m : Nat} (v : Visit m) (sinkFails : Bool) : Verdict → Status m
  | .answer .timedOut => .leaving v (if sinkFails then .fault .sinkFailed else .timedOut)
  | .answer r => .leaving v r
  | .announce => .announcing v
  | .sleep bound => .drowsy v bound

/-- Does a thread that stands here sleep on the event? -/
def Status.sleepsOn {m : Nat} (e : Fin m) : Status m → Bool
  | .asleep v _ => v.event = e
  | _ => false

/-- Does the answer leave the mark of a fault on the lock? -/
def Reply.isFault : Reply → Bool
  | .fault _ => true
  | _ => false

namespace Machine

variable {σ : Type} {t m g : Nat}

/-- Does a thread sleep on the event? -/
def sleepsOn (μ : Machine σ t m g) (e : Fin m) (θ : Fin t) : Bool :=
  (μ.status θ).sleepsOn e

/-- Does no thread sleep on the event? -/
def noSleeper (μ : Machine σ t m g) (e : Fin m) : Bool :=
  (List.finRange t).all fun θ => !μ.sleepsOn e θ

/-- Starts the next request of a thread. -/
def start (p : Program σ m g) (μ : Machine σ t m g) (θ : Fin t) : Option (Machine σ t m g) :=
  match μ.status θ, p.next (μ.thread θ).state with
  | .ready, some (.call e c) => some (μ.setStatus θ (.entering ⟨e, c, μ.now⟩))
  | .ready, some (.lockGate k) =>
    if μ.gate k = none then
      some ((μ.setGate k (some θ)).setReady θ (p.resume (μ.thread θ).state .done))
    else none
  | .ready, some (.unlockGate k) =>
    if μ.gate k = some θ then
      some ((μ.setGate k none).setReady θ (p.resume (μ.thread θ).state .done))
    else none
  | _, _ => none

/-- Gives a thread the lock that it wants. -/
def acquire (μ : Machine σ t m g) (θ : Fin t) : Option (Machine σ t m g) :=
  match μ.status θ with
  | .entering v | .woken v =>
    if (μ.monitor v.event).holder = none then
      some ((μ.setMonitor v.event { μ.monitor v.event with holder := some θ }).setStatus θ
        (.inside v))
    else none
  | _ => none

/-- Lets a thread make its stay inside the lock. -/
def work (μ : Machine σ t m g) (θ : Fin t) (sinkFails : Bool) : Option (Machine σ t m g) :=
  match μ.status θ with
  | .inside v =>
    let monitor := μ.monitor v.event
    match v.call.inside v.since μ.now monitor.grant.recover with
    | .ok verdict latch =>
      some ((μ.setMonitor v.event { monitor with latch }).setStatus θ
        (.afterWork v sinkFails verdict))
    | .error f latch =>
      some ((μ.setMonitor v.event { monitor with latch }).setStatus θ (.leaving v (.fault f)))
  | _ => none

/-- Lets a thread that posted a signal wake a sleeper. -/
def notify (μ : Machine σ t m g) (θ : Fin t) (sleeper : Option (Fin t)) :
    Option (Machine σ t m g) :=
  match μ.status θ, sleeper with
  | .announcing v, none =>
    -- a signal is announced to nobody only where nobody sleeps
    if μ.noSleeper v.event then some (μ.setStatus θ (.leaving v .done)) else none
  | .announcing v, some η =>
    match μ.status η with
    | .asleep w _ =>
      if w.event = v.event then some ((μ.setStatus η (.woken w)).setStatus θ (.leaving v .done))
      else none
    | _ => none
  | _, _ => none

/-- Lets a thread leave the lock with its answer. -/
def leave (p : Program σ m g) (μ : Machine σ t m g) (θ : Fin t) : Option (Machine σ t m g) :=
  match μ.status θ with
  | .leaving v r =>
    let monitor := μ.monitor v.event
    some ((μ.setMonitor v.event
        { monitor with holder := none, poisoned := monitor.poisoned || Reply.isFault r }).setReady θ
      (p.resume (μ.thread θ).state r))
  | _ => none

/-- Lets a thread give up the lock and fall asleep. -/
def sleep (μ : Machine σ t m g) (θ : Fin t) : Option (Machine σ t m g) :=
  match μ.status θ with
  | .drowsy v bound =>
    some ((μ.setMonitor v.event { μ.monitor v.event with holder := none }).setStatus θ
      (.asleep v bound))
  | _ => none

/-- Wakes a sleeper for no reason. -/
def wake (μ : Machine σ t m g) (θ : Fin t) : Option (Machine σ t m g) :=
  match μ.status θ with
  | .asleep v _ => some (μ.setStatus θ (.woken v))
  | _ => none

/-- Wakes a sleeper whose time has run out. -/
def expire (μ : Machine σ t m g) (θ : Fin t) : Option (Machine σ t m g) :=
  match μ.status θ with
  | .asleep v (some _) => some (μ.setStatus θ (.woken v))
  | _ => none

/-- Moves the clock on. -/
def tick (μ : Machine σ t m g) (later : Instant) : Option (Machine σ t m g) :=
  if μ.now ≤ later then some { μ with now := later } else none

/-- Makes one step, if the machine can make it. -/
def step (p : Program σ m g) (μ : Machine σ t m g) : Action t → Option (Machine σ t m g)
  | .start θ => μ.start p θ
  | .acquire θ => μ.acquire θ
  | .work θ sinkFails => μ.work θ sinkFails
  | .notify θ sleeper => μ.notify θ sleeper
  | .leave θ => μ.leave p θ
  | .sleep θ => μ.sleep θ
  | .wake θ => μ.wake θ
  | .expire θ => μ.expire θ
  | .tick later => μ.tick later

/-- Makes a list of steps, if the machine can make each of them. -/
def steps (p : Program σ m g) : Machine σ t m g → List (Action t) → Option (Machine σ t m g)
  | μ, [] => some μ
  | μ, a :: as =>
    match μ.step p a with
    | none => none
    | some μ => μ.steps p as

/-- What the machine can come to. -/
def Reaches (p : Program σ m g) (μ ν : Machine σ t m g) : Prop :=
  ∃ as, μ.steps p as = some ν

/-! ### What a step changes -/

section Access

variable (μ : Machine σ t m g)

@[simp] theorem thread_setStatus_self (θ : Fin t) (s : Status m) :
    (μ.setStatus θ s).thread θ = { μ.thread θ with status := s } := by
  simp [thread, setStatus]

theorem thread_setStatus_of_ne {θ η : Fin t} (s : Status m) (h : η ≠ θ) :
    (μ.setStatus θ s).thread η = μ.thread η := by
  have hv : (θ : Nat) ≠ η := fun he => h (Fin.ext he.symm)
  simp [thread, setStatus, hv]

@[simp] theorem thread_setReady_self (θ : Fin t) (x : σ) :
    (μ.setReady θ x).thread θ = { state := x, status := .ready } := by
  simp [thread, setReady]

theorem thread_setReady_of_ne {θ η : Fin t} (x : σ) (h : η ≠ θ) :
    (μ.setReady θ x).thread η = μ.thread η := by
  have hv : (θ : Nat) ≠ η := fun he => h (Fin.ext he.symm)
  simp [thread, setReady, hv]

@[simp] theorem thread_setMonitor (e : Fin m) (x : Monitor t) (θ : Fin t) :
    (μ.setMonitor e x).thread θ = μ.thread θ := rfl

@[simp] theorem thread_setGate (k : Fin g) (x : Option (Fin t)) (θ : Fin t) :
    (μ.setGate k x).thread θ = μ.thread θ := rfl

@[simp] theorem monitor_setMonitor_self (e : Fin m) (x : Monitor t) :
    (μ.setMonitor e x).monitor e = x := by
  simp [monitor, setMonitor]

theorem monitor_setMonitor_of_ne {e f : Fin m} (x : Monitor t) (h : f ≠ e) :
    (μ.setMonitor e x).monitor f = μ.monitor f := by
  have hv : (e : Nat) ≠ f := fun he => h (Fin.ext he.symm)
  simp [monitor, setMonitor, hv]

@[simp] theorem monitor_setStatus (θ : Fin t) (s : Status m) (e : Fin m) :
    (μ.setStatus θ s).monitor e = μ.monitor e := rfl

@[simp] theorem monitor_setReady (θ : Fin t) (x : σ) (e : Fin m) :
    (μ.setReady θ x).monitor e = μ.monitor e := rfl

@[simp] theorem monitor_setGate (k : Fin g) (x : Option (Fin t)) (e : Fin m) :
    (μ.setGate k x).monitor e = μ.monitor e := rfl

end Access

end Machine

end AutoReset.Threads
