import AutoReset.Threads.Machine
/-!
# Fixed lists of requests, taken in turn

A tape is the simplest program: a list of requests, made one after the other, and
a list of what came of them. The threads of a machine that runs tapes are taken in
turn, each making one step if it can, until none can make one. Sleepers are only
woken by signals here, and among the sleepers the first is woken; so a run comes
to its end when every thread is through or sleeps for good.

Each request takes a bounded number of steps, apart from those that a signal
causes by waking a sleeper in vain; so twelve rounds for each request are more
than enough, and the number of rounds is fixed beforehand.
-/

namespace AutoReset.Threads

/-- A list of requests, and what came of those already made. -/
structure Tape (m g : Nat) where
  /-- The requests still to be made. -/
  todo : List (Request m g)
  /-- The requests already made and the answers, newest first. -/
  made : List (Request m g × Reply) := []

namespace Tape

variable {t m g : Nat}

/-- The program that makes the requests of a tape. -/
def program : Program (Tape m g) m g where
  next tape := tape.todo.head?
  resume tape r :=
    match tape.todo with
    | [] => tape
    | q :: todo => { todo, made := (q, r) :: tape.made }

/-- The answers in the order in which they came. -/
def answers (tape : Tape m g) : List (Request m g × Reply) := tape.made.reverse

end Tape

namespace Machine

variable {σ : Type} {t m g : Nat}

/-- The step that a thread makes of its own accord; a sleeper makes none. -/
def turn (μ : Machine σ t m g) (θ : Fin t) : Option (Action t) :=
  match μ.status θ with
  | .ready => some (.start θ)
  | .entering _ | .woken _ => some (.acquire θ)
  | .inside _ => some (.work θ false)
  | .announcing v => some (.notify θ ((List.finRange t).find? (μ.sleepsOn v.event)))
  | .leaving _ _ => some (.leave θ)
  | .drowsy _ _ => some (.sleep θ)
  | .asleep _ _ => none

/-- Lets a thread make its step, if it can. -/
def advance (p : Program σ m g) (μ : Machine σ t m g) (θ : Fin t) : Option (Machine σ t m g) :=
  (μ.turn θ).bind (μ.step p)

/-- Lets each thread make a step in turn. Says whether any could. -/
def round (p : Program σ m g) (μ : Machine σ t m g) : Bool × Machine σ t m g :=
  (List.finRange t).foldl
    (fun (moved, μ) θ =>
      match μ.advance p θ with
      | some μ => (true, μ)
      | none => (moved, μ))
    (false, μ)

/-- Makes rounds until no thread can make a step, and no more than `rounds`. -/
def settle (p : Program σ m g) : Nat → Machine σ t m g → Machine σ t m g
  | 0, μ => μ
  | rounds + 1, μ =>
    match μ.round p with
    | (true, μ) => settle p rounds μ
    | (false, μ) => μ

end Machine

/-- A machine about to run these tapes on these latches. -/
def ofTapes {m : Nat} (g : Nat) (latches : Vector Latch m) (tapes : List (List (Request m g)))
    (now : Instant) : Machine (Tape m g) tapes.length m g where
  threads := Vector.ofFn fun θ => { state := { todo := tapes[θ] } }
  monitors := latches.map fun latch => { latch }
  gates := Vector.replicate g none
  now

/-- Runs tapes on latches until nothing moves: the latches then, and what came of
the requests of each tape. -/
def runTapes {m g : Nat} (latches : Vector Latch m) (tapes : List (List (Request m g)))
    (now : Instant) : Vector Latch m × List (List (Request m g × Reply)) :=
  let rounds := 12 * tapes.flatten.length + 12
  let μ := (ofTapes g latches tapes now).settle Tape.program rounds
  (μ.monitors.map Monitor.latch, μ.threads.toList.map fun θ => θ.state.answers)

end AutoReset.Threads
