import AutoReset.Event.Access
import AutoReset.Proofs.Threads.Course
/-!
# Faults with the lock in hand

A call can end in a fault while it holds the lock: the log sink fails when a bounded wait
has run out, or the counter of signals or of timeouts is full. The lock is given up, with
the mark of the fault on it, and whoever gets it from then on is told of the mark. Nobody
minds (`AutoReset.Threads.Machine.faults_invisible`).

What it would be like without marks is a second way to run the machine: after each step the
marks are taken off every lock (`AutoReset.Threads.Machine.stepUnmarked`), so that every
grant is a clean one. A step does the same on a machine with its marks taken off as on the
machine itself, apart from the marks (`AutoReset.Threads.Machine.step_unmarked`). Hence the
two ways to run accept the same lists of steps, and what can be seen along them, the threads,
the latches and the answers, is the same.
-/

namespace AutoReset

/-- **What a call has done that ends in a fault**: a bounded wait has recorded its timeout
before the sink failed, and with a full counter nothing was done. -/
theorem Call.fault_of_decides {since now : Instant} {l l' : Latch} {c : Call} {f : Fault}
    (h : Decides since now l c (.fault f) l') :
    (f = .sinkFailed ∧ c.isBounded = true ∧ l.stats.timeouts ≠ Counter.last ∧ l' = l.expired) ∨
      (f = .counterOverflow ∧ l' = l ∧
        ((c = .signal ∧ l.stats.posts = Counter.last) ∨
          (c.isBounded = true ∧ l.stats.timeouts = Counter.last))) := by
  cases h with
  | answered ha =>
    generalize hr : Reply.fault f = r at ha
    cases ha with
    | overflow hp =>
      cases hr
      exact Or.inr ⟨rfl, rfl, Or.inl ⟨rfl, hp⟩⟩
    | take hc _ =>
      subst hr
      cases c <;> cases hc
    | miss _ => cases hr
    | expire sinkFails _ _ ht =>
      cases sinkFails with
      | false => cases hr
      | true =>
        cases hr
        exact Or.inl ⟨rfl, rfl, ht, rfl⟩
    | expireOverflow _ _ ht =>
      cases hr
      exact Or.inr ⟨rfl, rfl, Or.inr ⟨rfl, ht⟩⟩
    | look hc =>
      subst hr
      cases c <;> cases hc

namespace Threads

variable {σ : Type} {t m g : Nat}

/-- The monitor without the mark of a fault. -/
def Monitor.unmarked (x : Monitor t) : Monitor t := { x with poisoned := false }

/-- Without the mark the lock grants the same latch, and says nothing of a fault. -/
theorem Monitor.grant_unmarked (x : Monitor t) : x.unmarked.grant = .clean x.latch := rfl

namespace Machine

/-! ### Runs without marks -/

/-- The machine with the marks of faults taken off its locks. -/
def unmarked (μ : Machine σ t m g) : Machine σ t m g :=
  { μ with monitors := μ.monitors.map Monitor.unmarked }

/-- Makes a step, and takes the marks off the locks. -/
def stepUnmarked (p : Program σ m g) (μ : Machine σ t m g) (a : Action t) :
    Option (Machine σ t m g) :=
  (μ.step p a).map unmarked

/-- Makes a list of steps, and takes the marks off the locks after each of them. -/
def stepsUnmarked (p : Program σ m g) :
    Machine σ t m g → List (Action t) → Option (Machine σ t m g)
  | μ, [] => some μ
  | μ, a :: as =>
    match μ.stepUnmarked p a with
    | none => none
    | some μ => stepsUnmarked p μ as

/-- The marks of calls that such a run leaves at an event. -/
def historyUnmarked (p : Program σ m g) (e : Fin m) :
    Machine σ t m g → List (Action t) → List (Mark t)
  | _, [] => []
  | μ, a :: as =>
    match μ.stepUnmarked p a with
    | none => []
    | some ν => mark e μ ν a :: historyUnmarked p e ν as

variable (μ ν : Machine σ t m g)

@[simp] theorem thread_unmarked (θ : Fin t) : μ.unmarked.thread θ = μ.thread θ := rfl

@[simp] theorem status_unmarked (θ : Fin t) : μ.unmarked.status θ = μ.status θ := rfl

@[simp] theorem gate_unmarked (k : Fin g) : μ.unmarked.gate k = μ.gate k := rfl

@[simp] theorem now_unmarked : μ.unmarked.now = μ.now := rfl

@[simp] theorem noSleeper_unmarked (e : Fin m) : μ.unmarked.noSleeper e = μ.noSleeper e := rfl

@[simp] theorem monitor_unmarked (e : Fin m) :
    μ.unmarked.monitor e = (μ.monitor e).unmarked := by
  simp [monitor, unmarked]

@[simp] theorem unmarked_unmarked : μ.unmarked.unmarked = μ.unmarked := by
  simp [unmarked, Function.comp_def, Monitor.unmarked]

@[simp] theorem unmarked_setStatus (θ : Fin t) (s : Status m) :
    (μ.setStatus θ s).unmarked = μ.unmarked.setStatus θ s := rfl

@[simp] theorem unmarked_setReady (θ : Fin t) (x : σ) :
    (μ.setReady θ x).unmarked = μ.unmarked.setReady θ x := rfl

@[simp] theorem unmarked_setGate (k : Fin g) (x : Option (Fin t)) :
    (μ.setGate k x).unmarked = μ.unmarked.setGate k x := rfl

@[simp] theorem unmarked_setMonitor (e : Fin m) (x : Monitor t) :
    (μ.setMonitor e x).unmarked = μ.unmarked.setMonitor e x.unmarked := by
  simp [unmarked, setMonitor, Vector.map_set]

/-- What a step shows of the calls on an event is no matter of marks on locks. -/
theorem mark_unmarked (e : Fin m) (a : Action t) :
    mark e μ.unmarked ν.unmarked a = mark e μ ν a := by
  cases a <;> rfl

/-- **A step does the same without the marks**, apart from the marks. -/
theorem step_unmarked (p : Program σ m g) (a : Action t) :
    μ.unmarked.stepUnmarked p a = μ.stepUnmarked p a := by
  simp only [stepUnmarked]
  cases a with
  | start θ =>
    simp only [step, start, status_unmarked, thread_unmarked, gate_unmarked]
    cases μ.status θ with
    | ready =>
      cases p.next (μ.thread θ).state with
      | none => rfl
      | some q =>
        cases q with
        | call e c => simp
        | lockGate k => by_cases hk : μ.gate k = none <;> simp [hk]
        | unlockGate k => by_cases hk : μ.gate k = some θ <;> simp [hk]
    | _ => rfl
  | acquire θ =>
    simp only [step, acquire, status_unmarked, monitor_unmarked]
    cases μ.status θ with
    | entering v | woken v =>
      by_cases hv : (μ.monitor v.event).holder = none <;> simp [Monitor.unmarked, hv]
    | _ => rfl
  | work θ sinkFails =>
    -- with the mark or without it, what is taken out of the grant is the latch
    simp only [step, work, status_unmarked, monitor_unmarked, Monitor.recover_grant, now_unmarked]
    cases μ.status θ with
    | inside v =>
      simp only [Monitor.unmarked]
      cases v.call.inside v.since μ.now (μ.monitor v.event).latch <;> simp [Monitor.unmarked]
    | _ => rfl
  | notify θ sleeper =>
    simp only [step, notify, status_unmarked, noSleeper_unmarked]
    cases μ.status θ with
    | announcing v =>
      cases sleeper with
      | none => by_cases hn : μ.noSleeper v.event = true <;> simp [hn]
      | some η =>
        simp only
        cases μ.status η with
        | asleep w b => by_cases hw : w.event = v.event <;> simp [hw]
        | _ => rfl
    | _ => rfl
  | leave θ =>
    simp only [step, leave, status_unmarked, monitor_unmarked, thread_unmarked]
    cases μ.status θ with
    | leaving v r => simp [Monitor.unmarked]
    | _ => rfl
  | sleep θ =>
    simp only [step, sleep, status_unmarked, monitor_unmarked]
    cases μ.status θ with
    | drowsy v b => simp [Monitor.unmarked]
    | _ => rfl
  | wake θ =>
    simp only [step, wake, status_unmarked]
    cases μ.status θ with
    | asleep v b => simp
    | _ => rfl
  | expire θ =>
    simp only [step, expire, status_unmarked]
    cases μ.status θ with
    | asleep v b => cases b <;> simp
    | _ => rfl
  | tick later =>
    simp only [step, tick, now_unmarked]
    by_cases hle : μ.now ≤ later <;> simp [hle, unmarked, Function.comp_def, Monitor.unmarked]

/-- **A run without marks is the run itself**, with the marks taken off at its end. -/
theorem steps_unmarked (p : Program σ m g) (as : List (Action t)) :
    μ.unmarked.stepsUnmarked p as = (μ.steps p as).map unmarked := by
  induction as generalizing μ with
  | nil => rfl
  | cons a as ih =>
    rw [stepsUnmarked, step_unmarked, stepUnmarked, steps]
    cases μ.step p a with
    | none => rfl
    | some κ => exact ih κ

/-- In a run without marks the calls are made, decided and answered as in the run itself. -/
theorem history_unmarked (p : Program σ m g) (e : Fin m) (as : List (Action t)) :
    μ.unmarked.historyUnmarked p e as = μ.history p e as := by
  induction as generalizing μ with
  | nil => rfl
  | cons a as ih =>
    rw [historyUnmarked, step_unmarked, stepUnmarked, history]
    cases μ.step p a with
    | none => rfl
    | some κ =>
      simp only [Option.map_some, mark_unmarked]
      rw [ih]

/-! ### Faults leave nothing behind -/

variable {μ ν} {p : Program σ m g} {as : List (Action t)} {e : Fin m} {x : Episode t}

theorem Initial.unmarked (hμ : μ.Initial) : μ.unmarked = μ := by
  have hmonitors : μ.monitors.map Monitor.unmarked = μ.monitors := by
    ext i hi : 1
    rw [Vector.getElem_map]
    have hfresh : μ.monitors[i] = {} := hμ.fresh ⟨i, hi⟩
    rw [hfresh]
    rfl
  rw [Machine.unmarked, hmonitors]

/-- **Whoever has an answer gives up the lock with it**, be it a fault, and touches nothing
else of the event. -/
theorem exists_leave (hμ : μ.Initial) (h : μ.steps p as = some ν) {θ : Fin t} {v : Visit m}
    {r : Reply} (hs : ν.status θ = .leaving v r) :
    (ν.monitor v.event).holder = some θ ∧
      ∃ ν', ν.step p (.leave θ) = some ν' ∧
        ν'.monitor v.event =
          { ν.monitor v.event with
            holder := none
            poisoned := (ν.monitor v.event).poisoned || Reply.isFault r } := by
  constructor
  · have hseat := seat_room (e := v.event) hs
    rw [Status.seat, Visit.seat, if_pos rfl] at hseat
    exact ((hμ.orderly h v.event).fits hseat).holds.mp rfl
  · simp only [step, leave, hs]
    exact ⟨_, rfl, by rw [monitor_setReady, monitor_setMonitor_self]⟩

/-- **A call that ends in a fault** has counted its timeout, or has done nothing, in the one
stay that decided it. -/
theorem exists_fault (hμ : μ.Initial) (h : μ.steps p as = some ν) (hx : x ∈ μ.book p e as)
    {k : Nat} {f : Fault} (hd : x.decided = some (k, .fault f)) :
    ∃ κ κ' sinkFails, μ.StepAt p as k (.work x.thread sinkFails) κ κ' ∧
      μ.WorksOnlyAt p e as x k ∧
      ((f = .sinkFailed ∧ x.call.isBounded = true ∧
          (κ'.monitor e).latch.stats.timeouts.toNat =
            (κ.monitor e).latch.stats.timeouts.toNat + 1 ∧
          (κ'.monitor e).latch =
            { (κ.monitor e).latch with stats.timeouts := (κ'.monitor e).latch.stats.timeouts }) ∨
        (f = .counterOverflow ∧ (κ'.monitor e).latch = (κ.monitor e).latch)) := by
  obtain ⟨ι, hι, -⟩ := exists_steps_take h x.made
  obtain ⟨κ, κ', sinkFails, -, hat, hdecides⟩ := exists_decides hμ h hx hι hd
  refine ⟨κ, κ', sinkFails, hat, worksOnlyAt hμ h hx hd, ?_⟩
  rcases Call.fault_of_decides hdecides with ⟨hf, hc, ht, hl⟩ | ⟨hf, hl, -⟩
  · refine Or.inl ⟨hf, hc, ?_, ?_⟩
    · rw [hl]
      exact Counter.toNat_succ ht
    · rw [hl]
      rfl
  · exact Or.inr ⟨hf, hl⟩

/-- **Faults with the lock in hand are invisible to everyone else.**

* The machine accepts the same lists of steps as one that has no marks of faults, in which
  every grant is a clean one; the two are the same at the end but for the marks, and along
  the way all calls are made, decided and answered alike. The text of an owner, which is made
  from the state in a grant, is the same too.
* A call that ended in a fault holds the lock and can give it up; that marks the lock, and
  leaves the latch as it is.
* If the log sink failed, the call has recorded one timeout and done nothing else to a latch;
  if a counter was full, it has done nothing at all.
* Every latch is in balance. -/
theorem faults_invisible (hμ : μ.Initial) (h : μ.steps p as = some ν) :
    (∀ bs, μ.stepsUnmarked p bs = (μ.steps p bs).map Machine.unmarked ∧
      ∀ e, μ.historyUnmarked p e bs = μ.history p e bs) ∧
    (∀ e, (ν.unmarked.monitor e).grant = .clean (ν.monitor e).latch ∧
      (ν.unmarked.monitor e).holder = (ν.monitor e).holder ∧
      ∀ o : Owner, o.tree (ν.unmarked.monitor e).grant.recover.state =
        o.tree (ν.monitor e).grant.recover.state) ∧
    (∀ θ v f, ν.status θ = .leaving v (.fault f) → (ν.monitor v.event).holder = some θ ∧
      ∃ ν', ν.step p (.leave θ) = some ν' ∧
        ν'.monitor v.event = { ν.monitor v.event with holder := none, poisoned := true }) ∧
    (∀ e, ∀ x ∈ μ.book p e as, ∀ k f, x.decided = some (k, .fault f) →
      ∃ κ κ' sinkFails, μ.StepAt p as k (.work x.thread sinkFails) κ κ' ∧
        μ.WorksOnlyAt p e as x k ∧
        ((f = .sinkFailed ∧ x.call.isBounded = true ∧
            (κ'.monitor e).latch.stats.timeouts.toNat =
              (κ.monitor e).latch.stats.timeouts.toNat + 1 ∧
            (κ'.monitor e).latch =
              { (κ.monitor e).latch with stats.timeouts := (κ'.monitor e).latch.stats.timeouts }) ∨
          (f = .counterOverflow ∧ (κ'.monitor e).latch = (κ.monitor e).latch))) ∧
    ∀ e, (ν.monitor e).latch.Balanced := by
  refine ⟨fun bs => ⟨?_, fun e => ?_⟩, fun e => ?_, fun θ v f hs => ?_, fun e x hx k f hd => ?_,
    fun e => hμ.balanced_of_steps h e⟩
  · conv_lhs => rw [← hμ.unmarked]
    exact steps_unmarked μ p bs
  · conv_lhs => rw [← hμ.unmarked]
    exact history_unmarked μ p e bs
  · rw [monitor_unmarked]
    refine ⟨Monitor.grant_unmarked _, rfl, fun o => ?_⟩
    rw [Monitor.recover_grant, Monitor.recover_grant, Monitor.unmarked]
  · obtain ⟨hholder, ν', hν', hmonitor⟩ := exists_leave hμ h hs
    refine ⟨hholder, ν', hν', ?_⟩
    rw [hmonitor, Reply.isFault, Bool.or_true]
  · exact exists_fault hμ h hx hd

/-- One thread waits, one makes a bounded wait without any time, and one signals. -/
def shaken (e : Fin m) : Machine (Tape m 0) 3 m 0 :=
  ofTapes 0 (.replicate m .fresh)
    [[.call e .wait], [.call e (.waitTimeout .zero)], [.call e .signal]] .zero

/-- While the first thread sleeps the second one ends in the log sink. The signal is posted
and consumed all the same. -/
def shakenRun (θ η ζ : Fin t) : List (Action t) :=
  [.start θ, .acquire θ, .work θ false, .sleep θ,
    .start η, .acquire η, .work η true, .leave η,
    .start ζ, .acquire ζ, .work ζ false, .notify ζ (some θ), .leave ζ,
    .acquire θ, .work θ false, .leave θ]

/-- The lock carries the mark, the sleeper has its signal as if there were none, and the
timeout was counted. -/
theorem faults_invisible_shaken :
    ∃ ν, (shaken (0 : Fin 1)).steps Tape.program (shakenRun 0 1 2) = some ν ∧
      (ν.monitor 0).poisoned = true ∧
      (shaken (0 : Fin 1)).stepsUnmarked Tape.program (shakenRun 0 1 2) = some ν.unmarked ∧
      ((shaken (0 : Fin 1)).historyUnmarked Tape.program 0 (shakenRun 0 1 2))[15]? =
        some (.returned 0 .wait .done) ∧
      ∃ κ κ' sinkFails, (shaken (0 : Fin 1)).StepAt Tape.program (shakenRun 0 1 2) 6
          (.work 1 sinkFails) κ κ' ∧
        (κ'.monitor 0).latch.stats.timeouts.toNat =
          (κ.monitor 0).latch.stats.timeouts.toNat + 1 := by
  obtain ⟨ν, hν⟩ : ∃ ν, (shaken (0 : Fin 1)).steps Tape.program (shakenRun 0 1 2) = some ν :=
    Option.isSome_iff_exists.mp (by decide +kernel)
  have hpoisoned : (ν.monitor 0).poisoned = true :=
    of_steps (f := fun ν => (ν.monitor 0).poisoned) (by decide +kernel) hν
  have hinitial : (shaken (0 : Fin 1)).Initial := initial_ofTapes ..
  obtain ⟨hruns, -, -, hfaults, -⟩ := faults_invisible hinitial hν
  obtain ⟨hsteps, hhistory⟩ := hruns (shakenRun 0 1 2)
  have hx : ⟨1, .waitTimeout .zero, 4, some (6, .fault .sinkFailed), some (7, .fault .sinkFailed)⟩ ∈
      (shaken (0 : Fin 1)).book Tape.program 0 (shakenRun 0 1 2) := Or.inl (by decide +kernel)
  obtain ⟨κ, κ', sinkFails, hat, -, ⟨-, -, htimeouts, -⟩ | ⟨hf, -⟩⟩ := hfaults 0 _ hx 6 _ rfl
  · refine ⟨ν, hν, hpoisoned, ?_, ?_, κ, κ', sinkFails, hat, htimeouts⟩
    · rw [hsteps, hν, Option.map_some]
    · rw [hhistory 0]
      decide +kernel
  · cases hf

end Machine

end Threads

end AutoReset
