import AutoReset.Proofs.Threads.Wakeup
import AutoReset.Proofs.Threads.Quiescence
/-!
# Threads that go through their tapes

Rooms show one event with all of its threads. Here the same steps are read thread by thread,
with all events at once. The **account** of a thread (`AutoReset.Threads.Machine.account`) is
the state of its program and, if it is in a call, what was called and the answer once that is
settled. A step makes a call, lets one pass a gate, decides a call or lets it return, and
touches one account; or it leaves all accounts and all latches as they are
(`AutoReset.Threads.Machine.Turn`).

A program that is a tape only ever has one thing to do next. Its **position**
(`AutoReset.Threads.Machine.position`) is the number of its requests that are decided, and
where a position moves on, it is the request at this position that was decided
(`AutoReset.Threads.Machine.Follows.turn`). So what a run of tapes does to the latches is told
by positions alone.

Where no thread can make a step of its own accord
(`AutoReset.Threads.Machine.advance`), every thread is through or asleep, and nothing is
pending where one sleeps (`AutoReset.Threads.Machine.asleep_of_stuck`).
-/

namespace AutoReset.Threads

/-- The call that a thread is in, and the answer if it is settled. -/
def Status.outline {m : Nat} : Status m → Option (Visit m × Option Reply)
  | .ready => none
  | .entering v | .inside v | .drowsy v _ | .asleep v _ | .woken v => some (v, none)
  | .announcing v => some (v, some .done)
  | .leaving v r => some (v, some r)

namespace Machine

variable {σ : Type} {t m g : Nat}

/-- The state of a thread's program, and the call that the thread is in. -/
def account (μ : Machine σ t m g) (θ : Fin t) : σ × Option (Visit m × Option Reply) :=
  ((μ.thread θ).state, (μ.status θ).outline)

/-- The latch of each event. -/
def latches (μ : Machine σ t m g) (e : Fin m) : Latch := (μ.monitor e).latch

section Setters

variable (μ : Machine σ t m g)

theorem account_setStatus (θ : Fin t) (s : Status m) :
    (μ.setStatus θ s).account = Function.update μ.account θ ((μ.thread θ).state, s.outline) := by
  funext η
  by_cases h : η = θ
  · subst h
    simp [account, status]
  · simp [account, status, thread_setStatus_of_ne _ _ h, h]

theorem account_setReady (θ : Fin t) (x : σ) :
    (μ.setReady θ x).account = Function.update μ.account θ (x, none) := by
  funext η
  by_cases h : η = θ
  · subst h
    simp [account, status, Status.outline]
  · simp [account, status, thread_setReady_of_ne _ _ h, h]

@[simp] theorem account_setMonitor (e : Fin m) (x : Monitor t) :
    (μ.setMonitor e x).account = μ.account := rfl

@[simp] theorem account_setGate (k : Fin g) (x : Option (Fin t)) :
    (μ.setGate k x).account = μ.account := rfl

@[simp] theorem latches_setStatus (θ : Fin t) (s : Status m) :
    (μ.setStatus θ s).latches = μ.latches := rfl

@[simp] theorem latches_setReady (θ : Fin t) (x : σ) : (μ.setReady θ x).latches = μ.latches := rfl

@[simp] theorem latches_setGate (k : Fin g) (x : Option (Fin t)) :
    (μ.setGate k x).latches = μ.latches := rfl

theorem latches_setMonitor (e : Fin m) (x : Monitor t) :
    (μ.setMonitor e x).latches = Function.update μ.latches e x.latch := by
  funext f
  by_cases h : f = e
  · subst h
    simp [latches]
  · simp [latches, monitor_setMonitor_of_ne _ _ h, h]

end Setters

variable {p : Program σ m g} {μ ν : Machine σ t m g} {θ : Fin t}

/-- Who goes on with its call and settles nothing keeps its account. -/
theorem account_setStatus_of_outline {s : Status m} (h : s.outline = (μ.status θ).outline) :
    (μ.setStatus θ s).account = μ.account := by
  rw [account_setStatus, h]
  exact Function.update_eq_self θ μ.account

/-- Giving and taking the lock leaves the latches alone. -/
theorem latches_setMonitor_of_eq {e : Fin m} {x : Monitor t} (h : x.latch = (μ.monitor e).latch) :
    (μ.setMonitor e x).latches = μ.latches := by
  rw [latches_setMonitor, h]
  exact Function.update_eq_self e μ.latches

/-! ### What a step settles -/

/-- **What a step settles**, thread by thread. -/
inductive Turn (p : Program σ m g) (μ ν : Machine σ t m g) : Prop
  /-- A thread makes a call. -/
  | made {θ : Fin t} {x : σ} {e : Fin m} {c : Call} (hθ : μ.account θ = (x, none))
    (hnext : p.next x = some (.call e c))
    (ha : ν.account = Function.update μ.account θ (x, some (⟨e, c, μ.now⟩, none)))
    (hl : ν.latches = μ.latches) : Turn p μ ν
  /-- A thread passes a gate, in or out. -/
  | passed {θ : Fin t} {x : σ} {k : Fin g} (hθ : μ.account θ = (x, none))
    (hnext : p.next x = some (.lockGate k) ∨ p.next x = some (.unlockGate k))
    (ha : ν.account = Function.update μ.account θ (p.resume x .done, none))
    (hl : ν.latches = μ.latches) : Turn p μ ν
  /-- A call is decided. -/
  | decided {θ : Fin t} {x : σ} {v : Visit m} {r : Reply} {l : Latch}
    (hθ : μ.account θ = (x, some (v, none)))
    (hd : v.call.Decides v.since μ.now (μ.latches v.event) r l)
    (ha : ν.account = Function.update μ.account θ (x, some (v, some r)))
    (hl : ν.latches = Function.update μ.latches v.event l) : Turn p μ ν
  /-- A call returns. -/
  | returned {θ : Fin t} {x : σ} {v : Visit m} {r : Reply}
    (hθ : μ.account θ = (x, some (v, some r)))
    (ha : ν.account = Function.update μ.account θ (p.resume x r, none))
    (hl : ν.latches = μ.latches) : Turn p μ ν
  /-- Nothing is settled. -/
  | silent (ha : ν.account = μ.account) (hl : ν.latches = μ.latches) : Turn p μ ν

theorem account_eq {s : Status m} (h : μ.status θ = s) :
    μ.account θ = ((μ.thread θ).state, s.outline) := by
  rw [account, h]

/-- A stay decides its call, or settles nothing. -/
theorem work_turn {sinkFails : Bool} (hb : ∀ e, (μ.monitor e).latch.Balanced)
    (h : μ.work θ sinkFails = some ν) : μ.Turn p ν := by
  obtain ⟨v, hs⟩ := exists_inside_of_work h
  obtain ⟨l, stage, hstay, hwork⟩ := work_eq sinkFails hs (hb v.event)
  cases hwork.symm.trans h
  have hlatches : ∀ s : Status m, ((μ.setMonitor v.event
      { μ.monitor v.event with latch := l }).setStatus θ s).latches =
        Function.update μ.latches v.event l := fun s => by
    rw [latches_setStatus, latches_setMonitor]
  have haccount : ∀ s : Status m, ((μ.setMonitor v.event
      { μ.monitor v.event with latch := l }).setStatus θ s).account =
        Function.update μ.account θ ((μ.thread θ).state, s.outline) := fun s => by
    rw [account_setStatus, account_setMonitor, thread_setMonitor]
  obtain ⟨e, c, i⟩ := v
  cases hstay with
  | posted hp => exact .decided (account_eq hs) (.posted hp) (haccount _) (hlatches _)
  | dozed hu hbound =>
    refine .silent ?_ ?_
    · exact account_setStatus_of_outline (congrArg Status.outline hs).symm
    · rw [hlatches]
      exact Function.update_eq_self e μ.latches
  | answered ha hr => exact .decided (account_eq hs) (.answered ha) (haccount _) (hlatches _)

/-- **Every step is of one of the five kinds.** -/
theorem step_turn {a : Action t} (hb : ∀ e, (μ.monitor e).latch.Balanced)
    (h : μ.step p a = some ν) : μ.Turn p ν := by
  cases a with
  | start θ =>
    obtain ⟨hs, ⟨e, c, hnext, rfl⟩ | ⟨k, hnext, -, rfl⟩ | ⟨k, hnext, -, rfl⟩⟩ := exists_of_start h
    · exact .made (account_eq hs) hnext (account_setStatus ..) rfl
    · exact .passed (account_eq hs) (Or.inl hnext) (account_setReady ..) rfl
    · exact .passed (account_eq hs) (Or.inr hnext) (account_setReady ..) rfl
  | acquire θ =>
    obtain ⟨v, hs, -, rfl⟩ := exists_of_acquire h
    have hout : (μ.status θ).outline = some (v, none) := by
      rcases hs with hs | hs <;> rw [hs] <;> rfl
    exact .silent (account_setStatus_of_outline hout.symm) (latches_setMonitor_of_eq rfl)
  | work θ sinkFails => exact work_turn hb h
  | notify θ sleeper =>
    obtain ⟨v, hs, ⟨-, -, rfl⟩ | ⟨η, w, b, -, hη, -, rfl⟩⟩ := exists_of_notify h
    · exact .silent (account_setStatus_of_outline (congrArg Status.outline hs).symm) rfl
    · have hne : θ ≠ η := by
        rintro rfl
        cases hs.symm.trans hη
      have hs' : (μ.setStatus η (.woken w)).status θ = .announcing v := by
        rw [status, thread_setStatus_of_ne _ _ hne]
        exact hs
      refine .silent ?_ rfl
      -- the signal leaves, after the sleeper was woken
      have hleft := account_setStatus_of_outline (s := .leaving v .done)
        (congrArg Status.outline hs').symm
      exact hleft.trans (account_setStatus_of_outline (congrArg Status.outline hη).symm)
  | leave θ =>
    obtain ⟨v, r, hs, rfl⟩ := exists_of_leave h
    exact .returned (account_eq hs) (account_setReady ..) (latches_setMonitor_of_eq rfl)
  | sleep θ =>
    obtain ⟨v, b, hs, rfl⟩ := exists_of_sleep h
    exact .silent (account_setStatus_of_outline (congrArg Status.outline hs).symm)
      (latches_setMonitor_of_eq rfl)
  | wake θ =>
    obtain ⟨v, b, hs, rfl⟩ := exists_of_wake h
    exact .silent (account_setStatus_of_outline (congrArg Status.outline hs).symm) rfl
  | expire θ =>
    obtain ⟨v, d, hs, rfl⟩ := exists_of_expire h
    exact .silent (account_setStatus_of_outline (congrArg Status.outline hs).symm) rfl
  | tick later =>
    obtain ⟨-, rfl⟩ := exists_of_tick h
    exact .silent rfl rfl

/-! ### Tapes -/

/-- Is the call that a thread is in decided? -/
def settled : Option (Visit m × Option Reply) → Nat
  | some (_, some _) => 1
  | _ => 0

/-- The number of requests of its tape that a thread has decided. -/
def position (μ : Machine (Tape m g) t m g) (θ : Fin t) : Nat :=
  (μ.account θ).1.made.length + settled (μ.account θ).2

/-- **The threads go through these tapes**: each has answers to a beginning of its tape, still
has the rest before it, and if it is in a call, that is the first request of the rest. -/
def Follows (tape : Fin t → List (Request m g)) (μ : Machine (Tape m g) t m g) : Prop :=
  ∀ θ, (μ.account θ).1.todo = (tape θ).drop (μ.account θ).1.made.length ∧
    ∀ v r, (μ.account θ).2 = some (v, r) →
      (tape θ)[(μ.account θ).1.made.length]? = some (.call v.event v.call)

section Tapes

variable {tape : Fin t → List (Request m g)} {μ ν : Machine (Tape m g) t m g}

theorem Follows.next (h : μ.Follows tape) (θ : Fin t) :
    Tape.program.next (μ.account θ).1 = (tape θ)[(μ.account θ).1.made.length]? := by
  change (μ.account θ).1.todo.head? = _
  rw [(h θ).1, List.head?_drop]

/-- With an answer to its next request a tape is one request further. -/
theorem resume_eq {x : Tape m g} {l : List (Request m g)} {q : Request m g}
    (htodo : x.todo = l.drop x.made.length) (hq : l[x.made.length]? = some q) (r : Reply) :
    (Tape.program.resume x r).made.length = x.made.length + 1 ∧
      (Tape.program.resume x r).todo = l.drop (x.made.length + 1) := by
  obtain ⟨hlt, hget⟩ := List.getElem?_eq_some_iff.mp hq
  rw [List.drop_eq_getElem_cons hlt] at htodo
  simp only [Tape.program, htodo, List.length_cons, and_self]

/-- A thread gets another account, and the threads go through the tapes as before. -/
theorem Follows.update (h : μ.Follows tape) {y : Tape m g × Option (Visit m × Option Reply)}
    (ha : ν.account = Function.update μ.account θ y)
    (hy : y.1.todo = (tape θ).drop y.1.made.length ∧ ∀ v r, y.2 = some (v, r) →
      (tape θ)[y.1.made.length]? = some (.call v.event v.call)) : ν.Follows tape := by
  intro η
  rw [ha]
  by_cases hη : η = θ
  · subst hη
    rwa [Function.update_self]
  · rw [Function.update_of_ne hη]
    exact h η

theorem position_update {y : Tape m g × Option (Visit m × Option Reply)}
    (ha : ν.account = Function.update μ.account θ y) :
    ν.position = Function.update μ.position θ (y.1.made.length + settled y.2) := by
  funext η
  by_cases hη : η = θ
  · subst hη
    simp [position, ha]
  · simp [position, ha, hη]

theorem position_eq_of_account {y : Tape m g × Option (Visit m × Option Reply)}
    (ha : ν.account = Function.update μ.account θ y)
    (hy : y.1.made.length + settled y.2 = μ.position θ) : ν.position = μ.position := by
  rw [position_update ha, hy]
  exact Function.update_eq_self θ μ.position

theorem position_eq {x : Tape m g} {o : Option (Visit m × Option Reply)}
    (h : μ.account θ = (x, o)) : μ.position θ = x.made.length + settled o := by
  rw [position, h]

/-- **What a step does to positions and latches**: nothing; or a request is decided, and is
done to the latch of its event; or a gate is passed. -/
theorem Follows.turn (h : μ.Follows tape) (ht : μ.Turn Tape.program ν) :
    ν.Follows tape ∧
      ((ν.position = μ.position ∧ ν.latches = μ.latches) ∨
        (∃ θ e c i r l, (tape θ)[μ.position θ]? = some (.call e c) ∧
          c.Decides i μ.now (μ.latches e) r l ∧
          ν.position = Function.update μ.position θ (μ.position θ + 1) ∧
          ν.latches = Function.update μ.latches e l) ∨
        ∃ θ k, ((tape θ)[μ.position θ]? = some (.lockGate k) ∨
            (tape θ)[μ.position θ]? = some (.unlockGate k)) ∧
          ν.position = Function.update μ.position θ (μ.position θ + 1) ∧
          ν.latches = μ.latches) := by
  cases ht with
  | @made θ x e c hθ hnext ha hl =>
    have hx := h θ
    have hnext' := h.next θ
    rw [hθ] at hx hnext'
    refine ⟨h.update ha ⟨hx.1, ?_⟩, Or.inl ⟨?_, hl⟩⟩
    · rintro v r hv
      cases hv
      exact hnext'.symm.trans hnext
    · exact position_eq_of_account ha (position_eq hθ).symm
  | @passed θ x k hθ hnext ha hl =>
    have hx := h θ
    have hnext' := h.next θ
    rw [hθ] at hx hnext'
    obtain ⟨q, hq⟩ : ∃ q, (tape θ)[x.made.length]? = some q := by
      rcases hnext with hq | hq <;> exact ⟨_, hnext'.symm.trans hq⟩
    obtain ⟨hlen, htodo⟩ := resume_eq hx.1 hq .done
    have hpos : μ.position θ = x.made.length := position_eq hθ
    refine ⟨h.update ha ⟨?_, ?_⟩, Or.inr (Or.inr ⟨θ, k, ?_, ?_, hl⟩)⟩
    · rw [htodo, hlen]
    · rintro v r ⟨⟩
    · rw [hpos, ← hnext']
      exact hnext
    · rw [position_update ha, hpos, hlen]
      rfl
  | @decided θ x v r l hθ hd ha hl =>
    have hx := h θ
    rw [hθ] at hx
    have hpos : μ.position θ = x.made.length := position_eq hθ
    refine ⟨h.update ha ⟨hx.1, ?_⟩, Or.inr (Or.inl ⟨θ, v.event, v.call, v.since, r, l, ?_, hd, ?_,
      hl⟩)⟩
    · rintro w s hw
      cases hw
      exact hx.2 v none rfl
    · rw [hpos]
      exact hx.2 v none rfl
    · rw [position_update ha, hpos]
      rfl
  | @returned θ x v r hθ ha hl =>
    have hx := h θ
    rw [hθ] at hx
    obtain ⟨hlen, htodo⟩ := resume_eq hx.1 (hx.2 v _ rfl) r
    refine ⟨h.update ha ⟨?_, ?_⟩, Or.inl ⟨?_, hl⟩⟩
    · rw [htodo, hlen]
    · rintro w s ⟨⟩
    · -- the answer was counted when it was settled, and is now on the tape
      refine position_eq_of_account ha ?_
      rw [position_eq hθ, hlen]
      rfl
  | silent ha hl =>
    refine ⟨fun θ => ?_, Or.inl ⟨?_, hl⟩⟩
    · rw [ha]
      exact h θ
    · funext θ
      rw [position, ha]
      rfl

/-- Tapes that are about to run are followed from their beginning. -/
theorem follows_ofTapes (latches : Vector Latch m) (tapes : List (List (Request m g)))
    (now : Instant) : (ofTapes g latches tapes now).Follows tapes.get := by
  intro θ
  simp [account, thread, status, ofTapes, Status.outline]

theorem position_ofTapes (latches : Vector Latch m) (tapes : List (List (Request m g)))
    (now : Instant) : (ofTapes g latches tapes now).position = fun _ => 0 := by
  funext θ
  simp [position, account, thread, status, ofTapes, Status.outline, settled]

end Tapes

/-! ### Where nobody can go on -/

/-- A thread that cannot make its step is in no call and asks for none, is asleep, or is kept
from the lock. -/
theorem cases_of_advance_eq_none (hb : ∀ e, (μ.monitor e).latch.Balanced)
    (h : μ.advance p θ = none) :
    (μ.status θ = .ready ∧ ∀ e c, p.next (μ.thread θ).state ≠ some (.call e c)) ∨
      (∃ v b, μ.status θ = .asleep v b) ∨
      ∃ v η, (μ.monitor v.event).holder = some η ∧
        (μ.status θ = .entering v ∨ μ.status θ = .woken v) := by
  have hwants : ∀ v, (μ.status θ = .entering v ∨ μ.status θ = .woken v) →
      ∃ η, (μ.monitor v.event).holder = some η := by
    intro v hs
    cases hfree : (μ.monitor v.event).holder with
    | some η => exact ⟨η, rfl⟩
    | none => rcases hs with hs | hs <;> simp [advance, turn, hs, step, acquire, hfree] at h
  cases hs : μ.status θ with
  | ready =>
    refine Or.inl ⟨rfl, ?_⟩
    rintro e c hq
    simp [advance, turn, hs, step, start, hq] at h
  | entering v =>
    obtain ⟨η, hη⟩ := hwants v (Or.inl hs)
    exact Or.inr (Or.inr ⟨v, η, hη, Or.inl rfl⟩)
  | woken v =>
    obtain ⟨η, hη⟩ := hwants v (Or.inr hs)
    exact Or.inr (Or.inr ⟨v, η, hη, Or.inr rfl⟩)
  | inside v =>
    obtain ⟨l, stage, -, hwork⟩ := work_eq false hs (hb v.event)
    simp [advance, turn, hs, step, hwork] at h
  | announcing v =>
    -- it tells the first sleeper, or nobody if there is none
    cases hf : (List.finRange t).find? (μ.sleepsOn v.event) with
    | none =>
      have hn : μ.noSleeper v.event = true := by
        simpa [noSleeper] using hf
      simp [advance, turn, hs, step, notify, hf, hn] at h
    | some η =>
      have hη := List.find?_some hf
      cases hsη : μ.status η with
      | asleep w b =>
        have hw : w.event = v.event := by simpa [sleepsOn, hsη, Status.sleepsOn] using hη
        simp [advance, turn, hs, step, notify, hf, hsη, hw] at h
      | _ => simp [sleepsOn, hsη, Status.sleepsOn] at hη
  | leaving v r => simp [advance, turn, hs, step, leave] at h
  | drowsy v b => simp [advance, turn, hs, step, sleep] at h
  | asleep v b => exact Or.inr (Or.inl ⟨v, b, rfl⟩)

/-- **Where no thread can make a step, each is through or sleeps**, and nothing is pending
where one sleeps. -/
theorem asleep_of_stuck {p : Program σ m 0} {as : List (Action t)} {μ ν : Machine σ t m 0}
    (hμ : μ.Initial) (h : μ.steps p as = some ν) (hstuck : ∀ θ, ν.advance p θ = none)
    (θ : Fin t) :
    (ν.status θ = .ready ∧ p.next (ν.thread θ).state = none) ∨
      ∃ v b, ν.status θ = .asleep v b ∧ (ν.monitor v.event).latch.signaled = false := by
  have hb : ∀ e, (ν.monitor e).latch.Balanced := hμ.balanced_of_steps h
  -- nobody holds a lock, for whoever does could go on
  have hfree : ∀ e, (ν.monitor e).holder = none := by
    intro e
    by_contra hheld
    obtain ⟨η, hη⟩ := Option.ne_none_iff_exists'.mp hheld
    obtain ⟨s, hs⟩ := (hμ.orderly h e).seated hη
    have hholds := ((hμ.orderly h e).fits hs).holds.mpr hη
    have hstatus := Status.eq_of_seat hs
    rcases cases_of_advance_eq_none hb (hstuck η) with ⟨hr, -⟩ | ⟨v, b, hr⟩ | ⟨v, ζ, -, hr | hr⟩ <;>
      rw [hstatus] at hr <;> cases hst : s.stage <;> simp_all [Stage.holds, Stage.status]
  rcases cases_of_advance_eq_none hb (hstuck θ) with ⟨hready, hcalls⟩ | ⟨v, b, hs⟩ | ⟨v, η, hη, -⟩
  · -- without gates there is nothing but calls to ask for
    refine Or.inl ⟨hready, ?_⟩
    rcases hq : p.next (ν.thread θ).state with _ | ⟨e, c⟩ | k | k
    · rfl
    · exact absurd hq (hcalls e c)
    · exact k.elim0
    · exact k.elim0
  · refine Or.inr ⟨v, b, hs, ?_⟩
    by_contra hsig
    have hsleeps : (ν.room v.event).Sleeps θ := by
      refine sleeps_room_iff.mpr ?_
      simp [sleepsOn, hs, Status.sleepsOn]
    obtain ⟨η, c, i, hη, -⟩ := (hμ.attended h v.event).exists_woken (hμ.orderly h v.event)
      (hfree v.event) ((Bool.not_eq_false _).mp hsig) ⟨θ, hsleeps⟩
    have hstatus := Status.eq_of_seat hη
    rcases cases_of_advance_eq_none hb (hstuck η) with ⟨hr, -⟩ | ⟨w, d, hr⟩ | ⟨w, ζ, hζ, -⟩
    · cases hstatus.symm.trans hr
    · cases hstatus.symm.trans hr
    · cases (hfree w.event).symm.trans hζ
  · cases (hfree v.event).symm.trans hη

end Machine

end AutoReset.Threads
