import AutoReset.Proofs.Threads.Course
/-!
# One call, step by step

What other threads do to a call is next to nothing: they may wake it when it sleeps. All else
that happens to its stage its own thread does, and `AutoReset.Threads.Stage.Goes` lists it, with
what the thread has read of the clock and the latch (`AutoReset.Threads.Machine.goes_of_step`).

So what holds of a call from its making to its return is proved along its own steps: it holds
when the call has just been made, and each of these steps keeps it
(`AutoReset.Threads.Machine.course_induction`).
-/

namespace AutoReset.Threads

variable {t m : Nat}

/-- Does the step wake this thread, if it sleeps? -/
def Action.wakes (θ : Fin t) : Action t → Bool
  | wake η | expire η => η = θ
  | notify _ sleeper => sleeper = some θ
  | _ => false

/-- **What a step does to a call that goes on**: the thread is in it since `i`, and the room is
the one before the step. -/
inductive Stage.Goes (R : Room t) (θ : Fin t) (c : Call) (i : Instant) :
    Action t → Stage → Stage → Prop
  /-- It is a step of others. -/
  | stayed {a : Action t} {stage : Stage} (hthread : a.thread? ≠ some θ)
    (hwakes : a.wakes θ = false) : Goes R θ c i a stage stage
  /-- It gets the lock. -/
  | entered {stage : Stage} (h : stage = .entering ∨ stage = .woken) :
    Goes R θ c i (.acquire θ) stage .inside
  /-- It makes its stay inside the lock. -/
  | worked {sinkFails : Bool} {l : Latch} {stage : Stage}
    (h : Machine.Stays i R.now R.latch sinkFails c l stage) :
    Goes R θ c i (.work θ sinkFails) .inside stage
  /-- It announces its signal. -/
  | announced {sleeper : Option (Fin t)} :
    Goes R θ c i (.notify θ sleeper) .announcing (.leaving .done)
  /-- It falls asleep. -/
  | slept {b : Option Duration} : Goes R θ c i (.sleep θ) (.drowsy b) (.asleep b)
  /-- It wakes. -/
  | woke {a : Action t} {b : Option Duration} (hwakes : a.wakes θ = true) :
    Goes R θ c i a (.asleep b) .woken

/-- The seat of a thread that has got this far with a call. -/
theorem Stage.seat_status (stage : Stage) (v : Visit m) :
    (stage.status v).seat v.event = some ⟨v.call, v.since, stage⟩ := by
  cases stage <;> exact if_pos rfl

theorem Stage.status_inj {stage stage' : Stage} {v : Visit m} :
    stage.status v = stage'.status v ↔ stage = stage' := by
  refine ⟨fun h => ?_, fun h => h ▸ rfl⟩
  have hseat := congrArg (Status.seat v.event) h
  rw [seat_status, seat_status] at hseat
  cases hseat
  rfl

theorem Stage.status_ne_ready (stage : Stage) (v : Visit m) : stage.status v ≠ .ready := by
  cases stage <;> nofun

namespace Machine

variable {σ : Type} {g : Nat} {p : Program σ m g} {μ ν κ κ' : Machine σ t m g} {e : Fin m}
  {as : List (Action t)} {x : Episode t} {θ : Fin t} {j : Nat}

section Setters

variable (μ)

theorem status_setStatus_self (s : Status m) : (μ.setStatus θ s).status θ = s := by
  simp [status]

theorem status_setStatus_of_ne {η : Fin t} (s : Status m) (h : θ ≠ η) :
    (μ.setStatus η s).status θ = μ.status θ := by
  simp [status, thread_setStatus_of_ne _ _ h]

theorem status_setReady_of_ne {η : Fin t} (s : σ) (h : θ ≠ η) :
    (μ.setReady η s).status θ = μ.status θ := by
  simp [status, thread_setReady_of_ne _ _ h]

end Setters

/-- A stay of another thread. -/
theorem status_work_of_ne {η : Fin t} {sinkFails : Bool} (h : μ.work η sinkFails = some ν)
    (hne : θ ≠ η) : ν.status θ = μ.status θ := by
  obtain ⟨v, hs⟩ := exists_inside_of_work h
  simp only [work, hs] at h
  split at h
  · cases h
    exact status_setStatus_of_ne _ _ hne
  · cases h
    exact status_setStatus_of_ne _ _ hne

/-- **Other threads leave a thread where it stands**, but for waking it. -/
theorem status_of_step {a : Action t} (h : μ.step p a = some ν) (hthread : a.thread? ≠ some θ)
    (hwakes : a.wakes θ = false) : ν.status θ = μ.status θ := by
  have hne : ∀ {η : Fin t}, a.thread? = some η → θ ≠ η := by
    rintro η hη rfl
    exact hthread hη
  cases a with
  | start η =>
    obtain ⟨-, ⟨f, c, -, rfl⟩ | ⟨k, -, -, rfl⟩ | ⟨k, -, -, rfl⟩⟩ := exists_of_start h
    · exact status_setStatus_of_ne _ _ (hne rfl)
    · exact status_setReady_of_ne _ _ (hne rfl)
    · exact status_setReady_of_ne _ _ (hne rfl)
  | acquire η =>
    obtain ⟨v, -, -, rfl⟩ := exists_of_acquire h
    exact status_setStatus_of_ne _ _ (hne rfl)
  | work η sinkFails => exact status_work_of_ne h (hne rfl)
  | notify η sleeper =>
    obtain ⟨v, -, ⟨-, -, rfl⟩ | ⟨ζ, w, b, rfl, -, -, rfl⟩⟩ := exists_of_notify h
    · exact status_setStatus_of_ne _ _ (hne rfl)
    · have hζ : θ ≠ ζ := by
        rintro rfl
        simp [Action.wakes] at hwakes
      rw [status_setStatus_of_ne _ _ (hne rfl), status_setStatus_of_ne _ _ hζ]
  | leave η =>
    obtain ⟨v, r, -, rfl⟩ := exists_of_leave h
    exact status_setReady_of_ne _ _ (hne rfl)
  | sleep η =>
    obtain ⟨v, b, -, rfl⟩ := exists_of_sleep h
    exact status_setStatus_of_ne _ _ (hne rfl)
  | wake η =>
    obtain ⟨v, b, -, rfl⟩ := exists_of_wake h
    exact status_setStatus_of_ne _ _ (hne rfl)
  | expire η =>
    obtain ⟨v, d, -, rfl⟩ := exists_of_expire h
    exact status_setStatus_of_ne _ _ (hne rfl)
  | tick later =>
    obtain ⟨-, rfl⟩ := exists_of_tick h
    rfl

/-- **A step that wakes a thread finds it asleep.** -/
theorem woken_of_wakes {a : Action t} (h : μ.step p a = some ν) (hwakes : a.wakes θ = true) :
    ∃ v b, μ.status θ = .asleep v b ∧ ν.status θ = .woken v := by
  cases a with
  | wake η =>
    obtain rfl : η = θ := of_decide_eq_true hwakes
    obtain ⟨v, b, hs, rfl⟩ := exists_of_wake h
    exact ⟨v, b, hs, status_setStatus_self ..⟩
  | expire η =>
    obtain rfl : η = θ := of_decide_eq_true hwakes
    obtain ⟨v, d, hs, rfl⟩ := exists_of_expire h
    exact ⟨v, some d, hs, status_setStatus_self ..⟩
  | notify η sleeper =>
    obtain rfl : sleeper = some θ := of_decide_eq_true hwakes
    obtain ⟨v, hs, ⟨hnone, -⟩ | ⟨ζ, w, b, hζ, hw, -, rfl⟩⟩ := exists_of_notify h
    · cases hnone
    · cases hζ
      have hne : θ ≠ η := by
        rintro rfl
        cases hs.symm.trans hw
      refine ⟨w, b, hw, ?_⟩
      rw [status_setStatus_of_ne _ _ hne, status_setStatus_self]
  | _ => cases hwakes

/-- What a thread does with its own call, but for waking. -/
theorem goes_of_thread {a : Action t} {v : Visit m} {stage stage' : Stage}
    (hb : (μ.monitor v.event).latch.Balanced) (h : μ.step p a = some ν)
    (hthread : a.thread? = some θ) (hwakes : a.wakes θ = false) (hs : μ.status θ = stage.status v)
    (hs' : ν.status θ = stage'.status v) :
    stage.Goes (μ.room v.event) θ v.call v.since a stage' := by
  cases a with
  | start η =>
    cases hthread
    exact absurd (hs.symm.trans (exists_of_start h).1) (stage.status_ne_ready v)
  | acquire η =>
    cases hthread
    obtain ⟨w, hw, -, rfl⟩ := exists_of_acquire h
    obtain rfl : stage' = .inside := by
      rw [status_setStatus_self] at hs'
      cases stage' <;> cases hs'
      rfl
    refine .entered ?_
    rw [hs] at hw
    cases stage <;> simp [Stage.status] at hw ⊢
  | work η sinkFails =>
    cases hthread
    obtain ⟨w, hw⟩ := exists_inside_of_work h
    rw [hs] at hw
    cases stage <;> cases hw
    obtain ⟨l, stage, hstays, hwork⟩ := work_eq sinkFails hs hb
    cases hwork.symm.trans h
    rw [status_setStatus_self] at hs'
    exact .worked (Stage.status_inj.mp hs' ▸ hstays)
  | notify η sleeper =>
    cases hthread
    obtain ⟨w, hw, hcases⟩ := exists_of_notify h
    obtain rfl : stage' = .leaving .done := by
      rcases hcases with ⟨-, -, rfl⟩ | ⟨ζ, u, b, -, -, -, rfl⟩ <;>
      · rw [status_setStatus_self] at hs'
        cases stage' <;> cases hs'
        rfl
    rw [hs] at hw
    cases stage <;> cases hw
    exact .announced
  | leave η =>
    cases hthread
    obtain ⟨w, r, -, rfl⟩ := exists_of_leave h
    have hready : ∀ (κ : Machine σ t m g) (y : σ), (κ.setReady θ y).status θ = .ready :=
      fun κ y => by simp [status]
    exact absurd (hs'.symm.trans (hready _ _)) (stage'.status_ne_ready v)
  | sleep η =>
    cases hthread
    obtain ⟨w, b, hw, rfl⟩ := exists_of_sleep h
    rw [hs] at hw
    rw [status_setStatus_self] at hs'
    cases stage <;> cases hw
    cases stage' <;> cases hs'
    exact .slept
  | wake η | expire η =>
    cases hthread
    simp [Action.wakes] at hwakes
  | tick later => cases hthread

/-- **What a step does to a call that goes on.** -/
theorem goes_of_step {a : Action t} {v : Visit m} {stage stage' : Stage}
    (hb : (μ.monitor v.event).latch.Balanced) (h : μ.step p a = some ν)
    (hs : μ.status θ = stage.status v) (hs' : ν.status θ = stage'.status v) :
    stage.Goes (μ.room v.event) θ v.call v.since a stage' := by
  by_cases hwakes : a.wakes θ = true
  · obtain ⟨w, b, hw, hw'⟩ := woken_of_wakes h hwakes
    rw [hs] at hw
    rw [hs'] at hw'
    cases stage <;> cases hw
    cases stage' <;> cases hw'
    exact .woke hwakes
  · rw [Bool.not_eq_true] at hwakes
    by_cases hthread : a.thread? = some θ
    · exact goes_of_thread hb h hthread hwakes hs hs'
    · obtain rfl : stage' = stage := Stage.status_inj.mp
        (hs'.symm.trans ((status_of_step h hthread hwakes).trans hs))
      exact .stayed hthread hwakes

/-! ### Along the course of a call -/

/-- At any time of its course a call has got somewhere, with the reading of the clock at which
it was made. -/
theorem exists_stage (hμ : μ.Initial) (h : μ.steps p as = some ν) (hx : x ∈ μ.book p e as)
    {ι : Machine σ t m g} (hι : μ.steps p (as.take x.made) = some ι) (hj : x.made < j)
    (hjl : j ≤ as.length) (hret : ∀ n r, x.returned = some (n, r) → j ≤ n)
    (hκ : μ.steps p (as.take j) = some κ) :
    ∃ stage : Stage, κ.status x.thread = stage.status ⟨e, x.call, ι.now⟩ ∧
      ∀ r, stage.answer? = some r ↔ ∃ k < j, x.decided = some (k, r) := by
  obtain ⟨⟨c, i, stage⟩, hs, rfl, hanswer⟩ := exists_seat hμ h hx hκ hj hjl hret
  obtain rfl : i = ι.now := since_eq hμ h hx hι hj hjl hret hκ hs
  exact ⟨stage, Status.eq_of_seat hs, hanswer⟩

/-- A call that has just been made wants the lock. -/
theorem stage_of_made (hμ : μ.Initial) (h : μ.steps p as = some ν) (hx : x ∈ μ.book p e as)
    (hlen : x.made + 1 ≤ as.length) (hκ : μ.steps p (as.take (x.made + 1)) = some κ) {c : Call}
    {i : Instant} {stage : Stage} (hs : κ.status x.thread = stage.status ⟨e, c, i⟩) :
    stage = .entering := by
  obtain ⟨κ₀, κ₁, hat⟩ := exists_stepAt h (by omega : x.made < as.length)
  cases hκ.symm.trans hat.after
  have hstep := step_room (e := e) (hμ.balanced_of_steps hat.before e) hat.step
  have hmark := (tells_book hμ h e).recorded hx |>.made
  rw [Option.some.inj ((hat.history h e).symm.trans hmark)] at hstep
  have hseat := (seat_room (e := e) hs).trans (stage.seat_status ⟨e, c, i⟩)
  cases hstep.turn with
  | made _ _ _ _ hS =>
    rw [hS, Function.update_self] at hseat
    cases hseat
    rfl
  | silent hsilent _ _ => cases hsilent

/-- **What holds when a call has been made and is kept by its steps holds until it returns.** -/
theorem course_induction (hμ : μ.Initial) (h : μ.steps p as = some ν) (hx : x ∈ μ.book p e as)
    {ι : Machine σ t m g} (hι : μ.steps p (as.take x.made) = some ι)
    {P : Nat → Machine σ t m g → Stage → Prop}
    (hbegin : ∀ κ, μ.steps p (as.take (x.made + 1)) = some κ → P (x.made + 1) κ .entering)
    (hstep : ∀ j a κ κ' stage stage', x.made < j →
      (∀ n r, x.returned = some (n, r) → j < n) → μ.StepAt p as j a κ κ' →
      stage.Goes (κ.room e) x.thread x.call ι.now a stage' → P j κ stage → P (j + 1) κ' stage')
    (hj : x.made < j) (hjl : j ≤ as.length) (hret : ∀ n r, x.returned = some (n, r) → j ≤ n)
    (hκ : μ.steps p (as.take j) = some κ) {stage : Stage}
    (hs : κ.status x.thread = stage.status ⟨e, x.call, ι.now⟩) : P j κ stage := by
  induction j, hj using Nat.le_induction generalizing κ stage with
  | base =>
    rw [stage_of_made hμ h hx hjl hκ hs]
    exact hbegin κ hκ
  | succ j hj ih =>
    obtain ⟨κ₀, κ₁, hat⟩ := exists_stepAt h (by omega : j < as.length)
    cases hκ.symm.trans hat.after
    have hret' : ∀ n r, x.returned = some (n, r) → j < n := hret
    obtain ⟨stage₀, hs₀, -⟩ := exists_stage hμ h hx hι hj (by omega)
      (fun n r hn => (hret' n r hn).le) hat.before
    exact hstep j _ κ₀ _ stage₀ stage hj hret' hat
      (goes_of_step (hμ.balanced_of_steps hat.before e) hat.step hs₀ hs)
      (ih (by omega) (fun n r hn => (hret' n r hn).le) hat.before hs₀)

end Machine

end AutoReset.Threads
