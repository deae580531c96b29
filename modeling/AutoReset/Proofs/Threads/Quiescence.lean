import AutoReset.Proofs.Threads.Tally
/-!
# Coming to rest

An event is **quiet** (`AutoReset.Threads.Room.Quiet`) when every thread that is in a
call on it sleeps, and none of them has a wakeup due: nobody was woken, and nobody's
time is out. From wherever a run has got to, the event comes to rest, whatever the order
in which the threads go on.

The measure is the **effort** that the calls still need (`AutoReset.Threads.Seat.effort`).
A woken wait needs three steps to be asleep again or gone, so a signal that is about to
be announced needs more than that. Every step by which a thread goes on with its call
takes some of the effort away; it grows where a call is made, by seven, and where a
sleeper wakes without a signal, by three (`AutoReset.Threads.Room.Trace.effort`). So no
schedule can put off the rest for ever but by new calls and wakeups for no reason. And as
long as the event is not quiet, some thread can go on
(`AutoReset.Threads.Machine.exists_step_of_not_quiet`): the one that holds the lock, or,
with the lock free, one that wants it, or a sleeper whose time is out.
-/

namespace AutoReset.Threads

open Finset

namespace Mark

variable {t : Nat}

/-- Does a thread go on with its call here? -/
def isProgress : Mark t → Bool
  | moved _ | decided .. | returned .. => true
  | _ => false

/-- Is a call made here? -/
def isMade : Mark t → Bool
  | made .. => true
  | _ => false

/-- Does a sleeper wake without a signal here? -/
def isWoke : Mark t → Bool
  | woke _ => true
  | _ => false

end Mark

/-! ### The effort that is left -/

/-- How many steps a call needs, at the most, to be asleep or gone; who is late does not
go on sleeping. -/
def Seat.effort (late : Call → Instant → Bool) : Option Seat → Nat
  | none => 0
  | some s =>
    match s.stage with
    | .entering => if s.call = .signal then 7 else 3
    | .inside => if s.call = .signal then 6 else 2
    -- the signal leaves, and a woken sleeper needs three steps more
    | .announcing => 5
    | .leaving _ => 1
    | .drowsy _ => if late s.call s.since then 5 else 1
    | .asleep _ => if late s.call s.since then 4 else 0
    | .woken => 3

namespace Room

variable {t : Nat} {R S : Room t} {x : Mark t} {h : List (Mark t)}

/-- **Every step on takes effort away**, a call adds seven steps to it, and a wakeup
three. -/
theorem Step.effort (hx : R.Step x S) (ho : R.Orderly) (late : Call → Instant → Bool)
    (hlate : ∀ c i, c.patient i R.now = true → late c i = false) :
    S.total (Seat.effort late) + x.isProgress.toNat ≤
      R.total (Seat.effort late) + 7 * x.isMade.toNat + 3 * x.isWoke.toNat := by
  rw [Nat.add_assoc]
  cases hx with
  | made θ c free =>
    refine total_add_le free rfl ?_
    simp only [Seat.effort, Mark.isProgress, Mark.isMade, Mark.isWoke]
    split <;> simp
  | @entered θ c i stage hs hstage free =>
    have hwaits := (ho.fits hs).waits
    refine total_add_le hs rfl ?_
    rcases hstage with rfl | rfl
    · simp only [Seat.effort, Mark.isProgress, Mark.isMade, Mark.isWoke]
      split <;> simp
    · -- who was woken is a wait, and needs less inside than a signal
      have hc : c ≠ .signal := by
        rintro rfl
        cases hwaits rfl
      simp [Seat.effort, Mark.isProgress, Mark.isMade, Mark.isWoke, hc]
  | posted hs hp =>
    refine total_add_le hs rfl ?_
    simp [Seat.effort, Mark.isProgress, Mark.isMade, Mark.isWoke]
  | answered hs ha =>
    refine total_add_le hs rfl ?_
    simp only [Seat.effort, Mark.isProgress, Mark.isMade, Mark.isWoke]
    split <;> simp
  | @dozed θ c i b hs hu hb =>
    have hc : c ≠ .signal := by
      rintro rfl
      cases hb
    have htime : late c i = false := hlate c i (by rw [Call.patient, hb]; rfl)
    refine total_add_le hs rfl ?_
    simp [Seat.effort, Mark.isProgress, Mark.isMade, Mark.isWoke, hc, htime]
  | @told θ η c d i j b hs hη =>
    have hne : θ ≠ η := by
      rintro rfl
      cases hs.symm.trans hη
    have hwoken : (R.put η (some ⟨d, j, .woken⟩)).total (Seat.effort late) + 0 ≤
        R.total (Seat.effort late) + 3 := by
      refine total_add_le hη rfl ?_
      simp [Seat.effort]
    have hleft : ((R.put η (some ⟨d, j, .woken⟩)).put θ (some ⟨c, i, .leaving .done⟩)).total
        (Seat.effort late) + 4 ≤
          (R.put η (some ⟨d, j, .woken⟩)).total (Seat.effort late) + 0 := by
      refine total_add_le ((seat_put_of_ne _ _ hne).trans hs) rfl ?_
      simp [Seat.effort]
    simp only [Mark.isProgress, Mark.isMade, Mark.isWoke, Bool.toNat_true, Bool.toNat_false]
    omega
  | toldNobody hs hn =>
    refine total_add_le hs rfl ?_
    simp [Seat.effort, Mark.isProgress, Mark.isMade, Mark.isWoke]
  | returned hs =>
    refine total_add_le hs rfl ?_
    simp [Seat.effort, Mark.isProgress, Mark.isMade, Mark.isWoke]
  | slept hs =>
    refine total_add_le hs rfl ?_
    simp only [Seat.effort, Mark.isProgress, Mark.isMade, Mark.isWoke]
    split <;> simp
  | woke hs =>
    refine total_add_le hs rfl ?_
    simp [Seat.effort, Mark.isProgress, Mark.isMade, Mark.isWoke]
  | passed hle => exact Nat.le_refl _

/-- **A run goes on no more often than its effort allows.** -/
theorem Trace.effort (htr : R.Trace h S) (ho : R.Orderly) :
    S.total (Seat.effort fun _ _ => false) + h.countP Mark.isProgress ≤
      R.total (Seat.effort fun _ _ => false) + 7 * h.countP Mark.isMade +
        3 * h.countP Mark.isWoke := by
  induction htr with
  | nil => simp
  | @snoc h x S T htr hx ih =>
    have hstep := hx.effort (htr.orderly ho) (fun _ _ => false) fun _ _ _ => rfl
    simp only [countP_snoc]
    omega

end Room

/-! ### Quiet events -/

/-- Does nobody sit here but a sleeper who has time left? -/
def Seat.rests (now : Instant) : Option Seat → Bool
  | none => true
  | some s =>
    match s.stage with
    | .asleep _ => s.call.patient s.since now
    | _ => false

/-- **The event is at rest, and stays so until then** if nothing disturbs it: all of its
calls sleep, and none of them runs out of time. -/
def Room.Quiet {t : Nat} (R : Room t) (later : Instant) : Prop :=
  ∀ θ, Seat.rests later (R.seat θ) = true

instance {t : Nat} (R : Room t) (later : Instant) : Decidable (R.Quiet later) :=
  inferInstanceAs (Decidable (∀ θ, Seat.rests later (R.seat θ) = true))

theorem Room.Quiet.asleep {t : Nat} {R : Room t} {later : Instant} (h : R.Quiet later)
    {θ : Fin t} {s : Seat} (hs : R.seat θ = some s) :
    (∃ b, s.stage = .asleep b) ∧ s.call.patient s.since later = true := by
  have hrests := h θ
  rw [hs, Seat.rests] at hrests
  split at hrests
  · next b hb => exact ⟨⟨b, hb⟩, hrests⟩
  · cases hrests

/-- Time does not run back. -/
theorem Room.Step.now_le {t : Nat} {R S : Room t} {x : Mark t} (h : R.Step x S) :
    R.now ≤ S.now := by
  cases h with
  | passed hle => exact hle
  | _ => exact Instant.le_refl _

theorem Room.Trace.now_le {t : Nat} {R S : Room t} {h : List (Mark t)} (htr : R.Trace h S) :
    R.now ≤ S.now := by
  induction htr with
  | nil => exact Instant.le_refl _
  | snoc _ hx ih => exact Instant.le_trans ih hx.now_le

/-- Time passes only in steps that leave no mark. -/
theorem Room.Step.now_eq {t : Nat} {R S : Room t} {x : Mark t} (h : R.Step x S)
    (hx : x ≠ .nothing) : S.now = R.now := by
  cases h with
  | passed _ => exact absurd rfl hx
  | _ => rfl

/-- A stay leaves a mark. -/
theorem Seat.isProgress_mark {t : Nat} (θ : Fin t) (s : Seat) : (s.mark θ).isProgress = true := by
  obtain ⟨c, i, stage⟩ := s
  cases stage <;> rfl

/-- Is this a step by which a thread goes on with its call? It makes no call and wakes
nobody without need, and the clock stands still. -/
def Action.goesOn {t : Nat} : Action t → Bool
  | acquire _ | work .. | notify .. | leave _ | sleep _ | expire _ => true
  | start _ | wake _ | tick _ => false

namespace Machine

variable {σ : Type} {t m g : Nat} {p : Program σ m g} {μ ν κ : Machine σ t m g} {e : Fin m}

/-- The event is at rest: all of its calls sleep, and none of them is late. -/
def Quiet (μ : Machine σ t m g) (e : Fin m) : Prop := (μ.room e).Quiet μ.now

instance (μ : Machine σ t m g) (e : Fin m) : Decidable (μ.Quiet e) :=
  inferInstanceAs (Decidable ((μ.room e).Quiet μ.now))

/-- The effort that the calls on an event need as the clock stands. -/
def dueEffort (now : Instant) (μ : Machine σ t m g) (e : Fin m) : Nat :=
  (μ.room e).total (Seat.effort fun c i => !c.patient i now)

/-! ### Somebody can go on -/

/-- A thread that has a signal to announce can announce it. -/
theorem exists_notify {θ : Fin t} {v : Visit m} (h : μ.status θ = .announcing v) :
    ∃ sleeper ν, μ.notify θ sleeper = some ν := by
  cases hn : μ.noSleeper v.event with
  | true =>
    refine ⟨none, μ.setStatus θ (.leaving v .done), ?_⟩
    simp only [notify, h, hn, if_true]
  | false =>
    have hsome : ∃ η, μ.sleepsOn v.event η = true := by
      simpa [noSleeper] using hn
    obtain ⟨η, hη⟩ := hsome
    cases hs : μ.status η with
    | asleep w b =>
      have hw : w.event = v.event := by simpa [sleepsOn, hs, Status.sleepsOn] using hη
      refine ⟨some η, (μ.setStatus η (.woken w)).setStatus θ (.leaving v .done), ?_⟩
      simp only [notify, h, hs, if_pos hw]
    | _ => simp [sleepsOn, hs, Status.sleepsOn] at hη

/-- **Who holds the lock can go on.** -/
theorem exists_step_of_holder (ho : (μ.room e).Orderly)
    (hb : (μ.monitor e).latch.Balanced) {θ : Fin t} (hθ : (μ.monitor e).holder = some θ) :
    ∃ a ν, μ.step p a = some ν ∧ a.thread? = some θ ∧ a.goesOn = true ∧
      (mark e μ ν a).isProgress = true := by
  obtain ⟨s, hs⟩ := ho.seated hθ
  have hholds := (ho.fits hs).holds.mpr hθ
  have hstatus : μ.status θ = s.stage.status ⟨e, s.call, s.since⟩ := Status.eq_of_seat hs
  obtain ⟨c, i, stage⟩ := s
  cases stage with
  | inside =>
    obtain ⟨l, stage, -, hwork⟩ := work_eq false hstatus hb
    refine ⟨.work θ false, _, hwork, rfl, rfl, ?_⟩
    have hroom := room_stay (μ := μ) θ ⟨e, c, i⟩ l stage
    simp only at hroom
    simp only [mark, hroom, Room.seat_put_self]
    exact Seat.isProgress_mark ..
  | announcing =>
    obtain ⟨sleeper, ν, hν⟩ := exists_notify hstatus
    refine ⟨.notify θ sleeper, ν, hν, rfl, rfl, ?_⟩
    simp only [mark, hs]
    rfl
  | leaving r =>
    refine ⟨.leave θ, _, by simp only [step, leave, hstatus, Stage.status]; rfl, rfl, rfl, ?_⟩
    simp only [mark, hs]
    rfl
  | drowsy b =>
    refine ⟨.sleep θ, _, by simp only [step, sleep, hstatus, Stage.status]; rfl, rfl, rfl, ?_⟩
    simp only [mark, hs]
    rfl
  | _ => cases hholds

/-- **Who wants the lock can get it** when it is free. -/
theorem exists_step_of_free (hfree : (μ.monitor e).holder = none) {θ : Fin t} {s : Seat}
    (hs : (μ.room e).seat θ = some s) (hstage : s.stage = .entering ∨ s.stage = .woken) :
    ∃ a ν, μ.step p a = some ν ∧ a.thread? = some θ ∧ a.goesOn = true ∧
      (mark e μ ν a).isProgress = true := by
  have hstatus : μ.status θ = s.stage.status ⟨e, s.call, s.since⟩ := Status.eq_of_seat hs
  refine ⟨.acquire θ, (μ.setMonitor e { μ.monitor e with holder := some θ }).setStatus θ
    (.inside ⟨e, s.call, s.since⟩), ?_, rfl, rfl, ?_⟩
  · rcases hstage with hst | hst <;>
      simp only [step, acquire, hstatus, hst, Stage.status, if_pos hfree]
  · simp only [mark, hs]
    rfl

/-- A step on takes effort away. -/
theorem dueEffort_lt (ho : (μ.room e).Orderly) (hb : (μ.monitor e).latch.Balanced)
    {a : Action t} (ha : μ.step p a = some ν) (hx : (mark e μ ν a).isProgress = true) :
    ν.now = μ.now ∧ ν.dueEffort μ.now e < μ.dueEffort μ.now e := by
  have hstep := step_room (e := e) hb ha
  have hlt := hstep.effort ho (fun c i => !c.patient i μ.now) (by
    intro c i hc
    have hc' : c.patient i μ.now = true := hc
    rw [hc']
    rfl)
  cases hmark : mark e μ ν a with
  | moved _ | decided _ _ _ | returned _ _ _ =>
    rw [hmark] at hlt hstep
    refine ⟨hstep.now_eq nofun, ?_⟩
    simp only [Mark.isProgress, Mark.isMade, Mark.isWoke, Bool.toNat_true, Bool.toNat_false] at hlt
    unfold dueEffort
    omega
  | _ =>
    rw [hmark] at hx
    cases hx

/-- **A sleeper whose time is out can wake.** -/
theorem exists_expire (ho : (μ.room e).Orderly) {θ : Fin t} {c : Call} {i : Instant}
    {b : Option Duration} (hs : (μ.room e).seat θ = some ⟨c, i, .asleep b⟩)
    (hlate : c.patient i μ.now = false) :
    ∃ ν, μ.step p (.expire θ) = some ν ∧ ν.now = μ.now ∧
      ν.dueEffort μ.now e < μ.dueEffort μ.now e := by
  have hfit := ho.fits hs
  have hbound : b.isSome = true := by
    rw [hfit.bounded b rfl]
    exact Call.isBounded_of_not_patient (hfit.waits rfl) hlate
  obtain ⟨d, rfl⟩ := Option.isSome_iff_exists.mp hbound
  have hstatus : μ.status θ = .asleep ⟨e, c, i⟩ (some d) := Status.eq_of_seat hs
  have hroom : (μ.setStatus θ (.woken ⟨e, c, i⟩)).room e =
      (μ.room e).put θ (some ⟨c, i, .woken⟩) := by
    rw [room_setStatus, Status.seat, Visit.seat, if_pos rfl]
  have hlt : ((μ.room e).put θ (some ⟨c, i, .woken⟩)).total
      (Seat.effort fun c i => !c.patient i μ.now) + 1 ≤
        (μ.room e).total (Seat.effort fun c i => !c.patient i μ.now) + 0 := by
    refine Room.total_add_le hs rfl ?_
    simp [Seat.effort, hlate]
  refine ⟨μ.setStatus θ (.woken ⟨e, c, i⟩), ?_, rfl, ?_⟩
  · simp only [step, expire, hstatus]
  · rw [dueEffort, hroom]
    exact hlt

/-- **As long as an event is not quiet, somebody can go on**, and has less to do then. -/
theorem exists_step_of_not_quiet (ho : (μ.room e).Orderly) (hb : (μ.monitor e).latch.Balanced)
    (hq : ¬ μ.Quiet e) :
    ∃ a ν, μ.step p a = some ν ∧ a.goesOn = true ∧ ν.now = μ.now ∧
      ν.dueEffort μ.now e < μ.dueEffort μ.now e := by
  have hprogress : ∀ {θ : Fin t}, (∃ a ν, μ.step p a = some ν ∧ a.thread? = some θ ∧
      a.goesOn = true ∧ (mark e μ ν a).isProgress = true) → ∃ a ν, μ.step p a = some ν ∧
        a.goesOn = true ∧ ν.now = μ.now ∧ ν.dueEffort μ.now e < μ.dueEffort μ.now e := by
    rintro θ ⟨a, ν, ha, -, hgoes, hx⟩
    obtain ⟨hnow, hlt⟩ := dueEffort_lt ho hb ha hx
    exact ⟨a, ν, ha, hgoes, hnow, hlt⟩
  rcases hfree : (μ.monitor e).holder with _ | θ
  · obtain ⟨θ, hθ⟩ := not_forall.mp hq
    rcases hs : (μ.room e).seat θ with _ | s
    · rw [hs] at hθ
      exact absurd rfl hθ
    have hout : s.stage.holds ≠ true := by
      intro hh
      have hhold := (ho.fits hs).holds.mp hh
      rw [show (μ.room e).holder = none from hfree] at hhold
      cases hhold
    obtain ⟨c, i, stage⟩ := s
    cases stage with
    | entering => exact hprogress (exists_step_of_free hfree hs (Or.inl rfl))
    | woken => exact hprogress (exists_step_of_free hfree hs (Or.inr rfl))
    | asleep b =>
      have hlate : c.patient i μ.now = false := by
        rw [hs] at hθ
        simpa [Seat.rests] using hθ
      obtain ⟨ν, hν, hnow, hlt⟩ := exists_expire ho hs hlate
      exact ⟨_, ν, hν, rfl, hnow, hlt⟩
    | _ => exact absurd rfl hout
  · exact hprogress (exists_step_of_holder ho hb hfree)

/-- **From everywhere an event can be brought to rest** by going on with its calls. -/
theorem exists_quiet (ho : (μ.room e).Orderly) (hb : (μ.monitor e).latch.Balanced) :
    ∃ as ν, μ.steps p as = some ν ∧ (∀ a ∈ as, a.goesOn = true) ∧ ν.now = μ.now ∧ ν.Quiet e := by
  induction hn : μ.dueEffort μ.now e using Nat.strongRecOn generalizing μ with
  | ind n ih =>
    by_cases hq : μ.Quiet e
    · exact ⟨[], μ, rfl, by simp, rfl, hq⟩
    · obtain ⟨a, κ, ha, hgoes, hnow, hlt⟩ := exists_step_of_not_quiet (p := p) ho hb hq
      have hstep := step_room (e := e) hb ha
      rw [hn, ← hnow] at hlt
      obtain ⟨as, ν, has, hall, hnow', hquiet⟩ :=
        ih _ hlt (hstep.orderly ho) (hstep.balanced hb) rfl
      refine ⟨a :: as, ν, ?_, ?_, hnow'.trans hnow, hquiet⟩
      · simp only [steps, ha, has]
      · intro b hb'
        rcases List.mem_cons.mp hb' with rfl | hb'
        · exact hgoes
        · exact hall b hb'

end Machine

end AutoReset.Threads
