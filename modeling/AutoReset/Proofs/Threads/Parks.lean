import AutoReset.Proofs.Threads.BoundedWait
import AutoReset.Proofs.Threads.Quiescence
import AutoReset.Proofs.Threads.Walk
/-!
# How a bounded wait sleeps

A bounded wait may be woken too early, for no reason or by a signal that another thread takes
before it. Then it sleeps again, and it does not start its time anew: what is left is worked out
from the due time, which was fixed when the call was made, and the reading of the clock
(`AutoReset.Call.Left`). So all of its parks end at one instant, the later ones are no longer
than the earlier ones, and a stay that finds no signal when the time is up is the last one
(`AutoReset.Threads.Machine.park_times`).

If its sleep runs out no earlier than the due time, each park but the first one costs a wakeup
before the time, and between two parks there is only so much that a thread can do. So the call
returns after not too many steps of its thread; and the thread is not kept from making them, but
by the one that holds the lock.
-/

namespace AutoReset

/-! ### What is left of the time -/

/-- **What is left of a bounded wait** when the clock reads `now`: some time, up to the due time
exactly, or the longest duration there is if the due time is past the last instant. -/
structure Call.Left (since now : Instant) (timeout left : Duration) : Prop where
  /-- It is some time. -/
  ne_zero : left ≠ .zero
  /-- It is what the due time is ahead of the clock. -/
  exact {due : Instant} : since.add? timeout = some due →
    (left.toNanos : Int) = due.toNanos - now.toNanos
  /-- It leads to the due time. -/
  reaches {due : Instant} : since.add? timeout = some due → now.add? left = some due
  /-- Without a due time it is the longest duration. -/
  forever : since.add? timeout = none → left = .max

namespace Call

variable {since now later : Instant} {timeout left left' : Duration}

/-- **A bounded wait that finds no signal sleeps for what is left.** -/
theorem left_of_bound? {b : Option Duration}
    (h : (waitTimeout timeout).bound? since now = some b) :
    ∃ left, b = some left ∧ Left since now timeout left := by
  simp only [bound?] at h
  split at h
  · cases h
  · next hzero =>
    cases h
    have hne : (Deadline.startingAt since timeout).remainingAt now ≠ .zero := fun he => by
      rw [he] at hzero
      exact hzero rfl
    have hahead : (Deadline.startingAt since timeout).isExpiredAt now = false :=
      Bool.eq_false_iff.mpr fun hexpired => hne (Deadline.remainingAt_eq_zero.mpr hexpired)
    refine ⟨_, rfl, hne, fun hdue => ?_, fun hdue => Deadline.add?_remainingAt hdue hahead,
      fun hnone => Deadline.remainingAt_of_none hnone⟩
    have hsum := Instant.toNanos_of_add? (Deadline.add?_remainingAt hdue hahead)
    omega

/-- **The later, the less is left.** -/
theorem Left.le (h : Left since now timeout left) (h' : Left since later timeout left')
    (hle : now ≤ later) : left' ≤ left := by
  rw [Duration.le_iff_toNanos_le]
  cases hdue : since.add? timeout with
  | none => rw [h.forever hdue, h'.forever hdue]
  | some due =>
    have hnow := h.exact hdue
    have hlater := h'.exact hdue
    have hnanos := Instant.le_iff_toNanos_le.mp hle
    omega

/-- The answer of a bounded wait whose time is out: the timeout, unless it cannot be counted or
the log sink fails. -/
def late (l : Latch) (sinkFails : Bool) : Reply :=
  if l.stats.timeouts = Counter.last then .fault .counterOverflow
  else Reply.timedOut.logged sinkFails

end Call

namespace Threads

/-- Does the step wake this thread, if it sleeps, otherwise than by its time running out? -/
def Action.rouses {t : Nat} (θ : Fin t) : Action t → Bool
  | wake η => η = θ
  | notify _ sleeper => sleeper = some θ
  | _ => false

namespace Episode

variable {t : Nat} {x : Episode t} {j : Nat}

/-- Is this a time between the making of the call and its return? -/
def isOpenAt (x : Episode t) (j : Nat) : Bool := x.made < j && x.returned.all (j < ·.1)

theorem isOpenAt_iff :
    x.isOpenAt j = true ↔ x.made < j ∧ ∀ n r, x.returned = some (n, r) → j < n := by
  rcases hret : x.returned with _ | ⟨n, r⟩
  · simp [isOpenAt, hret]
  · rw [isOpenAt, hret, Option.all_some, Bool.and_eq_true, decide_eq_true_eq, decide_eq_true_eq]
    exact and_congr_right fun _ =>
      ⟨fun hlt _ _ heq => by cases heq; exact hlt, fun hlt => hlt n r rfl⟩

/-- What is counted while a call is open is not counted any more when it has returned. -/
theorem countPlaces_take_of_returned {as : List (Action t)} {n : Nat} {r : Reply}
    (hret : x.returned = some (n, r)) {f : List (Action t) → Action t → Bool}
    (hf : ∀ bs a, x.isOpenAt bs.length = false → f bs a = false) :
    countPlaces f (as.take n) = countPlaces f as := by
  refine countPlaces_take n fun i a hi ha => hf _ _ (Bool.eq_false_iff.mpr fun hopen => ?_)
  rw [List.length_take, Nat.min_eq_left (List.getElem?_eq_some_iff.mp ha).1.le] at hopen
  exact absurd ((isOpenAt_iff.mp hopen).2 n r hret) (Nat.not_lt.mpr hi)

/-- Up to the step in which a call is made, nothing is counted. -/
theorem countPlaces_take_made {as : List (Action t)} {f : List (Action t) → Action t → Bool}
    (hf : ∀ bs a, bs.length ≤ x.made → f bs a = false) :
    countPlaces f (as.take (x.made + 1)) = 0 := by
  refine countPlaces_eq_zero fun n a ha => hf _ _ ?_
  have hlt := (List.getElem?_eq_some_iff.mp ha).1
  rw [List.length_take] at hlt ⊢
  omega

theorem isOpenAt_of_le (hj : j ≤ x.made) : x.isOpenAt j = false := by
  simp [isOpenAt, Nat.not_lt.mpr hj]

/-- How often does the call fall asleep? -/
def parks (x : Episode t) : List (Action t) → Nat :=
  countPlaces fun bs a => x.isOpenAt bs.length && a = .sleep x.thread

theorem parks_take_made (as : List (Action t)) : x.parks (as.take (x.made + 1)) = 0 :=
  countPlaces_take_made fun bs a hbs => by rw [isOpenAt_of_le hbs, Bool.false_and]

/-- How many steps does the thread make after it has made the call? -/
def stepsSince (x : Episode t) : List (Action t) → Nat :=
  countPlaces fun bs a => x.made < bs.length && a.thread? = some x.thread

end Episode

namespace Machine

variable {σ : Type} {t m g : Nat} {p : Program σ m g} {μ ν κ κ' : Machine σ t m g} {e : Fin m}
  {as : List (Action t)} {x : Episode t} {d : Duration} {j k : Nat} {ι : Machine σ t m g}

/-- How often is the call woken before the clock has come to `due`, otherwise than by its time
running out? -/
def earlyWakeups (p : Program σ m g) (μ : Machine σ t m g) (x : Episode t) (due : Instant) :
    List (Action t) → Nat :=
  countPlaces fun bs a => x.isOpenAt bs.length && a.rouses x.thread &&
    (μ.steps p bs).any fun κ => !decide (due ≤ κ.now)

/-- **A stay in which a call found no signal**, at step `i`; up to step `j` its thread has done
nothing since. -/
structure MissedAt (p : Program σ m g) (e : Fin m) (μ : Machine σ t m g) (as : List (Action t))
    (x : Episode t) (i j : Nat) (now : Instant) : Prop where
  /-- The call had been made, and the stay is over. -/
  order : x.made < i ∧ i < j
  /-- It was a stay without a signal, and that was what the clock read. -/
  stay : ∃ χ χ' sinkFails, μ.StepAt p as i (.work x.thread sinkFails) χ χ' ∧
    (χ.monitor e).latch.signaled = false ∧ χ.now = now
  /-- Nothing came after it. -/
  last {l : Nat} {a : Action t} : i < l → l < j → as[l]? = some a → a.thread? ≠ some x.thread

/-- **A park of a call**: at step `k` it falls asleep, for `left` at the most, after a stay that
found no signal when the clock read `now`. -/
def ParksAt (p : Program σ m g) (e : Fin m) (μ : Machine σ t m g) (as : List (Action t))
    (x : Episode t) (k : Nat) (now : Instant) (left : Duration) : Prop :=
  (∃ j, μ.MissedAt p e as x j k now) ∧
    ∃ κ κ' v, μ.StepAt p as k (.sleep x.thread) κ κ' ∧ κ'.status x.thread = .asleep v (some left)

/-- A stay leaves a call about to sleep if it found no signal and there is time left. -/
theorem Stays.of_drowsy {since now : Instant} {l l' : Latch} {sinkFails : Bool} {c : Call}
    {b : Option Duration} (h : Stays since now l sinkFails c l' (.drowsy b)) :
    l.signaled = false ∧ c.bound? since now = some b := by
  cases h with
  | dozed hunset hbound => exact ⟨hunset, hbound⟩

/-- **Who is about to sleep has found no signal in its last stay.** -/
theorem exists_missedAt (hμ : μ.Initial) (h : μ.steps p as = some ν)
    (hx : x ∈ μ.book p e as) (hι : μ.steps p (as.take x.made) = some ι) (hj : x.made < j)
    (hjl : j ≤ as.length) (hret : ∀ n r, x.returned = some (n, r) → j ≤ n)
    (hκ : μ.steps p (as.take j) = some κ) {stage : Stage}
    (hs : κ.status x.thread = stage.status ⟨e, x.call, ι.now⟩) {b : Option Duration}
    (hstage : stage = .drowsy b) :
    ∃ i now, μ.MissedAt p e as x i j now ∧ x.call.bound? ι.now now = some b := by
  refine course_induction hμ h hx hι (P := fun j _ stage => ∀ b, stage = .drowsy b →
    ∃ i now, μ.MissedAt p e as x i j now ∧ x.call.bound? ι.now now = some b)
    (fun _ _ => nofun) ?_ hj hjl hret hκ hs b hstage
  rintro j a κ κ' stage _ hj - hat hgoes ih b rfl
  cases hgoes with
  | stayed hthread _ =>
    obtain ⟨i, now, hmissed, hbound⟩ := ih b rfl
    refine ⟨i, now, ⟨⟨hmissed.order.1, by have := hmissed.order.2; omega⟩, hmissed.stay, ?_⟩,
      hbound⟩
    intro l a' hl hlj ha'
    obtain hlt | rfl := Nat.lt_succ_iff_lt_or_eq.mp hlj
    · exact hmissed.last hl hlt ha'
    · cases hat.action.symm.trans ha'
      exact hthread
  | worked hstays =>
    obtain ⟨hunset, hbound⟩ := hstays.of_drowsy
    exact ⟨j, κ.now, ⟨⟨hj, by omega⟩, ⟨κ, κ', _, hat, hunset, rfl⟩, by omega⟩, hbound⟩

/-- Two stays that are the last ones are one. -/
theorem MissedAt.eq {i i' : Nat} {now now' : Instant} (h : μ.MissedAt p e as x i k now)
    (h' : μ.MissedAt p e as x i' k now') : now = now' := by
  obtain ⟨χ, χ', f, hat, -, rfl⟩ := h.stay
  obtain ⟨ξ, ξ', f', hat', -, rfl⟩ := h'.stay
  obtain hlt | rfl | hgt := Nat.lt_trichotomy i i'
  · exact absurd rfl (h.last hlt h'.order.2 hat'.action)
  · rw [Option.some.inj (hat.before.symm.trans hat'.before)]
  · exact absurd rfl (h'.last hgt h.order.2 hat.action)

/-- The clock does not run back in a run. -/
theorem now_le_of_steps (hμ : μ.Initial) (e : Fin m) {i : Nat} (hij : i ≤ j)
    (hκ : μ.steps p (as.take i) = some κ) (hκ' : μ.steps p (as.take j) = some κ') :
    κ.now ≤ κ'.now := by
  obtain ⟨χ, hχ, hrest⟩ := exists_steps_take hκ' i
  rw [List.take_take, Nat.min_eq_left hij] at hχ
  cases hκ.symm.trans hχ
  exact (trace_of_steps (hμ.balanced_of_steps hκ e) hrest).now_le

/-- A later park comes after a later stay. -/
theorem ParksAt.now_le (hμ : μ.Initial) {k' : Nat} {now now' : Instant} {left left' : Duration}
    (hk : μ.ParksAt p e as x k now left) (hk' : μ.ParksAt p e as x k' now' left') (hle : k ≤ k') :
    now ≤ now' := by
  obtain ⟨⟨i, hmissed⟩, κ, κ', v, hat, -⟩ := hk
  obtain ⟨⟨i', hmissed'⟩, -⟩ := hk'
  obtain ⟨χ, χ', f, hwork, -, rfl⟩ := hmissed.stay
  obtain ⟨ξ, ξ', f', hwork', -, rfl⟩ := hmissed'.stay
  obtain hlt | hge := Nat.lt_or_ge i' i
  · -- then the earlier stay would lie between the later one and its park
    have hik := hmissed.order.2
    exact absurd rfl (hmissed'.last hlt (by omega) hwork.action)
  · exact now_le_of_steps hμ e hge hwork.before hwork'.before

/-- A stay that finds no signal when the time is out settles the answer. -/
theorem Stays.of_late {since now : Instant} {l l' : Latch} {sinkFails : Bool} {stage : Stage}
    (h : Stays since now l sinkFails (.waitTimeout d) l' stage) (hunset : l.signaled = false)
    (hdue : since.toNanos + d.toNanos ≤ now.toNanos) :
    stage = .leaving (Call.late l sinkFails) := by
  cases h with
  | dozed _ hbound => cases (Call.bound?_eq_none_iff.mpr hdue).symm.trans hbound
  | answered ha hr =>
    cases ha with
    | take _ hset => cases hunset.symm.trans hset
    | expire f _ _ ht =>
      obtain rfl : f = sinkFails := by
        cases f <;> cases sinkFails
        · rfl
        · exact absurd rfl hr
        · exact absurd rfl hr
        · rfl
      rw [Call.late, if_neg ht]
    | expireOverflow _ _ ht => rw [Call.late, if_pos ht]
    | look hlook => cases hlook

section Course

variable (hμ : μ.Initial) (h : μ.steps p as = some ν) (hx : x ∈ μ.book p e as)
  (hι : μ.steps p (as.take x.made) = some ι)

include hμ h hx hι

/-- A call that is decided does not fall asleep any more. -/
theorem not_parksAt_of_decided (hopen : x.isOpenAt k = true) {r : Reply}
    (hd : x.decided = some (j, r)) (hjk : j < k) {now : Instant} {left : Duration} :
    ¬ μ.ParksAt p e as x k now left := by
  rintro ⟨-, κ, κ', v, hat, -⟩
  obtain ⟨hmade, hret⟩ := Episode.isOpenAt_iff.mp hopen
  obtain ⟨stage, hs, hanswer⟩ := exists_stage hμ h hx hι hmade hat.lt.le
    (fun n r hn => (hret n r hn).le) hat.before
  obtain ⟨w, b, hdrowsy, -⟩ := exists_of_sleep (show κ.sleep x.thread = some κ' from hat.step)
  rw [hs] at hdrowsy
  have hr := (hanswer r).mpr ⟨j, hjk, hd⟩
  cases stage <;> cases hdrowsy
  cases hr

variable (hc : x.call = .waitTimeout d)

include hc

/-- **Every time a bounded wait falls asleep it parks for what is left of its time.** -/
theorem exists_parksAt (hopen : x.isOpenAt k = true)
    (hat : μ.StepAt p as k (.sleep x.thread) κ κ') :
    ∃ now left, μ.ParksAt p e as x k now left ∧ Call.Left ι.now now d left := by
  obtain ⟨hmade, hret⟩ := Episode.isOpenAt_iff.mp hopen
  obtain ⟨stage, hs, -⟩ := exists_stage hμ h hx hι hmade hat.lt.le (fun n r hn => (hret n r hn).le)
    hat.before
  obtain ⟨v, b, hdrowsy, hκ'⟩ := exists_of_sleep (show κ.sleep x.thread = some κ' from hat.step)
  obtain rfl : stage = .drowsy b := by
    rw [hs] at hdrowsy
    cases stage <;> cases hdrowsy
    rfl
  obtain ⟨i, now, hmissed, hbound⟩ := exists_missedAt hμ h hx hι hmade hat.lt.le
    (fun n r hn => (hret n r hn).le) hat.before hs rfl
  rw [hc] at hbound
  obtain ⟨left, rfl, hleft⟩ := Call.left_of_bound? hbound
  refine ⟨now, left, ⟨⟨i, hmissed⟩, κ, κ', v, hat, ?_⟩, hleft⟩
  rw [hκ', status_setStatus_self]

/-- What a park says is what is left of the time. -/
theorem left_of_parksAt (hopen : x.isOpenAt k = true) {now : Instant} {left : Duration}
    (hk : μ.ParksAt p e as x k now left) : Call.Left ι.now now d left := by
  obtain ⟨⟨i, hmissed⟩, κ, κ', v, hat, hasleep⟩ := hk
  obtain ⟨now', left', ⟨⟨i', hmissed'⟩, χ, χ', w, hat', hasleep'⟩, hleft⟩ :=
    exists_parksAt hμ h hx hι hc hopen hat
  obtain rfl := hmissed.eq hmissed'
  obtain rfl := Option.some.inj (hat.before.symm.trans hat'.before)
  obtain rfl := Option.some.inj (hat.step.symm.trans hat'.step)
  cases hasleep.symm.trans hasleep'
  exact hleft

/-- **A stay that finds no signal when the time is out decides the call.** -/
theorem decided_of_late (hopen : x.isOpenAt j = true) {sinkFails : Bool}
    (hat : μ.StepAt p as j (.work x.thread sinkFails) κ κ')
    (hunset : (κ.monitor e).latch.signaled = false)
    (hdue : ι.now.toNanos + d.toNanos ≤ κ.now.toNanos) :
    x.decided = some (j, Call.late (κ.monitor e).latch sinkFails) := by
  obtain ⟨hmade, hret⟩ := Episode.isOpenAt_iff.mp hopen
  obtain ⟨stage, hs, hanswer⟩ := exists_stage hμ h hx hι hmade hat.lt.le
    (fun n r hn => (hret n r hn).le) hat.before
  obtain ⟨stage', hs', hanswer'⟩ := exists_stage hμ h hx hι (Nat.lt_succ_of_lt hmade) hat.lt hret
    hat.after
  have hgoes := goes_of_step (hμ.balanced_of_steps hat.before e) hat.step hs hs'
  rw [hc] at hgoes
  cases hgoes with
  | stayed hthread _ => exact absurd rfl hthread
  | worked hstays =>
    obtain rfl := hstays.of_late hunset hdue
    obtain ⟨k, hk, hd⟩ := (hanswer' _).mp rfl
    obtain hlt | rfl := Nat.lt_succ_iff_lt_or_eq.mp hk
    · cases (hanswer _).mpr ⟨k, hlt, hd⟩
    · exact hd
  | woke hwakes => cases hwakes

end Course

end Machine

/-! ### How often it parks -/

namespace Action

variable {t : Nat} {θ : Fin t} {a : Action t}

/-- Whatever rouses a thread wakes it. -/
theorem wakes_of_rouses (h : a.rouses θ = true) : a.wakes θ = true := by
  cases a with
  | wake | notify => exact h
  | _ => cases h

/-- A thread is woken by being roused, or because its time runs out. -/
theorem rouses_or_eq_expire (h : a.wakes θ = true) : a.rouses θ = true ∨ a = .expire θ := by
  cases a with
  | wake | notify => exact Or.inl h
  | expire η =>
    obtain rfl : η = θ := of_decide_eq_true h
    exact Or.inr rfl
  | _ => cases h

theorem ne_sleep_of_wakes (h : a.wakes θ = true) : a ≠ .sleep θ := by
  rintro rfl
  cases h

end Action

namespace Stage

/-- How many parks are there for so many early wakeups, where a call has got this far? -/
def Paced (due now : Instant) (parks early : Nat) : Stage → Prop
  | drowsy _ => parks ≤ early
  | entering | inside | woken => parks ≤ early ∨ parks ≤ early + 1 ∧ due ≤ now
  | announcing | leaving _ | asleep _ => parks ≤ early + 1

/-- How many steps does a thread make between two parks, up to this stage? -/
def rank : Stage → Nat
  | asleep _ => 0
  | entering | woken => 1
  | inside | announcing => 2
  | leaving _ | drowsy _ => 3

variable {t : Nat} {R : Room t} {θ : Fin t} {c : Call} {i due now : Instant} {a : Action t}
  {stage stage' : Stage} {parks early steps : Nat}

theorem rank_le (stage : Stage) : stage.rank ≤ 3 := by
  cases stage <;> simp [rank]

theorem Paced.le (h : stage.Paced due now parks early) : parks ≤ early + 1 := by
  cases stage <;> simp only [Paced] at h <;> omega

/-- **Each park but the first costs an early wakeup**, if the thread sleeps until the due time
unless it is roused, and falls asleep only before it. -/
theorem Paced.goes (h : stage.Paced due R.now parks early) (hgoes : stage.Goes R θ c i a stage')
    (hnow : R.now ≤ now) (hexpire : a = .expire θ → due ≤ R.now)
    (hbound : ∀ b, c.bound? i R.now = some b → ¬ due ≤ R.now) :
    stage'.Paced due now (parks + (decide (a = .sleep θ)).toNat)
      (early + (a.rouses θ && !decide (due ≤ R.now)).toNat) := by
  have hlater : due ≤ R.now → due ≤ now := fun hdue => Instant.le_trans hdue hnow
  have hle := h.le
  cases hgoes with
  | stayed hthread hwakes =>
    have hsleep : a ≠ .sleep θ := by
      rintro rfl
      exact hthread rfl
    have hrouses : a.rouses θ = false := Bool.eq_false_iff.mpr fun hr => by
      rw [Action.wakes_of_rouses hr] at hwakes
      cases hwakes
    rw [decide_eq_false hsleep, hrouses]
    cases stage with
    | entering | inside | woken => exact h.imp id (And.imp id hlater)
    | _ => exact h
  | entered hstage =>
    have hwants : parks ≤ early ∨ parks ≤ early + 1 ∧ due ≤ R.now := by
      rcases hstage with rfl | rfl <;> exact h
    exact hwants.imp id (And.imp id hlater)
  | worked hstays =>
    cases hstays with
    | posted _ => exact hle
    | answered _ _ => exact hle
    | dozed _ hb => exact h.resolve_right fun hdue => hbound _ hb hdue.2
  | announced =>
    rw [decide_eq_false nofun, Bool.toNat_false]
    simp only [Paced]
    omega
  | slept =>
    rw [decide_eq_true rfl]
    exact Nat.succ_le_succ h
  | woke hwakes =>
    rw [decide_eq_false (Action.ne_sleep_of_wakes hwakes)]
    by_cases hdue : due ≤ R.now
    · rw [decide_eq_true hdue, Bool.not_true, Bool.and_false]
      exact Or.inr ⟨hle, hlater hdue⟩
    · have hrouses := (Action.rouses_or_eq_expire hwakes).resolve_right (hdue ∘ hexpire)
      rw [hrouses, decide_eq_false hdue]
      exact Or.inl hle

/-- **Between two parks a thread makes four steps at the most**, if it does not signal. -/
theorem rank_of_goes (hc : c ≠ .signal) (h : steps + 1 ≤ 4 * parks + stage.rank)
    (hgoes : stage.Goes R θ c i a stage') :
    steps + (decide (a.thread? = some θ)).toNat + 1 ≤
      4 * (parks + (decide (a = .sleep θ)).toNat) + stage'.rank := by
  have hone : (decide (a.thread? = some θ)).toNat ≤ 1 := Bool.toNat_le _
  cases hgoes with
  | stayed hthread _ =>
    rw [decide_eq_false hthread, Bool.toNat_false]
    omega
  | entered hstage =>
    have hrank : stage.rank = 1 := by rcases hstage with rfl | rfl <;> rfl
    rw [hrank] at h
    simp only [rank]
    omega
  | worked hstays =>
    have hrank : stage'.rank = 3 := by
      cases hstays with
      | posted _ => exact absurd rfl hc
      | _ => rfl
    simp only [rank] at h
    omega
  | announced =>
    simp only [rank] at h ⊢
    omega
  | slept =>
    rw [decide_eq_true rfl, Bool.toNat_true]
    simp only [rank] at h ⊢
    omega
  | woke _ =>
    simp only [rank] at h ⊢
    omega

end Stage

namespace Machine

section Count

variable {σ : Type} {t m g : Nat} {p : Program σ m g} {μ κ κ' : Machine σ t m g}
  {as : List (Action t)} {x : Episode t} {due : Instant} {a : Action t} {j : Nat}

/-- The number of places of a run is that of its beginning, and one more or not. -/
theorem StepAt.countPlaces (hat : μ.StepAt p as j a κ κ') (f : List (Action t) → Action t → Bool) :
    countPlaces f (as.take (j + 1)) = countPlaces f (as.take j) + (f (as.take j) a).toNat := by
  rw [List.take_add_one, hat.action, Option.toList_some, countPlaces_snoc]

theorem StepAt.length_take (hat : μ.StepAt p as j a κ κ') : (as.take j).length = j := by
  rw [List.length_take]
  have := hat.lt
  omega

theorem parks_snoc (hopen : x.isOpenAt j = true) (hat : μ.StepAt p as j a κ κ') :
    x.parks (as.take (j + 1)) = x.parks (as.take j) + (decide (a = .sleep x.thread)).toNat := by
  rw [Episode.parks, hat.countPlaces, hat.length_take, hopen, Bool.true_and]

theorem stepsSince_snoc (hmade : x.made < j) (hat : μ.StepAt p as j a κ κ') :
    x.stepsSince (as.take (j + 1)) =
      x.stepsSince (as.take j) + (decide (a.thread? = some x.thread)).toNat := by
  rw [Episode.stepsSince, hat.countPlaces, hat.length_take, decide_eq_true hmade, Bool.true_and]

theorem earlyWakeups_snoc (hopen : x.isOpenAt j = true) (hat : μ.StepAt p as j a κ κ') :
    μ.earlyWakeups p x due (as.take (j + 1)) = μ.earlyWakeups p x due (as.take j) +
      (a.rouses x.thread && !decide (due ≤ κ.now)).toNat := by
  rw [earlyWakeups, hat.countPlaces, hat.length_take, hopen, Bool.true_and, hat.before,
    Option.any_some]

end Count

/-- **The end of the course of a call**, at step `j`: the call returns, or the run is over. There
the call has got to `stage`. -/
structure EndsAt {σ : Type} {t m g : Nat} (p : Program σ m g) (e : Fin m) (μ : Machine σ t m g)
    (as : List (Action t)) (x : Episode t) (since : Instant) (j : Nat) (κ : Machine σ t m g)
    (stage : Stage) : Prop where
  /-- The call has been made. -/
  made : x.made < j
  /-- It is a time of the run, -/
  le : j ≤ as.length
  /-- and no later than the return. -/
  returned : ∀ n r, x.returned = some (n, r) → j ≤ n
  /-- If there is no return, the run is over. -/
  eq_length : x.returned = none → j = as.length
  /-- That is where the run has led, -/
  run : μ.steps p (as.take j) = some κ
  /-- and where the thread stands. -/
  status : κ.status x.thread = stage.status ⟨e, x.call, since⟩
  /-- The call has its answer if it was ever decided. -/
  answer : ∀ r, stage.answer? = some r ↔ ∃ k, x.decided = some (k, r)
  /-- What is counted while the call is open has been counted. -/
  counts {f : List (Action t) → Action t → Bool} :
    (∀ bs a, x.isOpenAt bs.length = false → f bs a = false) →
      countPlaces f (as.take j) = countPlaces f as

section Course

variable {σ : Type} {t m g : Nat} {p : Program σ m g} {μ ν ι κ κ' : Machine σ t m g} {e : Fin m}
  {as : List (Action t)} {x : Episode t} {d : Duration} {due : Instant} {j : Nat}
  (hμ : μ.Initial) (h : μ.steps p as = some ν) (hx : x ∈ μ.book p e as)
  (hι : μ.steps p (as.take x.made) = some ι)

include hμ h hx hι

/-- Every course has an end. -/
theorem exists_endsAt : ∃ j κ stage, EndsAt p e μ as x ι.now j κ stage := by
  have hrec := (tells_book hμ h e).recorded hx
  have hlength := length_history h (e := e)
  have hmade : x.made < as.length := hlength ▸ lt_of_mark hrec.made
  cases hreturned : x.returned with
  | none =>
    have hret : ∀ n r, x.returned = some (n, r) → as.length ≤ n := by simp [hreturned]
    have hν : μ.steps p (as.take as.length) = some ν := by rwa [List.take_length]
    obtain ⟨stage, hs, hanswer⟩ := exists_stage hμ h hx hι hmade (Nat.le_refl _) hret hν
    refine ⟨as.length, ν, stage, hmade, Nat.le_refl _, hret, fun _ => rfl, hν, hs,
      fun r => (hanswer r).trans ⟨fun ⟨k, _, hd⟩ => ⟨k, hd⟩, fun ⟨k, hd⟩ => ⟨k, ?_, hd⟩⟩,
      fun _ => by rw [List.take_length]⟩
    exact hlength ▸ lt_of_mark (hrec.decided hd).2
  | some d =>
    obtain ⟨n, r⟩ := d
    obtain ⟨⟨k, hkn, hdecided⟩, hmark⟩ := hrec.returned hreturned
    have hlt : n < as.length := hlength ▸ lt_of_mark hmark
    have hmaden : x.made < n := (hrec.decided hdecided).1.trans hkn
    have hret : ∀ n' r', x.returned = some (n', r') → n ≤ n' := by
      rw [hreturned]
      rintro n' r' ⟨⟩
      exact Nat.le_refl _
    obtain ⟨κ, hκ, -⟩ := exists_steps_take h n
    obtain ⟨stage, hs, hanswer⟩ := exists_stage hμ h hx hι hmaden hlt.le hret hκ
    refine ⟨n, κ, stage, hmaden, hlt.le, hret, (by simp [hreturned]), hκ, hs,
      fun r => (hanswer r).trans ⟨fun ⟨k, _, hd⟩ => ⟨k, hd⟩, fun ⟨k', hd⟩ => ⟨k', ?_, hd⟩⟩,
      Episode.countPlaces_take_of_returned hreturned⟩
    cases hdecided.symm.trans hd
    exact hkn

variable (hc : x.call = .waitTimeout d)

include hc

/-- **Along its course a bounded wait is paced**, and its thread goes on from one park to the
next. -/
theorem paced (hdue : ι.now.add? d = some due)
    (hexpire : ∀ i κ κ', x.isOpenAt i = true → μ.StepAt p as i (.expire x.thread) κ κ' →
      due ≤ κ.now)
    (hj : x.made < j) (hjl : j ≤ as.length) (hret : ∀ n r, x.returned = some (n, r) → j ≤ n)
    (hκ : μ.steps p (as.take j) = some κ) {stage : Stage}
    (hs : κ.status x.thread = stage.status ⟨e, x.call, ι.now⟩) :
    stage.Paced due κ.now (x.parks (as.take j)) (μ.earlyWakeups p x due (as.take j)) ∧
      x.stepsSince (as.take j) + 1 ≤ 4 * x.parks (as.take j) + stage.rank := by
  refine course_induction hμ h hx hι (P := fun j κ stage =>
    stage.Paced due κ.now (x.parks (as.take j)) (μ.earlyWakeups p x due (as.take j)) ∧
      x.stepsSince (as.take j) + 1 ≤ 4 * x.parks (as.take j) + stage.rank)
    ?begin ?step hj hjl hret hκ hs
  case begin =>
    intro κ _
    have hsteps : x.stepsSince (as.take (x.made + 1)) = 0 :=
      Episode.countPlaces_take_made fun bs a hbs => by simp [Nat.not_lt.mpr hbs]
    rw [Episode.parks_take_made, hsteps]
    exact ⟨Or.inl (Nat.zero_le _), Nat.le_refl _⟩
  case step =>
    intro j a κ κ' stage stage' hj hret hat hgoes ⟨hpaced, hrank⟩
    have hopen : x.isOpenAt j = true := Episode.isOpenAt_iff.mpr ⟨hj, hret⟩
    rw [parks_snoc hopen hat, earlyWakeups_snoc hopen hat, stepsSince_snoc hj hat]
    rw [hc] at hgoes
    refine ⟨hpaced.goes hgoes ?_ ?_ ?_, Stage.rank_of_goes (by nofun) hrank hgoes⟩
    · exact (step_room (e := e) (hμ.balanced_of_steps hat.before e) hat.step).now_le
    · rintro rfl
      exact hexpire j κ κ' hopen hat
    · intro b hb hle
      rw [Call.bound?_eq_none_iff.mpr] at hb
      · cases hb
      · have hnanos := Instant.toNanos_of_add? hdue
        rw [← hnanos]
        exact Instant.le_iff_toNanos_le.mp hle

/-- **With `k` early wakeups a bounded wait parks at most `k + 1` times**, and it has returned when
its thread has made more than `4 * k + 6` steps. -/
theorem parks_le (hdue : ι.now.add? d = some due)
    (hexpire : ∀ i κ κ', x.isOpenAt i = true → μ.StepAt p as i (.expire x.thread) κ κ' →
      due ≤ κ.now) :
    x.parks as ≤ μ.earlyWakeups p x due as + 1 ∧
      (4 * μ.earlyWakeups p x due as + 6 < x.stepsSince as → ∃ n r, x.returned = some (n, r)) := by
  obtain ⟨j, κ, stage, hend⟩ := exists_endsAt hμ h hx hι
  obtain ⟨hpaced, hrank⟩ :=
    paced hμ h hx hι hc hdue hexpire hend.made hend.le hend.returned hend.run hend.status
  have hle := hpaced.le
  have hparks : x.parks (as.take j) = x.parks as :=
    hend.counts fun bs a hbs => by rw [hbs, Bool.false_and]
  have hearly : μ.earlyWakeups p x due (as.take j) = μ.earlyWakeups p x due as :=
    hend.counts fun bs a hbs => by rw [hbs, Bool.false_and, Bool.false_and]
  rw [hparks, hearly] at hle
  refine ⟨hle, fun hmany => ?_⟩
  cases hreturned : x.returned with
  | some r => exact ⟨r.1, r.2, rfl⟩
  | none =>
    have hthree := stage.rank_le
    rw [hend.eq_length hreturned, List.take_length] at hrank
    omega

/-- **A bounded wait whose time is out is not stuck**: its thread can go on, or the one that holds
the lock can. -/
theorem exists_step_of_due (hdue : ι.now.add? d = some due) (hopen : x.returned = none)
    (hle : due ≤ ν.now) :
    ∃ a κ θ, ν.step p a = some κ ∧ a.goesOn = true ∧ a.thread? = some θ ∧
      (θ = x.thread ∨ (ν.monitor e).holder = some θ) := by
  have hrec := (tells_book hμ h e).recorded hx
  have hmade : x.made < as.length := length_history h (e := e) ▸ lt_of_mark hrec.made
  have ho := hμ.orderly h e
  have hν : μ.steps p (as.take as.length) = some ν := by rwa [List.take_length]
  obtain ⟨stage, hs, -⟩ := exists_stage hμ h hx hι hmade (Nat.le_refl _) (by simp [hopen]) hν
  have hseat := (seat_room (e := e) hs).trans (stage.seat_status ⟨e, x.call, ι.now⟩)
  cases hholder : (ν.monitor e).holder with
  | some θ =>
    obtain ⟨a, κ, ha, hθ, hgoes, -⟩ :=
      exists_step_of_holder (p := p) ho (hμ.balanced_of_steps h e) hholder
    exact ⟨a, κ, θ, ha, hgoes, hθ, Or.inr rfl⟩
  | none =>
    have hself : (∃ a κ, ν.step p a = some κ ∧ a.thread? = some x.thread ∧ a.goesOn = true ∧
        (mark e ν κ a).isProgress = true) → ∃ a κ θ, ν.step p a = some κ ∧ a.goesOn = true ∧
          a.thread? = some θ ∧ (θ = x.thread ∨ none = some θ) := by
      rintro ⟨a, κ, ha, hθ, hgoes, -⟩
      exact ⟨a, κ, x.thread, ha, hgoes, hθ, Or.inl rfl⟩
    have hout : stage.holds ≠ true := by
      intro hh
      cases hholder.symm.trans ((ho.fits hseat).holds.mp hh)
    cases stage with
    | entering => exact hself (exists_step_of_free hholder hseat (Or.inl rfl))
    | woken => exact hself (exists_step_of_free hholder hseat (Or.inr rfl))
    | asleep b =>
      have hlate : x.call.patient ι.now ν.now = false := by
        rw [hc, Call.patient, Call.bound?_eq_none_iff.mpr]
        · rfl
        · rw [← Instant.toNanos_of_add? hdue]
          exact Instant.le_iff_toNanos_le.mp hle
      obtain ⟨κ, hκ, -⟩ := exists_expire (p := p) ho hseat hlate
      exact ⟨_, κ, x.thread, hκ, rfl, rfl, Or.inl rfl⟩
    | _ => exact absurd rfl hout

/-- A call that never found a signal returned since its time was out. -/
theorem late_of_returned
    (hmissed : ∀ i κ κ' sinkFails, x.isOpenAt i = true →
      μ.StepAt p as i (.work x.thread sinkFails) κ κ' → (κ.monitor e).latch.signaled = false)
    {n : Nat} {r : Reply} (hn : x.returned = some (n, r)) :
    ∃ k κ κ' sinkFails, x.made < k ∧ k < n ∧ μ.StepAt p as k (.work x.thread sinkFails) κ κ' ∧
      ι.now.toNanos + d.toNanos ≤ κ.now.toNanos ∧
      r = Call.late (κ.monitor e).latch sinkFails := by
  obtain ⟨⟨k, hkn, hd⟩, -⟩ := ((tells_book hμ h e).recorded hx).returned hn
  obtain ⟨κ, κ', sinkFails, hmade, hat, hdecides⟩ := exists_decides hμ h hx hι hd
  have hopen : x.isOpenAt k = true := by
    refine Episode.isOpenAt_iff.mpr ⟨hmade, fun n' r' hn' => ?_⟩
    cases hn.symm.trans hn'
    exact hkn
  have hunset := hmissed k κ κ' sinkFails hopen hat
  rw [hc] at hdecides
  rcases Call.waitTimeout_of_decides hdecides with ⟨hset, -⟩ | ⟨-, hdue, -⟩
  · cases hunset.symm.trans hset
  · have hlate := decided_of_late hμ h hx hι hc hopen hat hunset hdue
    cases hd.symm.trans hlate
    exact ⟨k, κ, κ', sinkFails, hmade, hkn, hat, hdue, rfl⟩

end Course

/-- **Wakeups neither stretch nor shorten a bounded wait.** Let the call be made when the clock
reads `ι.now`.

* Every time it falls asleep it parks for what is left: not nothing, and up to the due time
  exactly, or the longest duration there is if the due time is past the last instant.
* No later park is longer than an earlier one.
* A stay that finds no signal when the time is out is its last one: it settles the answer as the
  timeout, unless that cannot be counted or the log sink fails, and the call does not park again.
* Let there be a due time, and let the sleep run out no earlier. With `k` wakeups before that time,
  for no reason or by a signal, the call parks at most `k + 1` times and has returned when its
  thread has made more than `4 * k + 6` steps; until then, from the due time on, its thread or the
  one that holds the lock can go on. If it never finds a signal, it returns because its time was
  out. -/
theorem park_times {σ : Type} {t m g : Nat} {p : Program σ m g} {μ ν : Machine σ t m g} {e : Fin m}
    {as : List (Action t)} {x : Episode t} {d : Duration} (hμ : μ.Initial)
    (h : μ.steps p as = some ν) (hx : x ∈ μ.book p e as) (hc : x.call = .waitTimeout d) :
    ∃ ι, μ.steps p (as.take x.made) = some ι ∧
      (∀ k κ κ', x.isOpenAt k = true → μ.StepAt p as k (.sleep x.thread) κ κ' →
        ∃ now left, μ.ParksAt p e as x k now left) ∧
      (∀ k now left, x.isOpenAt k = true → μ.ParksAt p e as x k now left →
        Call.Left ι.now now d left) ∧
      (∀ k k' now now' left left', x.isOpenAt k = true → x.isOpenAt k' = true → k ≤ k' →
        μ.ParksAt p e as x k now left → μ.ParksAt p e as x k' now' left' → left' ≤ left) ∧
      (∀ j κ κ' sinkFails, x.isOpenAt j = true →
        μ.StepAt p as j (.work x.thread sinkFails) κ κ' → (κ.monitor e).latch.signaled = false →
        ι.now.toNanos + d.toNanos ≤ κ.now.toNanos →
        x.decided = some (j, Call.late (κ.monitor e).latch sinkFails) ∧
          (∀ n r, x.returned = some (n, r) → r = Call.late (κ.monitor e).latch sinkFails) ∧
          ∀ k now left, j < k → x.isOpenAt k = true → ¬ μ.ParksAt p e as x k now left) ∧
      ∀ due, ι.now.add? d = some due →
        (∀ i κ κ', x.isOpenAt i = true → μ.StepAt p as i (.expire x.thread) κ κ' → due ≤ κ.now) →
        x.parks as ≤ μ.earlyWakeups p x due as + 1 ∧
        (4 * μ.earlyWakeups p x due as + 6 < x.stepsSince as → ∃ n r, x.returned = some (n, r)) ∧
        (x.returned = none → due ≤ ν.now → ∃ a κ θ, ν.step p a = some κ ∧ a.goesOn = true ∧
          a.thread? = some θ ∧ (θ = x.thread ∨ (ν.monitor e).holder = some θ)) ∧
        ((∀ i κ κ' sinkFails, x.isOpenAt i = true →
          μ.StepAt p as i (.work x.thread sinkFails) κ κ' →
            (κ.monitor e).latch.signaled = false) →
          ∀ n r, x.returned = some (n, r) → ∃ k κ κ' sinkFails, x.made < k ∧ k < n ∧
            μ.StepAt p as k (.work x.thread sinkFails) κ κ' ∧
            ι.now.toNanos + d.toNanos ≤ κ.now.toNanos ∧
            r = Call.late (κ.monitor e).latch sinkFails) := by
  obtain ⟨ι, hι, -⟩ := exists_steps_take h x.made
  refine ⟨ι, hι, ?_, ?_, ?_, ?_, ?_⟩
  · intro k κ κ' hopen hat
    obtain ⟨now, left, hk, -⟩ := exists_parksAt hμ h hx hι hc hopen hat
    exact ⟨now, left, hk⟩
  · intro k now left hopen hk
    exact left_of_parksAt hμ h hx hι hc hopen hk
  · intro k k' now now' left left' hopen hopen' hle hk hk'
    exact (left_of_parksAt hμ h hx hι hc hopen hk).le (left_of_parksAt hμ h hx hι hc hopen' hk')
      (hk.now_le hμ hk' hle)
  · intro j κ κ' sinkFails hopen hat hunset hdue
    have hd := decided_of_late hμ h hx hι hc hopen hat hunset hdue
    refine ⟨hd, fun n r hn => ?_, fun k now left hjk hopen' =>
      not_parksAt_of_decided hμ h hx hι hopen' hd hjk⟩
    obtain ⟨⟨k, -, hd'⟩, -⟩ := ((tells_book hμ h e).recorded hx).returned hn
    cases hd.symm.trans hd'
    rfl
  · intro due hdue hexpire
    obtain ⟨hparks, hreturns⟩ := parks_le hμ h hx hι hc hdue hexpire
    exact ⟨hparks, hreturns, exists_step_of_due hμ h hx hι hc hdue,
      fun hmissed n r => late_of_returned hμ h hx hι hc hmissed⟩

/-- The first of the belated waits is woken once too early, so it parks twice; then it has run
out. Its second park ends at the due time as the first one would have. -/
theorem park_times_belated :
    ∃ due ν x, Instant.zero.add? fiveNanos = some due ∧
      (belated (0 : Fin 1)).steps Tape.program (belatedRun 0 1) = some ν ∧
      x ∈ (belated (0 : Fin 1)).book Tape.program 0 (belatedRun 0 1) ∧
      x.returned = some (12, .timedOut) ∧ x.parks (belatedRun 0 1) = 2 ∧
      (belated (0 : Fin 1)).earlyWakeups Tape.program x due (belatedRun 0 1) = 1 ∧
      x.parks (belatedRun 0 1) ≤
        (belated (0 : Fin 1)).earlyWakeups Tape.program x due (belatedRun 0 1) + 1 ∧
      ∃ now left, (belated (0 : Fin 1)).ParksAt Tape.program 0 (belatedRun 0 1) x 7 now left ∧
        Call.Left .zero now fiveNanos left := by
  obtain ⟨ν, hν⟩ : ∃ ν, (belated (0 : Fin 1)).steps Tape.program (belatedRun 0 1) = some ν :=
    Option.isSome_iff_exists.mp (by decide +kernel)
  have hinitial : (belated (0 : Fin 1)).Initial := initial_ofTapes ..
  have hx : ⟨0, .waitTimeout fiveNanos, 0, some (11, .timedOut),
      some (12, .timedOut)⟩ ∈ (belated (0 : Fin 1)).book Tape.program 0 (belatedRun 0 1) :=
    Or.inl (by decide +kernel)
  obtain ⟨ι, hι, hparks, hleft, -, -, hcount⟩ := park_times hinitial hν hx rfl
  cases hι
  obtain ⟨κ, κ', hat⟩ := exists_stepAt hν (by decide : 7 < (belatedRun (0 : Fin 2) 1).length)
  obtain ⟨now, left, hpark⟩ := hparks 7 κ κ' rfl hat
  -- its time runs out in one step only, and then the clock has been moved on
  have honly : ∀ i < 23, (belatedRun (0 : Fin 2) 1)[i]? = some (.expire 0) → i = 9 := by decide
  obtain ⟨hle, -⟩ := hcount { Instant.zero with nanos := 5, nanos_lt := fiveNanos.nanos_lt } rfl
    fun i κ κ' _ hat => by
      obtain rfl := honly i hat.lt hat.action
      exact of_decide_eq_true (of_steps (f := fun κ : Machine (Tape 1 0) 2 1 0 =>
        decide (({ Instant.zero with nanos := 5, nanos_lt := fiveNanos.nanos_lt } : Instant) ≤
          κ.now)) (by decide +kernel) hat.before)
  exact ⟨_, ν, _, rfl, hν, hx, rfl, by decide +kernel, by decide +kernel, hle, now, left, hpark,
    hleft 7 now left rfl hpark⟩

end Machine

end Threads

end AutoReset
