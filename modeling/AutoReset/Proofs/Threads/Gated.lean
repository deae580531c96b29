import AutoReset.Proofs.Threads.Course
import AutoReset.Proofs.Threads.Ring
import AutoReset.Proofs.Threads.Rounds
import Mathlib.Algebra.Order.BigOperators.Group.Finset
/-!
# Signals that are handed out behind a gate

Producers take turns behind a gate. Each looks whether a signal is pending, and signals only
if there is none; otherwise it gives the gate up and tries again. To look and to signal are
two stays inside the lock of the event, and between them the consumers do what they like. All
the same no signal is absorbed: only a producer behind the gate can set the flag, and there is
only one. So what a producer **saw unset** stays unset until it signals
(`AutoReset.Threads.Gated.Fair.seen`).

The gate is the first half of that. A program says in which of its states it is behind a gate
(`AutoReset.Threads.Program.Guards`), and then the threads in these states are those that hold
the gate (`AutoReset.Threads.Machine.Guarded`). The other half counts: the signals are those
of the producers that have signalled, and the consumed ones those of the consumers that have
consumed. With as many producers as consumers, where a signal is pending some consumer is
still to come, and it is not left to sleep (`AutoReset.Threads.Machine.no_lost_wakeup`). While a
producer is inside the lock that consumer has to wait for it
(`AutoReset.Threads.Machine.gated_handover_inside`), but not for long.
-/

namespace AutoReset.Threads

open Finset

/-! ### Who is behind a gate -/

/-- **In these states a program is behind these gates**: it gets behind a gate by locking it,
leaves it by unlocking it, and no call takes it to or from a gate. -/
structure Program.Guards {σ : Type} {m g : Nat} (p : Program σ m g) (behind : Fin g → σ → Prop) :
    Prop where
  /-- To lock a gate is to get behind it. -/
  lock {x : σ} {k : Fin g} : p.next x = some (.lockGate k) →
    ∀ j, behind j (p.resume x .done) ↔ j = k ∨ behind j x
  /-- To unlock a gate is to leave it. -/
  unlock {x : σ} {k : Fin g} : p.next x = some (.unlockGate k) →
    ∀ j, behind j (p.resume x .done) ↔ j ≠ k ∧ behind j x
  /-- A call has nothing to do with gates. -/
  call {x : σ} {e : Fin m} {c : Call} : p.next x = some (.call e c) →
    ∀ r j, behind j (p.resume x r) ↔ behind j x

namespace Machine

variable {σ : Type} {t m g : Nat} {p : Program σ m g} {μ ν : Machine σ t m g} {θ : Fin t}

/-- Whoever is in a call has asked for it. -/
def Asked (p : Program σ m g) (μ : Machine σ t m g) : Prop :=
  ∀ θ v r, (μ.account θ).2 = some (v, r) → p.next (μ.account θ).1 = some (.call v.event v.call)

/-- Another account for one thread. -/
theorem Asked.update (h : μ.Asked p) {y : σ × Option (Visit m × Option Reply)}
    (ha : ν.account = Function.update μ.account θ y)
    (hy : ∀ v r, y.2 = some (v, r) → p.next y.1 = some (.call v.event v.call)) : ν.Asked p := by
  intro η
  rw [ha]
  by_cases hη : η = θ
  · rw [hη, Function.update_self]
    exact hy
  · rw [Function.update_of_ne hη]
    exact h η

theorem Asked.turn (h : μ.Asked p) (ht : μ.Turn p ν) : ν.Asked p := by
  cases ht with
  | made hθ hnext ha _ =>
    refine h.update ha ?_
    rintro v r ⟨⟩
    exact hnext
  | passed _ _ ha _ => exact h.update ha (by rintro v r ⟨⟩)
  | @decided θ x v r l hθ _ ha _ =>
    refine h.update ha ?_
    rintro w s ⟨⟩
    have hasked := h θ v none
    rw [hθ] at hasked
    exact hasked rfl
  | returned _ ha _ => exact h.update ha (by rintro v r ⟨⟩)
  | silent ha _ =>
    intro θ
    rw [ha]
    exact h θ

theorem Initial.asked (h : μ.Initial) : μ.Asked p := by
  intro θ v r hv
  rw [account_eq (h.ready θ)] at hv
  cases hv

section Setters

variable (μ)

theorem gate_setGate_self (k : Fin g) (x : Option (Fin t)) : (μ.setGate k x).gate k = x := by
  simp [gate, setGate]

theorem gate_setGate_of_ne {j k : Fin g} (x : Option (Fin t)) (h : j ≠ k) :
    (μ.setGate k x).gate j = μ.gate j := by
  have hv : (k : Nat) ≠ j := fun he => h (Fin.ext he.symm)
  simp [gate, setGate, hv]

end Setters

/-- **Behind a gate is the thread that holds it.** -/
def Guarded (behind : Fin g → σ → Prop) (μ : Machine σ t m g) : Prop :=
  ∀ θ k, behind k (μ.thread θ).state ↔ μ.gate k = some θ

/-- Two threads behind one gate are one. -/
theorem Guarded.eq_of_behind {behind : Fin g → σ → Prop} (h : μ.Guarded behind) {k : Fin g}
    {η : Fin t} (hθ : behind k (μ.thread θ).state) (hη : behind k (μ.thread η).state) : θ = η :=
  Option.some.inj (((h θ k).mp hθ).symm.trans ((h η k).mp hη))

/-- **What a step does to gates and to the states of programs**: a thread locks or unlocks a
gate; or a call returns, and its program goes on; or gates and states stay as they are. -/
theorem states_of_step {a : Action t} (h : μ.step p a = some ν) :
    (∃ θ k, a = .start θ ∧ p.next (μ.thread θ).state = some (.lockGate k) ∧ μ.gate k = none ∧
      ν = (μ.setGate k (some θ)).setReady θ (p.resume (μ.thread θ).state .done)) ∨
    (∃ θ k, a = .start θ ∧ p.next (μ.thread θ).state = some (.unlockGate k) ∧
      μ.gate k = some θ ∧
      ν = (μ.setGate k none).setReady θ (p.resume (μ.thread θ).state .done)) ∨
    (∃ θ v r, a = .leave θ ∧ μ.status θ = .leaving v r ∧ ν.gate = μ.gate ∧
      (ν.thread θ).state = p.resume (μ.thread θ).state r ∧
      ∀ η, η ≠ θ → (ν.thread η).state = (μ.thread η).state) ∨
    ((∀ θ, a ≠ .leave θ) ∧ ν.gate = μ.gate ∧ ∀ η, (ν.thread η).state = (μ.thread η).state) := by
  have hset : ∀ (κ : Machine σ t m g) θ s η,
      ((κ.setStatus θ s).thread η).state = (κ.thread η).state := by
    intro κ θ s η
    by_cases hη : η = θ
    · rw [hη, thread_setStatus_self]
    · rw [thread_setStatus_of_ne _ _ hη]
  -- a step that only lets one thread stand elsewhere
  have hstay : (∀ θ, a ≠ .leave θ) →
      (∃ (κ : Machine σ t m g) (θ : Fin t) (s : Status m), κ.gate = μ.gate ∧
        (∀ η, (κ.thread η).state = (μ.thread η).state) ∧ ν = κ.setStatus θ s) →
      (∀ θ, a ≠ .leave θ) ∧ ν.gate = μ.gate ∧ ∀ η, (ν.thread η).state = (μ.thread η).state := by
    rintro ha ⟨κ, θ, s, hgate, hstate, rfl⟩
    exact ⟨ha, hgate, fun η => (hset κ θ s η).trans (hstate η)⟩
  cases a with
  | start θ =>
    obtain ⟨-, ⟨e, c, -, rfl⟩ | ⟨k, hnext, hk, rfl⟩ | ⟨k, hnext, hk, rfl⟩⟩ := exists_of_start h
    · exact Or.inr (Or.inr (Or.inr (hstay (by simp) ⟨μ, θ, _, rfl, fun _ => rfl, rfl⟩)))
    · exact Or.inl ⟨θ, k, rfl, hnext, hk, rfl⟩
    · exact Or.inr (Or.inl ⟨θ, k, rfl, hnext, hk, rfl⟩)
  | acquire θ =>
    obtain ⟨v, -, -, rfl⟩ := exists_of_acquire h
    exact Or.inr (Or.inr (Or.inr (hstay (by simp)
      ⟨μ.setMonitor v.event _, θ, _, rfl, fun _ => rfl, rfl⟩)))
  | work θ sinkFails =>
    obtain ⟨v, hs⟩ := exists_inside_of_work h
    simp only [step, work, hs] at h
    split at h <;> cases h <;>
      exact Or.inr (Or.inr (Or.inr (hstay (by simp)
      ⟨μ.setMonitor v.event _, θ, _, rfl, fun _ => rfl, rfl⟩)))
  | notify θ sleeper =>
    obtain ⟨v, -, ⟨-, -, rfl⟩ | ⟨η, w, b, -, -, -, rfl⟩⟩ := exists_of_notify h
    · exact Or.inr (Or.inr (Or.inr (hstay (by simp) ⟨μ, θ, _, rfl, fun _ => rfl, rfl⟩)))
    · exact Or.inr (Or.inr (Or.inr (hstay (by simp)
        ⟨μ.setStatus η (.woken w), θ, _, rfl, hset μ η _, rfl⟩)))
  | leave θ =>
    obtain ⟨v, r, hs, rfl⟩ := exists_of_leave h
    refine Or.inr (Or.inr (Or.inl ⟨θ, v, r, rfl, hs, rfl, ?_, fun η hη => ?_⟩))
    · rw [thread_setReady_self]
    · rw [thread_setReady_of_ne _ _ hη]
      rfl
  | sleep θ =>
    obtain ⟨v, b, -, rfl⟩ := exists_of_sleep h
    exact Or.inr (Or.inr (Or.inr (hstay (by simp)
      ⟨μ.setMonitor v.event _, θ, _, rfl, fun _ => rfl, rfl⟩)))
  | wake θ =>
    obtain ⟨v, b, -, rfl⟩ := exists_of_wake h
    exact Or.inr (Or.inr (Or.inr (hstay (by simp) ⟨μ, θ, _, rfl, fun _ => rfl, rfl⟩)))
  | expire θ =>
    obtain ⟨v, d, -, rfl⟩ := exists_of_expire h
    exact Or.inr (Or.inr (Or.inr (hstay (by simp) ⟨μ, θ, _, rfl, fun _ => rfl, rfl⟩)))
  | tick later =>
    obtain ⟨-, rfl⟩ := exists_of_tick h
    exact Or.inr (Or.inr (Or.inr ⟨by simp, rfl, fun _ => rfl⟩))

/-- Only who leaves is told an answer. -/
theorem replyTo_mark {a : Action t} {e : Fin m} (ha : ∀ η, a ≠ .leave η) :
    (mark e μ ν a).replyTo θ = none := by
  cases a with
  | leave η => exact absurd rfl (ha η)
  | work η sinkFails =>
    simp only [mark]
    split
    · next s _ =>
      obtain ⟨c, i, stage⟩ := s
      cases stage <;> rfl
    · rfl
  | _ =>
    simp only [mark]
    first
    | rfl
    | split <;> rfl

/-- A thread passes a gate, which was not in the hands of anybody else and is not now. -/
theorem Guarded.pass {behind : Fin g → σ → Prop} (h : μ.Guarded behind) {k : Fin g}
    {o : Option (Fin t)} {x : σ}
    (hx : ∀ j, behind j x ↔ if j = k then o = some θ else behind j (μ.thread θ).state)
    (ho : ∀ η, η ≠ θ → μ.gate k ≠ some η ∧ o ≠ some η) :
    ((μ.setGate k o).setReady θ x).Guarded behind := by
  intro η j
  show _ ↔ (μ.setGate k o).gate j = some η
  by_cases hj : j = k
  · rw [hj, gate_setGate_self]
    by_cases hη : η = θ
    · rw [hη, thread_setReady_self, hx, if_pos rfl]
    · rw [thread_setReady_of_ne _ _ hη, thread_setGate, h η k]
      exact iff_of_false (ho η hη).1 (ho η hη).2
  · rw [gate_setGate_of_ne _ _ hj]
    by_cases hη : η = θ
    · rw [hη, thread_setReady_self, hx, if_neg hj]
      exact h θ j
    · rw [thread_setReady_of_ne _ _ hη, thread_setGate]
      exact h η j

/-- **Every step leaves the gates with the threads behind them.** -/
theorem Guarded.step {behind : Fin g → σ → Prop} (h : μ.Guarded behind) (hp : p.Guards behind)
    (hasked : μ.Asked p) {a : Action t} (ha : μ.step p a = some ν) : ν.Guarded behind := by
  rcases states_of_step ha with ⟨θ, k, -, hnext, hk, rfl⟩ | ⟨θ, k, -, hnext, hk, rfl⟩ |
    ⟨θ, v, r, -, hs, hgate, hself, hothers⟩ | ⟨-, hgate, hstate⟩
  · refine h.pass (fun j => ?_) fun η hη => ⟨by simp [hk], by simpa using hη.symm⟩
    rw [hp.lock hnext]
    by_cases hj : j = k <;> simp [hj]
  · refine h.pass (fun j => ?_) fun η hη => ⟨by simpa [hk] using hη.symm, nofun⟩
    rw [hp.unlock hnext]
    by_cases hj : j = k <;> simp [hj]
  · intro η j
    rw [hgate, ← h η j]
    by_cases hη : η = θ
    · have hcall := hasked θ v (some r)
      rw [account_eq hs] at hcall
      rw [hη, hself]
      exact hp.call (hcall rfl) r j
    · rw [hothers η hη]
  · intro η j
    rw [hgate, ← h η j, hstate]

/-- **Who holds the lock to look, or to leave, can leave**, and the latch stays as it is. -/
theorem exists_steps_out {e : Fin m} (hθ : (∃ v r, μ.status θ = .leaving v r ∧ v.event = e) ∨
      (∃ v, μ.status θ = .announcing v ∧ v.event = e) ∨
      ∃ v, μ.status θ = .inside v ∧ v.event = e ∧ v.call = .isSignaled) :
    ∃ bs κ, bs.length ≤ 2 ∧ (∀ b ∈ bs, b.thread? = some θ) ∧ μ.steps p bs = some κ ∧
      (κ.monitor e).holder = none ∧ (κ.monitor e).latch = (μ.monitor e).latch := by
  have hleave : ∀ {ι : Machine σ t m g} {v : Visit m} {r : Reply}, ι.status θ = .leaving v r →
      v.event = e → ∃ κ, ι.step p (.leave θ) = some κ ∧ (κ.monitor e).holder = none ∧
        (κ.monitor e).latch = (ι.monitor e).latch := by
    rintro ι v r hs rfl
    simp only [step, leave, hs]
    exact ⟨_, rfl, by simp, by simp⟩
  -- one step more before it leaves
  have hmore : ∀ {ι : Machine σ t m g} {b : Action t} {v : Visit m} {r : Reply},
      μ.step p b = some ι → b.thread? = some θ → ι.status θ = .leaving v r → v.event = e →
      (ι.monitor e).latch = (μ.monitor e).latch →
      ∃ bs κ, bs.length ≤ 2 ∧ (∀ b ∈ bs, b.thread? = some θ) ∧ μ.steps p bs = some κ ∧
        (κ.monitor e).holder = none ∧ (κ.monitor e).latch = (μ.monitor e).latch := by
    intro ι b v r hι hb hs hv hlatch
    obtain ⟨κ, hκ, hfree, hsame⟩ := hleave hs hv
    refine ⟨[b, .leave θ], κ, by simp, ?_, by simp only [steps, hι, hκ], hfree, hsame.trans hlatch⟩
    simp only [List.mem_cons, List.not_mem_nil, or_false]
    rintro c (rfl | rfl)
    · exact hb
    · rfl
  rcases hθ with ⟨v, r, hs, hv⟩ | ⟨v, hs, hv⟩ | ⟨v, hs, hv, hcall⟩
  · obtain ⟨κ, hκ, hfree, hlatch⟩ := hleave hs hv
    refine ⟨[.leave θ], κ, by simp, ?_, by simp only [steps, hκ], hfree, hlatch⟩
    simp [Action.thread?]
  · obtain ⟨sleeper, ι, hι⟩ := exists_notify hs
    obtain ⟨hstatus, hmonitor⟩ : ι.status θ = .leaving v .done ∧ ι.monitor = μ.monitor := by
      obtain ⟨w, hw, ⟨-, -, rfl⟩ | ⟨η, u, b, -, -, -, rfl⟩⟩ := exists_of_notify hι <;>
        cases hs.symm.trans hw <;> exact ⟨by simp [status], rfl⟩
    exact hmore (b := .notify θ sleeper) hι rfl hstatus hv (by rw [hmonitor])
  · have hinside : v.call.inside v.since μ.now (μ.monitor v.event).latch =
        .ok (.answer (.flag (μ.monitor v.event).latch.signaled)) (μ.monitor v.event).latch := by
      rw [hcall]
      rfl
    have hwork : μ.step p (.work θ false) =
        some (μ.setMonitor v.event (μ.monitor v.event) |>.setStatus θ
          (.leaving v (.flag (μ.monitor v.event).latch.signaled))) := by
      simp only [step, work, hs, Monitor.recover_grant, hinside]
      rfl
    refine hmore (r := .flag (μ.monitor v.event).latch.signaled) hwork rfl (by simp [status]) hv ?_
    rw [← hv, monitor_setStatus, monitor_setMonitor_self]

end Machine

/-! ### The programs of consumers and producers -/

namespace Gated

/-- How far a consumer or a producer has got. -/
inductive Duty where
  /-- A consumer waits. -/
  | consume
  /-- A consumer has its signal, and stops. -/
  | fed
  /-- A producer wants the gate. -/
  | queue
  /-- A producer has the gate, and looks whether a signal is pending. -/
  | look
  /-- None is, and the producer signals. -/
  | post
  /-- A producer has signalled, and gives the gate up. -/
  | finish
  /-- A producer found a signal pending, and gives the gate up to try again. -/
  | retreat
  /-- A producer has signalled, and stops. -/
  | through
  deriving DecidableEq

/-- Is this a duty of a consumer? -/
def Duty.consumes : Duty → Bool
  | consume | fed => true
  | _ => false

theorem Duty.eq_of_consumes {x : Duty} (h : x.consumes = true) : x = .consume ∨ x = .fed := by
  cases x with
  | consume => exact Or.inl rfl
  | fed => exact Or.inr rfl
  | _ => cases h

/-- Is a producer behind the gate here? -/
def Duty.behind (_ : Fin 1) (x : Duty) : Prop :=
  x = look ∨ x = post ∨ x = finish ∨ x = retreat

/-- **What consumers and producers do.** -/
def program : Program Duty 1 1 where
  next
    | .consume => some (.call ⟨0, Nat.one_pos⟩ .wait)
    | .queue => some (.lockGate ⟨0, Nat.one_pos⟩)
    | .look => some (.call ⟨0, Nat.one_pos⟩ .isSignaled)
    | .post => some (.call ⟨0, Nat.one_pos⟩ .signal)
    | .finish | .retreat => some (.unlockGate ⟨0, Nat.one_pos⟩)
    | .fed | .through => none
  resume
    | .consume, _ => .fed
    | .queue, _ => .look
    | .look, .flag false => .post
    | .look, _ => .retreat
    | .post, _ => .finish
    | .finish, _ => .through
    | .retreat, _ => .queue
    | x, _ => x

/-- As many consumers as producers, a new event and a free gate. -/
def machine (n : Nat) (now : Instant) : Machine Duty (n + n) 1 1 where
  threads := .ofFn fun θ => { state := if θ.val < n then .consume else .queue }
  monitors := .replicate 1 {}
  gates := .replicate 1 none
  now

theorem guards_program : program.Guards Duty.behind where
  lock := by
    rintro x k hx j
    cases x <;> cases hx
    simp [program, Duty.behind, Subsingleton.elim j 0]
  unlock := by
    rintro x k hx j
    cases x <;> cases hx <;> simp [program, Duty.behind, Subsingleton.elim j 0]
  call := by
    rintro x e c hx r j
    cases x <;> cases hx
    · simp [program, Duty.behind]
    · cases r with
      | flag b => cases b <;> simp [program, Duty.behind]
      | _ => simp [program, Duty.behind]
    · simp [program, Duty.behind]

variable {n : Nat} {now : Instant}

theorem thread_machine (θ : Fin (n + n)) :
    (machine n now).thread θ = { state := if θ.val < n then .consume else .queue } := by
  simp [Machine.thread, machine]

theorem initial_machine : (machine n now).Initial where
  ready θ := by simp [Machine.status, thread_machine]
  fresh e := by simp [Machine.monitor, machine]

theorem guarded_machine : (machine n now).Guarded Duty.behind := by
  intro θ k
  have hgate : (machine n now).gate k = none := by simp [Machine.gate, machine]
  rw [hgate, thread_machine]
  split <;> simp [Duty.behind]

/-! ### Who has signalled, and who has consumed -/

/-- One for a producer that has signalled. -/
def posted : Duty × Option (Visit 1 × Option Reply) → Nat
  | (.finish, _) | (.through, _) | (.post, some (_, some _)) => 1
  | _ => 0

/-- One for a consumer that has consumed. -/
def served : Duty × Option (Visit 1 × Option Reply) → Nat
  | (.fed, _) | (.consume, some (_, some _)) => 1
  | _ => 0

/-- Has a producer found that no signal is pending, and not yet signalled? -/
def sawUnset : Duty × Option (Visit 1 × Option Reply) → Bool
  | (.look, some (_, some (.flag false))) | (.post, none) | (.post, some (_, none)) => true
  | _ => false

variable {a : Fin (n + n) → Duty × Option (Visit 1 × Option Reply)} {l l' : Latch}
  {y : Duty × Option (Visit 1 × Option Reply)}

theorem posted_le (y : Duty × Option (Visit 1 × Option Reply)) :
    posted y ≤ if y.1.consumes then 0 else 1 := by
  obtain ⟨x, o⟩ := y
  unfold posted
  split <;> simp_all [Duty.consumes]

theorem served_le (y : Duty × Option (Visit 1 × Option Reply)) :
    served y ≤ if y.1.consumes then 1 else 0 := by
  obtain ⟨x, o⟩ := y
  unfold served
  split <;> simp_all [Duty.consumes]

theorem behind_of_sawUnset (h : sawUnset y = true) : y.1.behind 0 := by
  obtain ⟨x, o⟩ := y
  unfold sawUnset at h
  split at h <;> simp_all [Duty.behind]

/-- **Two accounts count the same**, and nothing was seen unset that was not before. -/
structure Alike (y z : Duty × Option (Visit 1 × Option Reply)) : Prop where
  /-- A consumer stays one, and so does a producer. -/
  role : y.1.consumes = z.1.consumes
  /-- Nobody has signalled. -/
  posted : posted y = posted z
  /-- Nobody has consumed. -/
  served : served y = served z
  /-- Nobody has looked. -/
  saw : sawUnset y = true → sawUnset z = true

theorem alike_of_made {x : Duty} {v : Visit 1}
    (h : program.next x = some (.call v.event v.call)) : Alike (x, some (v, none)) (x, none) := by
  cases x with
  | consume | look | post => exact ⟨rfl, rfl, rfl, id⟩
  | _ => cases h

theorem alike_of_passed {x : Duty} {k : Fin 1}
    (h : program.next x = some (.lockGate k) ∨ program.next x = some (.unlockGate k)) :
    Alike (program.resume x .done, none) (x, none) := by
  rcases h with h | h <;> cases x <;> cases h <;> exact ⟨rfl, rfl, rfl, id⟩

/-- What a producer has seen when its look returns it had seen before. -/
theorem alike_of_returned {x : Duty} {v : Visit 1} {r : Reply}
    (h : program.next x = some (.call v.event v.call)) :
    Alike (program.resume x r, none) (x, some (v, some r)) := by
  cases x with
  | consume | post => exact ⟨rfl, rfl, rfl, id⟩
  | look =>
    cases r with
    | flag b => cases b <;> exact ⟨rfl, rfl, rfl, id⟩
    | _ => exact ⟨rfl, rfl, rfl, id⟩
  | _ => cases h

/-- The first half of the threads. -/
theorem sum_first (n x y : Nat) :
    ∑ θ : Fin (n + n), (if decide (θ.val < n) = true then x else y) = n * x + n * y := by
  have hlate : ∀ i : Fin n, ¬ (i.val + n < n) := fun i => by omega
  simp [Fin.sum_univ_add, hlate]

/-- **Consumers and producers share the signals fairly**, as their accounts tell. -/
structure Fair (n : Nat) (a : Fin (n + n) → Duty × Option (Visit 1 × Option Reply)) (l : Latch) :
    Prop where
  /-- The first threads are the consumers. -/
  roles (θ : Fin (n + n)) : (a θ).1.consumes = decide (θ.val < n)
  /-- The signals are those of the producers that have signalled. -/
  posts : l.stats.posts.toNat = ∑ θ, posted (a θ)
  /-- The consumed signals are those of the consumers that have consumed. -/
  consumed : l.stats.consumed.toNat = ∑ θ, served (a θ)
  /-- No signal was absorbed. -/
  coalesced : l.stats.coalesced = 0
  /-- **What a producer saw unset stays unset.** -/
  seen {θ : Fin (n + n)} : sawUnset (a θ) = true → l.signaled = false
  /-- A consumer has no other answer than that it consumed. -/
  fed {θ : Fin (n + n)} {v : Visit 1} {r : Reply} : a θ = (.consume, some (v, some r)) → r = .done

namespace Fair

theorem consumer (h : Fair n a l) {θ : Fin (n + n)} (hθ : θ.val < n) :
    (a θ).1 = .consume ∨ (a θ).1 = .fed :=
  Duty.eq_of_consumes ((h.roles θ).trans (decide_eq_true hθ))

theorem sum_posted_le (h : ∀ θ, (a θ).1.consumes = decide (θ.val < n)) :
    ∑ θ, posted (a θ) ≤ n := by
  calc
    ∑ θ, posted (a θ) ≤ ∑ θ : Fin (n + n), (if decide (θ.val < n) = true then 0 else 1) :=
      Finset.sum_le_sum fun θ _ => h θ ▸ posted_le (a θ)
    _ = n := by rw [sum_first, Nat.mul_zero, Nat.mul_one, Nat.zero_add]

theorem served_le_one (h : Fair n a l) (θ : Fin (n + n)) :
    served (a θ) ≤ if decide (θ.val < n) = true then 1 else 0 :=
  h.roles θ ▸ served_le (a θ)

/-- As long as a consumer is to come, fewer than `n` have consumed; and when `n` have, none is
to come. -/
theorem served_eq_one_iff (h : Fair n a l) :
    ∑ θ, served (a θ) = n ↔ ∀ θ : Fin (n + n), θ.val < n → served (a θ) = 1 := by
  have hall := Finset.sum_eq_sum_iff_of_le (s := univ) fun θ _ => h.served_le_one θ
  rw [sum_first, Nat.mul_zero, Nat.mul_one, Nat.add_zero] at hall
  rw [hall]
  constructor
  · intro heq θ hθ
    rw [heq θ (mem_univ θ), if_pos (decide_eq_true hθ)]
  · intro hone θ _
    by_cases hθ : θ.val < n
    · rw [hone θ hθ, if_pos (decide_eq_true hθ)]
    · have hle := h.served_le_one θ
      rw [if_neg (by simpa using hθ)] at hle ⊢
      exact Nat.le_zero.mp hle

/-- **One thread gets another account, and the latch changes with it.** -/
theorem update (h : Fair n a l) {θ : Fin (n + n)} (hrole : y.1.consumes = (a θ).1.consumes)
    (hposts : l'.stats.posts.toNat + posted (a θ) = l.stats.posts.toNat + posted y)
    (hconsumed : l'.stats.consumed.toNat + served (a θ) = l.stats.consumed.toNat + served y)
    (hcoalesced : l'.stats.coalesced = 0)
    (hseen : ∀ η, sawUnset (Function.update a θ y η) = true → l'.signaled = false)
    (hfed : ∀ v r, y = (.consume, some (v, some r)) → r = .done) :
    Fair n (Function.update a θ y) l' where
  roles η := by
    by_cases hη : η = θ
    · rw [hη, Function.update_self, hrole, h.roles]
    · rw [Function.update_of_ne hη, h.roles]
  posts := by
    have hsum := sum_update_add a θ y posted
    have hold := h.posts
    omega
  consumed := by
    have hsum := sum_update_add a θ y served
    have hold := h.consumed
    omega
  coalesced := hcoalesced
  seen := hseen _
  fed := by
    intro η v r hη
    by_cases hne : η = θ
    · rw [hne, Function.update_self] at hη
      exact hfed v r hη
    · rw [Function.update_of_ne hne] at hη
      exact h.fed hη

/-- One thread gets another account that counts the same, and the latch stays as it is. -/
theorem update_alike (h : Fair n a l) {θ : Fin (n + n)} (hy : Alike y (a θ))
    (hfed : ∀ v r, y = (.consume, some (v, some r)) → r = .done) :
    Fair n (Function.update a θ y) l := by
  refine h.update hy.role (by rw [hy.posted]) (by rw [hy.served]) h.coalesced (fun η hη => ?_) hfed
  by_cases hne : η = θ
  · rw [hne, Function.update_self] at hη
    exact h.seen (hy.saw hη)
  · rw [Function.update_of_ne hne] at hη
    exact h.seen hη

/-- **A decision keeps the shares fair**: a wait consumes the signal of a producer, a look sees
the latch as it is, and a signal is that of the one producer behind the gate. -/
theorem decided (h : Fair n a l) (hn : n < 2 ^ 64) (hb : l.Balanced)
    (hgate : ∀ θ η, (a θ).1.behind 0 → (a η).1.behind 0 → θ = η) {θ : Fin (n + n)} {x : Duty}
    {v : Visit 1} {r : Reply} {now : Instant} (hθ : a θ = (x, some (v, none)))
    (hnext : program.next x = some (.call v.event v.call))
    (hd : v.call.Decides v.since now l r l') :
    Fair n (Function.update a θ (x, some (v, some r))) l' := by
  have hrole : ((x, some (v, some r)) : Duty × Option (Visit 1 × Option Reply)).1.consumes =
      (a θ).1.consumes := by rw [hθ]
  -- nobody else saw the latch unset while the thread is behind the gate
  have hothers : x.behind 0 → ∀ η, η ≠ θ → sawUnset (a η) = false := by
    intro hx η hη
    by_contra hsaw
    refine hη (hgate η θ (behind_of_sawUnset (by simpa using hsaw)) ?_)
    rw [hθ]
    exact hx
  obtain ⟨e, c, since⟩ := v
  cases x with
  | consume =>
    cases hnext
    obtain ⟨hsig, rfl, rfl⟩ := Call.taken_of_decides (by rfl) hd
    have hsucc := Counter.toNat_succ (hb.consumed_ne_last hsig)
    refine h.update hrole ?_ ?_ h.coalesced (fun _ _ => rfl) ?_
    · rw [hθ]
      rfl
    · rw [hθ]
      simpa [Latch.taken, served] using hsucc
    · rintro w s hw
      cases hw
      rfl
  | look =>
    cases hnext
    obtain ⟨rfl, rfl⟩ := Call.eq_of_decides_isSignaled hd
    refine h.update hrole (by rw [hθ]; rfl) (by rw [hθ]; rfl) h.coalesced ?_ (by simp)
    intro η hη
    by_cases hne : η = θ
    · rw [hne, Function.update_self] at hη
      cases hsig : l'.signaled with
      | false => rfl
      | true =>
        rw [hsig] at hη
        cases hη
    · rw [Function.update_of_ne hne] at hη
      exact h.seen hη
  | post =>
    cases hnext
    have hunset : l.signaled = false := h.seen (θ := θ) (by rw [hθ]; rfl)
    have hrest := hothers (by simp [Duty.behind])
    -- with its signal there are at most as many as there are producers
    have hp : l.stats.posts ≠ Counter.last := by
      have hsum := sum_update_add a θ (.finish, none) posted
      have hle : ∑ η, posted (Function.update a θ (.finish, none) η) ≤ n := by
        refine sum_posted_le fun η => ?_
        by_cases hne : η = θ
        · rw [hne, Function.update_self, ← h.roles θ, hθ]
          rfl
        · rw [Function.update_of_ne hne, h.roles]
      have hbefore : posted (a θ) = 0 := by rw [hθ]; rfl
      have hafter : posted (.finish, none) = 1 := rfl
      rw [hbefore, hafter, ← h.posts] at hsum
      rw [Counter.ne_last_iff]
      omega
    obtain ⟨rfl, rfl⟩ := Call.posted_of_decides hp hd
    have hsucc := Counter.toNat_succ hp
    refine h.update hrole ?_ ?_ ?_ (fun η hη => ?_) (by simp)
    · rw [hθ]
      simpa [Latch.posted, posted] using hsucc
    · rw [hθ]
      rfl
    · simpa [Latch.posted, hunset] using h.coalesced
    · by_cases hne : η = θ
      · rw [hne, Function.update_self] at hη
        cases hη
      · rw [Function.update_of_ne hne, hrest η hne] at hη
        cases hη
  | _ => cases hnext

/-- **Every step keeps the shares fair.** -/
theorem turn {μ ν : Machine Duty (n + n) 1 1} (h : Fair n μ.account (μ.latches 0))
    (ht : μ.Turn program ν) (hn : n < 2 ^ 64) (hb : (μ.latches 0).Balanced)
    (hasked : μ.Asked program) (hg : μ.Guarded Duty.behind) :
    Fair n ν.account (ν.latches 0) := by
  cases ht with
  | made hθ hnext ha hl =>
    rw [ha, hl]
    exact h.update_alike (hθ ▸ alike_of_made hnext) (by simp)
  | passed hθ hnext ha hl =>
    rw [ha, hl]
    exact h.update_alike (hθ ▸ alike_of_passed hnext) (by simp)
  | @decided θ x v r l hθ hd ha hl =>
    have hnext := hasked θ v none
    rw [hθ] at hnext
    have hevent : v.event = 0 := Subsingleton.elim _ _
    rw [hevent] at hd hl
    rw [ha, hl, Function.update_self]
    exact h.decided hn hb (fun θ η => hg.eq_of_behind) hθ (hnext rfl) hd
  | @returned θ x v r hθ ha hl =>
    have hnext := hasked θ v (some r)
    rw [hθ] at hnext
    rw [ha, hl]
    exact h.update_alike (hθ ▸ alike_of_returned (hnext rfl)) (by simp)
  | silent ha hl =>
    rw [ha, hl]
    exact h

theorem start : Fair n (machine n now).account ((machine n now).latches 0) := by
  have hinitial : (machine n now).Initial := initial_machine
  have hfresh : (machine n now).latches 0 = .fresh := hinitial.latch_room 0
  have haccount : ∀ θ : Fin (n + n), (machine n now).account θ =
      (if θ.val < n then .consume else .queue, none) := by
    intro θ
    rw [Machine.account_eq (hinitial.ready θ), thread_machine]
    rfl
  have hnothing : ∀ f : Duty × Option (Visit 1 × Option Reply) → Nat, f (.consume, none) = 0 →
      f (.queue, none) = 0 → ∑ θ, f ((machine n now).account θ) = 0 := by
    intro f hconsume hqueue
    refine sum_eq_zero fun θ _ => ?_
    rw [haccount]
    split
    · exact hconsume
    · exact hqueue
  rw [hfresh]
  constructor
  case roles =>
    intro θ
    rw [haccount]
    by_cases hθ : θ.val < n <;> simp [hθ, Duty.consumes]
  case posts => exact (hnothing posted rfl rfl).symm
  case consumed => exact (hnothing served rfl rfl).symm
  case coalesced => rfl
  case seen => exact fun _ => rfl
  case fed =>
    intro θ v r hθ
    rw [haccount] at hθ
    simp at hθ

/-- **In every run the shares are fair**, whoever is in a call asked for it, and the gate is
with the producer behind it. -/
theorem of_steps (hn : n < 2 ^ 64) {as : List (Action (n + n))} {ν : Machine Duty (n + n) 1 1}
    (h : (machine n now).steps program as = some ν) :
    Fair n ν.account (ν.latches 0) ∧ ν.Asked program ∧ ν.Guarded Duty.behind := by
  have hall := Machine.steps_induction
    (P := fun κ : Machine Duty (n + n) 1 1 => (∀ e, (κ.monitor e).latch.Balanced) ∧
      Fair n κ.account (κ.latches 0) ∧ κ.Asked program ∧ κ.Guarded Duty.behind) ?_
    ⟨initial_machine.balanced, start, initial_machine.asked, guarded_machine⟩ h
  · exact hall.2
  · rintro κ a κ' ⟨hb, hfair, hasked, hg⟩ ha
    have ht := Machine.step_turn hb ha
    exact ⟨fun e => (Machine.step_room (hb e) ha).balanced (hb e),
      hfair.turn ht hn (hb 0) hasked hg, hasked.turn ht, hg.step guards_program hasked ha⟩

end Fair

/-! ### Some consumer can go on -/

section Progress

variable {ν : Machine Duty (n + n) 1 1} {θ : Fin (n + n)}

/-- A consumer that has not consumed is about to wait, or in its wait. -/
theorem Fair.cases_of_served (h : Fair n ν.account (ν.latches 0)) (hθ : θ.val < n)
    (hserved : served (ν.account θ) = 0) :
    ν.account θ = (.consume, none) ∨ ∃ v, ν.account θ = (.consume, some (v, none)) := by
  have hstate := h.consumer hθ
  generalize ν.account θ = y at hstate hserved
  obtain ⟨x, o⟩ := y
  rcases hstate with rfl | rfl
  · rcases o with _ | ⟨v, _ | r⟩
    · exact Or.inl rfl
    · exact Or.inr ⟨v, rfl⟩
    · cases hserved
  · cases hserved

/-- Only consumers wait. -/
theorem Fair.lt_of_waits (h : Fair n ν.account (ν.latches 0)) (hasked : ν.Asked program)
    {v : Visit 1} {r : Option Reply} (hv : (ν.account θ).2 = some (v, r))
    (hwaits : v.call.waits = true) : θ.val < n := by
  have hnext := hasked θ v r hv
  have hrole := h.roles θ
  obtain ⟨e, c, since⟩ := v
  cases hx : (ν.account θ).1 with
  | consume =>
    rw [hx] at hrole
    exact of_decide_eq_true hrole.symm
  | look | post =>
    rw [hx] at hnext
    cases hnext
    cases hwaits
  | _ =>
    rw [hx] at hnext
    cases hnext

/-- **Where a signal is pending and no producer holds the lock, a consumer can make a step.** -/
theorem exists_advance (hn : n < 2 ^ 64) {as : List (Action (n + n))}
    (h : (machine n now).steps program as = some ν) (hset : (ν.monitor 0).latch.signaled = true)
    (hlock : ∀ η, (ν.monitor 0).holder = some η → η.val < n) :
    ∃ θ κ, θ.val < n ∧ ν.advance program θ = some κ := by
  have hinitial : (machine n now).Initial := initial_machine
  obtain ⟨hfair, hasked, -⟩ := Fair.of_steps hn h
  have hb := hinitial.balanced_of_steps h
  have ho := hinitial.orderly h 0
  by_contra hnone
  have hstuck : ∀ θ : Fin (n + n), θ.val < n → ν.advance program θ = none := by
    intro θ hθ
    rw [Option.eq_none_iff_forall_ne_some]
    exact fun κ hκ => hnone ⟨θ, κ, hθ, hκ⟩
  -- nobody holds the lock, for a consumer that does could go on
  have hfree : (ν.monitor 0).holder = none := by
    by_contra hheld
    obtain ⟨η, hη⟩ := Option.ne_none_iff_exists'.mp hheld
    obtain ⟨s, hs⟩ := ho.seated hη
    have hholds := (ho.fits hs).holds.mpr hη
    have hstatus := Status.eq_of_seat hs
    rcases Machine.cases_of_advance_eq_none hb (hstuck η (hlock η hη)) with
      ⟨hr, -⟩ | ⟨v, b, hr⟩ | ⟨v, ζ, -, hr | hr⟩ <;>
      rw [hstatus] at hr <;> cases hst : s.stage <;> simp_all [Stage.holds, Stage.status]
  -- some consumer has not consumed, and it can only be asleep
  obtain ⟨θ, hθ, hserved⟩ : ∃ θ : Fin (n + n), θ.val < n ∧ served (ν.account θ) = 0 := by
    by_contra hall
    have hone : ∀ θ : Fin (n + n), θ.val < n → served (ν.account θ) = 1 := by
      intro θ hθ
      have hle := hfair.served_le_one θ
      rw [if_pos (decide_eq_true hθ)] at hle
      have hne : served (ν.account θ) ≠ 0 := fun hzero => hall ⟨θ, hθ, hzero⟩
      omega
    have hconsumed := hfair.consumed.trans (hfair.served_eq_one_iff.mpr hone)
    have hposts := hfair.posts.trans_le (Fair.sum_posted_le hfair.roles)
    have hbalanced : (ν.latches 0).Balanced := hb 0
    have hsig : (ν.latches 0).signaled = true := hset
    rw [Latch.Balanced, hfair.coalesced, hsig] at hbalanced
    simp only [UInt64.toNat_zero, Bool.toNat_true] at hbalanced
    omega
  have hasleep : ν.sleepsOn 0 θ = true := by
    rcases Machine.cases_of_advance_eq_none hb (hstuck θ hθ) with
      ⟨hs, hcalls⟩ | ⟨v, b, hs⟩ | ⟨v, η, hη, -⟩
    · rcases hfair.cases_of_served hθ hserved with haccount | ⟨v, haccount⟩ <;>
        rw [Machine.account_eq hs] at haccount
      · obtain ⟨hstate, -⟩ := Prod.mk.inj haccount
        exact absurd (by rw [hstate]; rfl) (hcalls 0 .wait)
      · cases (Prod.mk.inj haccount).2
    · simp [Machine.sleepsOn, hs, Status.sleepsOn, Subsingleton.elim v.event 0]
    · rw [Subsingleton.elim v.event 0, hfree] at hη
      cases hη
  -- then some wait was woken, and it is free to go on
  obtain ⟨η, c, i, hη, hwaits⟩ := (hinitial.attended h 0).exists_woken ho hfree hset
    ⟨θ, Machine.sleeps_room_iff.mpr hasleep⟩
  have hstatus : ν.status η = .woken ⟨0, c, i⟩ := Status.eq_of_seat hη
  have hlt : η.val < n := by
    refine hfair.lt_of_waits hasked (v := ⟨0, c, i⟩) (r := none) ?_ hwaits
    rw [Machine.account_eq hstatus]
    rfl
  rcases Machine.cases_of_advance_eq_none hb (hstuck η hlt) with
    ⟨hr, -⟩ | ⟨w, d, hr⟩ | ⟨w, ζ, hζ, -⟩
  · cases hstatus.symm.trans hr
  · cases hstatus.symm.trans hr
  · rw [Subsingleton.elim w.event 0, hfree] at hζ
    cases hζ

/-- **A producer that holds the lock where a signal is pending soon gives it up**, and leaves
the signal pending. -/
theorem exists_steps_of_producer (hn : n < 2 ^ 64) {as : List (Action (n + n))}
    (h : (machine n now).steps program as = some ν) (hset : (ν.monitor 0).latch.signaled = true)
    (hθ : (ν.monitor 0).holder = some θ) (hproducer : n ≤ θ.val) :
    ∃ bs κ, bs.length ≤ 2 ∧ (∀ b ∈ bs, b.thread? = some θ) ∧ ν.steps program bs = some κ ∧
      (κ.monitor 0).holder = none ∧ (κ.monitor 0).latch.signaled = true := by
  have hinitial : (machine n now).Initial := initial_machine
  obtain ⟨hfair, hasked, -⟩ := Fair.of_steps hn h
  have hb := hinitial.balanced_of_steps h
  have ho := hinitial.orderly h 0
  obtain ⟨⟨c, i, stage⟩, hs⟩ := ho.seated hθ
  have hfits := ho.fits hs
  have hholds := hfits.holds.mpr hθ
  have hstatus : ν.status θ = stage.status ⟨0, c, i⟩ := Status.eq_of_seat hs
  have hnowait : c.waits ≠ true := by
    intro hwaits
    have haccount : (ν.account θ).2 = (stage.status ⟨0, c, i⟩).outline := by
      rw [Machine.account_eq hstatus]
    have hlt : θ.val < n := by
      cases stage <;> exact hfair.lt_of_waits hasked haccount hwaits
    omega
  cases stage with
  | inside =>
    -- it does not signal where it saw a signal pending, so it looks
    have hlook : c = .isSignaled := by
      have hnext := hasked θ ⟨0, c, i⟩ none (by rw [Machine.account_eq hstatus]; rfl)
      have haccount : ν.account θ = ((ν.account θ).1, some (⟨0, c, i⟩, none)) := by
        rw [Machine.account_eq hstatus]
        rfl
      generalize (ν.account θ).1 = x at hnext haccount
      cases x with
      | consume =>
        cases hnext
        exact absurd rfl hnowait
      | look =>
        cases hnext
        rfl
      | post =>
        have hunset : (ν.monitor 0).latch.signaled = false := hfair.seen (θ := θ) (by
          rw [haccount]
          rfl)
        rw [hset] at hunset
        cases hunset
      | _ => cases hnext
    obtain ⟨bs, κ, hlen, hthread, hκ, hfree, hlatch⟩ :=
      Machine.exists_steps_out (p := program) (Or.inr (Or.inr ⟨_, hstatus, rfl, hlook⟩))
    exact ⟨bs, κ, hlen, hthread, hκ, hfree, by rw [hlatch]; exact hset⟩
  | announcing =>
    obtain ⟨bs, κ, hlen, hthread, hκ, hfree, hlatch⟩ :=
      Machine.exists_steps_out (p := program) (Or.inr (Or.inl ⟨_, hstatus, rfl⟩))
    exact ⟨bs, κ, hlen, hthread, hκ, hfree, by rw [hlatch]; exact hset⟩
  | leaving r =>
    obtain ⟨bs, κ, hlen, hthread, hκ, hfree, hlatch⟩ :=
      Machine.exists_steps_out (p := program) (Or.inl ⟨_, r, hstatus, rfl⟩)
    exact ⟨bs, κ, hlen, hthread, hκ, hfree, by rw [hlatch]; exact hset⟩
  | drowsy b => exact absurd (hfits.waits rfl) hnowait
  | _ => cases hholds

end Progress

/-! ### What consumers are told -/

section Replies

variable {ν : Machine Duty (n + n) 1 1} {θ : Fin (n + n)}

/-- What a consumer has been told when it has got this far. -/
def told : Duty → List Reply
  | .fed => [.done]
  | _ => []

/-- **A step tells a consumer what its account tells.** -/
theorem told_step {μ : Machine Duty (n + n) 1 1} {a : Action (n + n)}
    (hfair : Fair n μ.account (μ.latches 0)) (hasked : μ.Asked program) (hθ : θ.val < n)
    (h : μ.step program a = some ν) :
    told (ν.thread θ).state =
      told (μ.thread θ).state ++ ((Machine.mark 0 μ ν a).replyTo θ).toList := by
  have hrole : (μ.thread θ).state.consumes = true := (hfair.roles θ).trans (decide_eq_true hθ)
  -- at the gate there are only producers, and nobody is told anything
  have hgate : ∀ (η : Fin (n + n)) (κ : Machine Duty (n + n) 1 1) (x : Duty),
      (μ.thread η).state.consumes = false → a = .start η → κ.thread = μ.thread →
      ν = κ.setReady η x → told (ν.thread θ).state =
        told (μ.thread θ).state ++ ((Machine.mark 0 μ ν a).replyTo θ).toList := by
    rintro η κ x hη rfl hκ rfl
    have hne : θ ≠ η := by
      rintro rfl
      rw [hrole] at hη
      cases hη
    rw [Machine.thread_setReady_of_ne _ _ hne, hκ, Machine.replyTo_mark (by simp),
      Option.toList_none, List.append_nil]
  rcases Machine.states_of_step h with ⟨η, k, ha, hnext, -, hν⟩ | ⟨η, k, ha, hnext, -, hν⟩ |
    ⟨η, v, r, rfl, hs, -, hself, hothers⟩ | ⟨hleave, -, hstate⟩
  · refine hgate η _ _ ?_ ha (by rfl) hν
    cases hx : (μ.thread η).state <;> rw [hx] at hnext <;> first | rfl | cases hnext
  · refine hgate η _ _ ?_ ha (by rfl) hν
    cases hx : (μ.thread η).state <;> rw [hx] at hnext <;> first | rfl | cases hnext
  · have hmark : Machine.mark 0 μ ν (.leave η) = .returned η v.call r := by
      have hseat := Machine.seat_room (e := 0) hs
      rw [Status.seat, Visit.seat, if_pos (Subsingleton.elim _ _)] at hseat
      simp only [Machine.mark, hseat]
    rw [hmark]
    by_cases hη : η = θ
    · subst hη
      have hnext := hasked η v (some r) (by rw [Machine.account_eq hs]; rfl)
      have haccount : μ.account η = ((μ.thread η).state, some (v, some r)) := Machine.account_eq hs
      have hstate : (μ.thread η).state = .consume := by
        refine (hfair.consumer hθ).resolve_right fun hfed => ?_
        rw [hfed] at hnext
        cases hnext
      rw [hstate] at haccount hself
      rw [hself, hstate, hfair.fed haccount]
      simp [Mark.replyTo, told, program]
    · rw [hothers θ (Ne.symm hη), Mark.replyTo, if_neg hη, Option.toList_none, List.append_nil]
  · rw [hstate, Machine.replyTo_mark hleave, Option.toList_none, List.append_nil]

/-- **In every run a consumer is told what its account tells**, and nothing else. -/
theorem told_of_steps (hn : n < 2 ^ 64) {as : List (Action (n + n))}
    (h : (machine n now).steps program as = some ν) (hθ : θ.val < n) :
    ((machine n now).history program 0 as).filterMap (Mark.replyTo θ) =
      told (ν.thread θ).state := by
  induction as using List.reverseRecOn generalizing ν with
  | nil =>
    cases h
    rw [thread_machine, if_pos hθ]
    rfl
  | append_singleton as a ih =>
    rw [Machine.steps_append] at h
    obtain ⟨κ, hκ, hlast⟩ := Option.bind_eq_some_iff.mp h
    obtain ⟨ν', ha, hν⟩ : ∃ ν', κ.step program a = some ν' ∧ ν' = ν := by
      simp only [Machine.steps] at hlast
      cases ha : κ.step program a with
      | none => simp [ha] at hlast
      | some ν' => exact ⟨ν', rfl, by simpa [ha] using hlast⟩
    subst hν
    obtain ⟨hfair, hasked, -⟩ := Fair.of_steps hn hκ
    rw [Machine.history_append hκ, List.filterMap_append, ih hκ, told_step hfair hasked hθ ha]
    simp only [Machine.history, ha]
    cases hreply : (Machine.mark 0 κ ν' a).replyTo θ <;> simp [hreply]

end Replies

/-! ### Where all producers have stopped -/

section Through

variable {ν : Machine Duty (n + n) 1 1} {θ : Fin (n + n)}

/-- A producer that is through has signalled. -/
theorem Fair.posted_of_through (h : Fair n ν.account (ν.latches 0)) (hθ : n ≤ θ.val)
    (hthrough : ν.Through program θ) : posted (ν.account θ) = 1 := by
  have hrole := h.roles θ
  rw [decide_eq_false (by omega), Machine.account_eq hthrough.1] at hrole
  rw [Machine.account_eq hthrough.1]
  have hnext := hthrough.2
  generalize (ν.thread θ).state = x at hrole hnext
  cases x with
  | through => rfl
  | fed => cases hrole
  | _ => cases hnext

/-- A consumer is through when it is fed. -/
theorem Fair.fed_of_through (h : Fair n ν.account (ν.latches 0)) (hθ : θ.val < n)
    (hthrough : ν.Through program θ) : (ν.thread θ).state = .fed := by
  refine (h.consumer hθ).resolve_left fun hconsume => ?_
  have hnext := hthrough.2
  rw [show (ν.thread θ).state = .consume from hconsume] at hnext
  cases hnext

/-- Where all producers are through, all of them have signalled. -/
theorem Fair.posts_of_through (h : Fair n ν.account (ν.latches 0))
    (hthrough : ∀ η : Fin (n + n), n ≤ η.val → ν.Through program η) :
    (ν.latches 0).stats.posts.toNat = n := by
  have hall : ∀ η ∈ univ, posted (ν.account η) = if decide (η.val < n) = true then 0 else 1 := by
    intro η _
    by_cases hη : η.val < n
    · have hle := posted_le (ν.account η)
      rw [h.roles η, if_pos (decide_eq_true hη)] at hle
      rw [if_pos (decide_eq_true hη)]
      exact Nat.le_zero.mp hle
    · rw [if_neg (by simpa using hη)]
      exact h.posted_of_through (Nat.le_of_not_lt hη) (hthrough η (Nat.le_of_not_lt hη))
  rw [h.posts, sum_congr rfl hall, sum_first, Nat.mul_zero, Nat.mul_one, Nat.zero_add]

/-- **Where all producers are through and a consumer is not, a consumer can make a step.** -/
theorem exists_advance_of_through (hn : n < 2 ^ 64) {as : List (Action (n + n))}
    (h : (machine n now).steps program as = some ν)
    (hproducers : ∀ η : Fin (n + n), n ≤ η.val → ν.Through program η) (hθ : θ.val < n)
    (hnot : ¬ ν.Through program θ) : ∃ θ κ, θ.val < n ∧ ν.advance program θ = some κ := by
  have hinitial : (machine n now).Initial := initial_machine
  obtain ⟨hfair, hasked, -⟩ := Fair.of_steps hn h
  have hb := hinitial.balanced_of_steps h
  by_cases hset : (ν.monitor 0).latch.signaled = true
  · -- a producer that is through does not hold the lock
    refine exists_advance hn h hset fun η hη => ?_
    by_contra hge
    obtain ⟨s, hs⟩ := (hinitial.orderly h 0).seated hη
    have hready := (hproducers η (Nat.le_of_not_lt hge)).1
    have hseat := Machine.seat_room (e := 0) hready
    cases hs.symm.trans hseat
  · -- all signals were consumed, and the consumer has only to return
    have hserved : served (ν.account θ) = 1 := by
      refine hfair.served_eq_one_iff.mp ?_ θ hθ
      have hbalanced : (ν.latches 0).Balanced := hb 0
      have hunset : (ν.latches 0).signaled = false := (Bool.not_eq_true _).mp hset
      rw [Latch.Balanced, hfair.coalesced, hunset, hfair.posts_of_through hproducers,
        hfair.consumed] at hbalanced
      simp only [UInt64.toNat_zero, Bool.toNat_false] at hbalanced
      omega
    by_contra hnone
    have hstuck : ν.advance program θ = none := by
      rw [Option.eq_none_iff_forall_ne_some]
      exact fun κ hκ => hnone ⟨θ, κ, hθ, hκ⟩
    -- who is still in its wait has not consumed
    have hinWait : ∀ v, (ν.account θ).2 ≠ some (v, none) := by
      intro v hv
      have hnext := hasked θ v none hv
      have haccount : ν.account θ = ((ν.account θ).1, some (v, none)) := Prod.ext rfl hv
      rcases hfair.consumer hθ with hstate | hstate <;> rw [hstate] at hnext haccount
      · rw [haccount] at hserved
        cases hserved
      · cases hnext
    rcases Machine.cases_of_advance_eq_none hb hstuck with ⟨hs, hcalls⟩ | ⟨v, b, hs⟩ |
      ⟨v, η, -, hs | hs⟩
    · refine hnot ⟨hs, ?_⟩
      rcases hfair.consumer hθ with hstate | hstate
      · exact absurd (congrArg program.next hstate) (hcalls 0 .wait)
      · exact congrArg program.next hstate
    all_goals exact hinWait v (by rw [Machine.account_eq hs]; rfl)

end Through

end Gated

namespace Machine

open Gated

/-- **Signals that are handed out behind a gate reach all consumers.** There are `n` consumers
that wait once, and `n` producers that signal once, each behind the gate and only after it
found no signal pending. At any time, whatever the schedule,

* no signal was absorbed;
* where a signal is pending, some consumer can make a step of its own accord, not only by
  waking for no reason; if a producer holds the lock, it can after at most two steps of that
  producer, which leave the signal pending;
* where all producers are through and some consumer is not, a consumer can make a step of its
  own accord;
* when all threads are through, `n` signals were received and `n` consumed, none is pending,
  and each consumer has returned exactly once, from its wait. -/
theorem gated_handover {n : Nat} (hn : n < 2 ^ 64) (now : Instant) {as : List (Action (n + n))}
    {ν : Machine Duty (n + n) 1 1} (h : (machine n now).steps program as = some ν) :
    (ν.monitor 0).latch.stats.coalesced = 0 ∧
    ((ν.monitor 0).latch.signaled = true →
      ((∀ η, (ν.monitor 0).holder = some η → η.val < n) →
        ∃ θ κ, θ.val < n ∧ ν.advance program θ = some κ) ∧
      ∀ η, (ν.monitor 0).holder = some η → n ≤ η.val →
        ∃ bs κ, bs.length ≤ 2 ∧ (∀ b ∈ bs, b.thread? = some η) ∧ ν.steps program bs = some κ ∧
          (κ.monitor 0).latch.signaled = true ∧
          ∃ θ κ', θ.val < n ∧ κ.advance program θ = some κ') ∧
    ((∀ η, n ≤ η.val → ν.Through program η) → (∃ θ, θ.val < n ∧ ¬ ν.Through program θ) →
      ∃ θ κ, θ.val < n ∧ ν.advance program θ = some κ) ∧
    ((∀ θ, ν.Through program θ) →
      (ν.monitor 0).latch.stats.posts.toNat = n ∧ (ν.monitor 0).latch.stats.consumed.toNat = n ∧
        (ν.monitor 0).latch.signaled = false ∧
        ∀ θ, θ.val < n →
          ((machine n now).history program 0 as).filterMap (Mark.replyTo θ) = [.done]) := by
  obtain ⟨hfair, -, -⟩ := Fair.of_steps hn h
  refine ⟨hfair.coalesced, fun hset => ⟨exists_advance hn h hset, ?_⟩, ?_, fun hall => ?_⟩
  · intro η hη hproducer
    obtain ⟨bs, κ, hlen, hthread, hκ, hfree, hset'⟩ :=
      exists_steps_of_producer hn h hset hη hproducer
    have hrun : (machine n now).steps program (as ++ bs) = some κ :=
      (steps_append_of_steps h).trans hκ
    refine ⟨bs, κ, hlen, hthread, hκ, hset', exists_advance hn hrun hset' fun ζ hζ => ?_⟩
    cases hfree.symm.trans hζ
  · rintro hproducers ⟨θ, hθ, hnot⟩
    exact exists_advance_of_through hn h hproducers hθ hnot
  · have hposts : (ν.monitor 0).latch.stats.posts.toNat = n :=
      hfair.posts_of_through fun η _ => hall η
    have hfed : ∀ θ : Fin (n + n), θ.val < n → (ν.thread θ).state = .fed := fun θ hθ =>
      hfair.fed_of_through hθ (hall θ)
    have hconsumed : (ν.monitor 0).latch.stats.consumed.toNat = n := by
      refine hfair.consumed.trans (hfair.served_eq_one_iff.mpr fun θ hθ => ?_)
      rw [account_eq (hall θ).1, hfed θ hθ]
      rfl
    have hbalanced := initial_machine.balanced_of_steps h 0
    have hcoalesced : (ν.monitor 0).latch.stats.coalesced = 0 := hfair.coalesced
    refine ⟨hposts, hconsumed, ?_, fun θ hθ => ?_⟩
    · rw [Latch.Balanced, hcoalesced, hposts, hconsumed] at hbalanced
      cases hsig : (ν.monitor 0).latch.signaled with
      | false => rfl
      | true =>
        rw [hsig] at hbalanced
        simp only [UInt64.toNat_zero, Bool.toNat_true] at hbalanced
        omega
    · rw [told_of_steps hn h hθ, hfed θ hθ]
      rfl

/-- A consumer sleeps, and is woken by the first producer. The second producer finds the signal
pending and tries again after the sleeper has consumed it; then the other consumer comes. -/
def handoverRun : List (Action (2 + 2)) :=
  [.start 0, .acquire 0, .work 0 false, .sleep 0,
    .start 2, .start 2, .acquire 2, .work 2 false, .leave 2,
    .start 2, .acquire 2, .work 2 false, .notify 2 (some 0), .leave 2, .start 2,
    .start 3, .start 3, .acquire 3, .work 3 false, .leave 3, .start 3,
    .acquire 0, .work 0 false, .leave 0,
    .start 3, .start 3, .acquire 3, .work 3 false, .leave 3,
    .start 3, .acquire 3, .work 3 false, .notify 3 none, .leave 3, .start 3,
    .start 1, .acquire 1, .work 1 false, .leave 1]

/-- Right after the first signal, which its producer has still to announce, that producer makes
way for a consumer; in the end both signals have reached their consumers. -/
theorem gated_handover_retreat :
    ∃ κ ν, (machine 2 .zero).steps program (handoverRun.take 12) = some κ ∧
      (κ.monitor 0).latch.signaled = true ∧
      (∃ bs κ', bs.length ≤ 2 ∧ κ.steps program bs = some κ' ∧
        ∃ θ ι, θ.val < 2 ∧ κ'.advance program θ = some ι) ∧
      (machine 2 .zero).steps program handoverRun = some ν ∧
      (ν.monitor 0).latch.stats.posts.toNat = 2 ∧ (ν.monitor 0).latch.stats.coalesced = 0 ∧
      (ν.monitor 0).latch.stats.consumed.toNat = 2 ∧
      ((machine 2 .zero).history program 0 handoverRun).filterMap (Mark.replyTo 0) = [.done] := by
  obtain ⟨κ, hκ⟩ : ∃ κ, (machine 2 .zero).steps program (handoverRun.take 12) = some κ :=
    Option.isSome_iff_exists.mp (by decide +kernel)
  obtain ⟨ν, hν⟩ : ∃ ν, (machine 2 .zero).steps program handoverRun = some ν :=
    Option.isSome_iff_exists.mp (by decide +kernel)
  have hpending := of_steps (f := fun κ => (κ.monitor 0).latch.signaled &&
    decide ((κ.monitor 0).holder = some 2)) (by decide +kernel) hκ
  have hthrough := of_steps (f := fun ν => decide (∀ θ, ν.Through program θ)) (by decide +kernel) hν
  simp only [Bool.and_eq_true, decide_eq_true_eq] at hpending hthrough
  obtain ⟨hset, hholder⟩ := hpending
  obtain ⟨-, hgoes, -, -⟩ := gated_handover (by decide) .zero hκ
  obtain ⟨bs, κ', hlen, -, hκ', -, hconsumer⟩ := (hgoes hset).2 2 hholder (by decide)
  obtain ⟨hcoalesced, -, -, hend⟩ := gated_handover (by decide) .zero hν
  obtain ⟨hposts, hconsumed, -, hreplies⟩ := hend hthrough
  exact ⟨κ, ν, hκ, hset, ⟨bs, κ', hlen, hκ', hconsumer⟩, hν, hposts, hcoalesced, hconsumed,
    hreplies 0 (by decide)⟩

/-- The one consumer. -/
def soleConsumer : Fin (1 + 1) := ⟨0, by decide⟩

/-- The one producer. -/
def soleProducer : Fin (1 + 1) := ⟨1, by decide⟩

/-- The consumer sleeps, and the producer has posted its signal. -/
def insideRun : List (Action (1 + 1)) :=
  [.start soleConsumer, .acquire soleConsumer, .work soleConsumer false, .sleep soleConsumer,
    .start soleProducer, .start soleProducer, .acquire soleProducer, .work soleProducer false,
    .leave soleProducer, .start soleProducer, .acquire soleProducer, .work soleProducer false]

/-- **Inside the lock of a producer no consumer has a step.** The flag is set, but the signal has
still to be announced, and all that the one consumer can do is to wake for no reason. -/
theorem gated_handover_inside :
    ∃ ν, (machine 1 .zero).steps program insideRun = some ν ∧
      (ν.monitor 0).latch.signaled = true ∧ (ν.monitor 0).holder = some soleProducer ∧
      ∀ a κ θ, θ.val < 1 → a.thread? = some θ → ν.step program a = some κ →
        a = .wake soleConsumer := by
  obtain ⟨ν, hν⟩ : ∃ ν, (machine 1 .zero).steps program insideRun = some ν :=
    Option.isSome_iff_exists.mp (by decide +kernel)
  have hpending := of_steps (f := fun ν => (ν.monitor 0).latch.signaled &&
    decide ((ν.monitor 0).holder = some soleProducer) &&
    decide (ν.status soleConsumer = .asleep ⟨0, .wait, .zero⟩ none)) (by decide +kernel) hν
  simp only [Bool.and_eq_true, decide_eq_true_eq] at hpending
  obtain ⟨⟨hset, hholder⟩, hasleep⟩ := hpending
  refine ⟨ν, hν, hset, hholder, fun a κ θ hθ ha hκ => ?_⟩
  obtain rfl : θ = soleConsumer := Fin.ext (Nat.lt_one_iff.mp hθ)
  cases a with
  | wake η =>
    cases ha
    rfl
  | tick later => cases ha
  | start η | acquire η | work η _ | notify η _ | leave η | sleep η | expire η =>
    -- none of these is for a sleeper
    cases ha
    simp only [step, start, acquire, work, notify, leave, sleep, expire, hasleep] at hκ
    cases hκ

end Machine

end AutoReset.Threads
