import AutoReset.Threads.Machine
import Mathlib.Tactic.Common
/-!
# What each step needs, and what it does

A step of the machine is given by a match on where its thread stands. Here each action is
inverted once: if it can be made, then its thread stands at a certain place, and the machine
after it is a certain change of the machine before it. What is proved of all steps goes by
cases on the action and takes the change from here.

The stay inside the lock has no place here. What it does depends on the latch, and is said
where stays are studied (`AutoReset.Threads.Machine.work_eq`).
-/

namespace AutoReset.Threads

/-- The thread that makes the step; time passes by itself. -/
def Action.thread? {t : Nat} : Action t → Option (Fin t)
  | start θ | acquire θ | work θ _ | notify θ _ | leave θ | sleep θ | wake θ | expire θ => some θ
  | tick _ => none

namespace Machine

variable {σ : Type} {t m g : Nat} {p : Program σ m g} {μ ν : Machine σ t m g} {θ : Fin t}

theorem exists_of_start (h : μ.start p θ = some ν) :
    μ.status θ = .ready ∧
      ((∃ e c, p.next (μ.thread θ).state = some (.call e c) ∧
          ν = μ.setStatus θ (.entering ⟨e, c, μ.now⟩)) ∨
        (∃ k, p.next (μ.thread θ).state = some (.lockGate k) ∧ μ.gate k = none ∧
          ν = (μ.setGate k (some θ)).setReady θ (p.resume (μ.thread θ).state .done)) ∨
        ∃ k, p.next (μ.thread θ).state = some (.unlockGate k) ∧ μ.gate k = some θ ∧
          ν = (μ.setGate k none).setReady θ (p.resume (μ.thread θ).state .done)) := by
  unfold start at h
  split at h
  · next e c hs hp =>
    cases h
    exact ⟨hs, Or.inl ⟨e, c, hp, rfl⟩⟩
  · next k hs hp =>
    split at h
    · next hk =>
      cases h
      exact ⟨hs, Or.inr (Or.inl ⟨k, hp, hk, rfl⟩)⟩
    · cases h
  · next k hs hp =>
    split at h
    · next hk =>
      cases h
      exact ⟨hs, Or.inr (Or.inr ⟨k, hp, hk, rfl⟩)⟩
    · cases h
  · cases h

theorem exists_of_acquire (h : μ.acquire θ = some ν) :
    ∃ v, (μ.status θ = .entering v ∨ μ.status θ = .woken v) ∧
      (μ.monitor v.event).holder = none ∧
      ν = (μ.setMonitor v.event { μ.monitor v.event with holder := some θ }).setStatus θ
        (.inside v) := by
  unfold acquire at h
  split at h
  · next v hs =>
    split at h
    · next hfree =>
      cases h
      exact ⟨v, Or.inl hs, hfree, rfl⟩
    · cases h
  · next v hs =>
    split at h
    · next hfree =>
      cases h
      exact ⟨v, Or.inr hs, hfree, rfl⟩
    · cases h
  · cases h

theorem exists_inside_of_work {sinkFails : Bool} (h : μ.work θ sinkFails = some ν) :
    ∃ v, μ.status θ = .inside v := by
  unfold work at h
  split at h
  · next v hs => exact ⟨v, hs⟩
  · cases h

theorem exists_of_notify {sleeper : Option (Fin t)} (h : μ.notify θ sleeper = some ν) :
    ∃ v, μ.status θ = .announcing v ∧
      ((sleeper = none ∧ μ.noSleeper v.event = true ∧ ν = μ.setStatus θ (.leaving v .done)) ∨
        ∃ η w b, sleeper = some η ∧ μ.status η = .asleep w b ∧ w.event = v.event ∧
          ν = (μ.setStatus η (.woken w)).setStatus θ (.leaving v .done)) := by
  unfold notify at h
  split at h
  · next v hs =>
    split at h
    · next hn =>
      cases h
      exact ⟨v, hs, Or.inl ⟨rfl, hn, rfl⟩⟩
    · cases h
  · next v η hs =>
    split at h
    · next w b hη =>
      split at h
      · next hw =>
        cases h
        exact ⟨v, hs, Or.inr ⟨η, w, b, rfl, hη, hw, rfl⟩⟩
      · cases h
    · cases h
  · cases h

theorem exists_of_leave (h : μ.leave p θ = some ν) :
    ∃ v r, μ.status θ = .leaving v r ∧
      ν = (μ.setMonitor v.event
        { μ.monitor v.event with
          holder := none
          poisoned := (μ.monitor v.event).poisoned || Reply.isFault r }).setReady θ
        (p.resume (μ.thread θ).state r) := by
  unfold leave at h
  split at h
  · next v r hs =>
    cases h
    exact ⟨v, r, hs, rfl⟩
  · cases h

theorem exists_of_sleep (h : μ.sleep θ = some ν) :
    ∃ v b, μ.status θ = .drowsy v b ∧
      ν = (μ.setMonitor v.event { μ.monitor v.event with holder := none }).setStatus θ
        (.asleep v b) := by
  unfold sleep at h
  split at h
  · next v b hs =>
    cases h
    exact ⟨v, b, hs, rfl⟩
  · cases h

theorem exists_of_wake (h : μ.wake θ = some ν) :
    ∃ v b, μ.status θ = .asleep v b ∧ ν = μ.setStatus θ (.woken v) := by
  unfold wake at h
  split at h
  · next v b hs =>
    cases h
    exact ⟨v, b, hs, rfl⟩
  · cases h

theorem exists_of_expire (h : μ.expire θ = some ν) :
    ∃ v d, μ.status θ = .asleep v (some d) ∧ ν = μ.setStatus θ (.woken v) := by
  unfold expire at h
  split at h
  · next v d hs =>
    cases h
    exact ⟨v, d, hs, rfl⟩
  · cases h

theorem exists_of_tick {later : Instant} (h : μ.tick later = some ν) :
    μ.now ≤ later ∧ ν = { μ with now := later } := by
  unfold tick at h
  split at h
  · next hle =>
    cases h
    exact ⟨hle, rfl⟩
  · cases h

/-- **What holds at the beginning and is kept by every step holds wherever a run leads.** -/
theorem steps_induction {P : Machine σ t m g → Prop} {as : List (Action t)}
    (hstep : ∀ κ a κ', P κ → κ.step p a = some κ' → P κ') (hμ : P μ)
    (h : μ.steps p as = some ν) : P ν := by
  induction as generalizing μ with
  | nil =>
    cases h
    exact hμ
  | cons a as ih =>
    simp only [steps] at h
    cases ha : μ.step p a with
    | none => simp [ha] at h
    | some κ =>
      simp only [ha] at h
      exact ih (hstep μ a κ hμ ha) h

end Machine

end AutoReset.Threads
