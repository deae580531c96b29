import AutoReset.Fault
/-!
# What an attempt ends with

An attempt ends with a value or in a fault, and in either case there is a state in which it
ends (`AutoReset.Attempt.outcome`, `AutoReset.Attempt.after`). The two together are all that
there is to an attempt, and what is proved of both needs no look at how the attempt ended.
In particular something of the state may stay as it is whatever happens
(`AutoReset.Attempt.Leaves`): a fault leaves the changes made before it, so this goes through
one part of an attempt after the other.
-/

namespace AutoReset

namespace Attempt

variable {σ τ α β : Type} {f : σ → τ}

/-- What an attempt ends with, a value or a fault. -/
def outcome (x : Attempt σ α) (s : σ) : Except Fault α :=
  match x s with
  | .ok a _ => .ok a
  | .error f _ => .error f

/-- The state in which an attempt ends, be it in a fault. -/
def after (x : Attempt σ α) (s : σ) : σ :=
  match x s with
  | .ok _ s | .error _ s => s

theorem after_bind (x : Attempt σ α) (g : α → Attempt σ β) (s : σ) :
    (x >>= g).after s =
      match x s with
      | .ok a s => (g a).after s
      | .error _ s => s := by
  simp only [after, bind_apply]
  cases x s <;> rfl

theorem after_map (g : α → β) (x : Attempt σ α) (s : σ) : (g <$> x).after s = x.after s := by
  simp only [after, map_apply]
  cases x s <;> rfl

theorem of_outcome_map {g : α → β} {x : Attempt σ α} {s : σ} {b : β}
    (h : (g <$> x).outcome s = .ok b) : ∃ a, x s = .ok a (x.after s) ∧ g a = b := by
  simp only [outcome, map_apply] at h
  simp only [after]
  cases hx : x s with
  | ok a s' =>
    rw [hx] at h
    cases h
    exact ⟨a, rfl, rfl⟩
  | error f s' =>
    rw [hx] at h
    cases h

/-- Two computations that return went through a state between them. -/
theorem exists_of_bind {x : Attempt σ α} {g : α → Attempt σ β} {s s' : σ} {b : β}
    (h : (x >>= g) s = .ok b s') : ∃ a s₁, x s = .ok a s₁ ∧ g a s₁ = .ok b s' := by
  rw [bind_apply] at h
  cases hx : x s with
  | ok a s₁ => exact ⟨a, s₁, rfl, by rwa [hx] at h⟩
  | error e s₁ =>
    rw [hx] at h
    cases h

/-- Does what `f` reads of the state stay as it is, be it that the attempt ends in a
fault? -/
def Leaves (f : σ → τ) (x : Attempt σ α) : Prop := ∀ s, f (x.after s) = f s

theorem Leaves.pure (a : α) : Leaves f (pure a : Attempt σ α) := fun _ => rfl

theorem Leaves.get : Leaves f (get : Attempt σ σ) := fun _ => rfl

theorem Leaves.bind {x : Attempt σ α} {g : α → Attempt σ β} (hx : Leaves f x)
    (hg : ∀ a, Leaves f (g a)) : Leaves f (x >>= g) := by
  intro s
  rw [after_bind, ← hx s, after]
  cases x s with
  | ok a s => exact hg a s
  | error e s => rfl

end Attempt

end AutoReset
