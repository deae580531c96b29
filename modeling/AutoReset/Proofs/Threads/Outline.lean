import AutoReset.Proofs.Threads.Room
/-!
# What a step settles

Most steps of a room take a call from one stage to the next, and settle nothing. What
matters of a seat beside its stage is its **outline** (`AutoReset.Threads.Seat.outline`):
what was called, when, and the answer that was settled, if there is one. The steps of a
room are then of four kinds (`AutoReset.Threads.Room.Turn`): a call is made, it is
decided, it returns, or the latch and all outlines stay as they are.

What is counted, written down or handed over along a run is a matter of outlines, and is
proved by cases on the four kinds. Only what depends on the stages themselves, the lock
and the wakeups, goes back to the steps.
-/

namespace AutoReset.Threads

/-- The answer of a call that has one. -/
def Stage.answer? : Stage → Option Reply
  | announcing => some .done
  | leaving r => some r
  | _ => none

/-- What was called, when, and the answer if it is settled. -/
def Seat.outline (s : Seat) : Call × Instant × Option Reply := (s.call, s.since, s.stage.answer?)

/-- Is nothing made, decided or returned here? -/
def Mark.isSilent {t : Nat} : Mark t → Bool
  | moved _ | woke _ | nothing => true
  | _ => false

namespace Room

variable {t : Nat} {R S : Room t} {x : Mark t}

/-- **What a step settles.** -/
inductive Turn (R S : Room t) : Mark t → Prop
  /-- A call is made. -/
  | made (θ : Fin t) (c : Call) (free : R.seat θ = none) (hl : S.latch = R.latch)
    (hS : S.seat = Function.update R.seat θ (some ⟨c, R.now, .entering⟩)) : Turn R S (.made θ c)
  /-- A call is decided. -/
  | decided {θ : Fin t} {c : Call} {i : Instant} {r : Reply} {stage : Stage}
    (hs : R.seat θ = some ⟨c, i, .inside⟩) (hr : stage.answer? = some r)
    (hd : c.Decides i R.now R.latch r S.latch)
    (hS : S.seat = Function.update R.seat θ (some ⟨c, i, stage⟩)) : Turn R S (.decided θ c r)
  /-- A call returns. -/
  | returned {θ : Fin t} {c : Call} {i : Instant} {r : Reply}
    (hs : R.seat θ = some ⟨c, i, .leaving r⟩) (hl : S.latch = R.latch)
    (hS : S.seat = Function.update R.seat θ none) : Turn R S (.returned θ c r)
  /-- Nothing is settled. -/
  | silent {x : Mark t} (hx : x.isSilent = true) (hl : S.latch = R.latch)
    (hs : ∀ θ, (S.seat θ).map Seat.outline = (R.seat θ).map Seat.outline) : Turn R S x

/-- One thread takes a seat of the same outline. -/
theorem outline_update {θ : Fin t} {s u : Seat} (hs : R.seat θ = some s)
    (hS : S.seat = Function.update R.seat θ (some u)) (hu : u.outline = s.outline) (η : Fin t) :
    (S.seat η).map Seat.outline = (R.seat η).map Seat.outline := by
  rw [hS]
  by_cases hη : η = θ
  · subst hη
    rw [Function.update_self, hs, Option.map_some, Option.map_some, hu]
  · rw [Function.update_of_ne hη]

/-- **Every step is of one of the four kinds.** -/
theorem Step.turn (h : R.Step x S) : R.Turn S x := by
  cases h with
  | made θ c free => exact .made θ c free rfl rfl
  | entered hs hstage _ =>
    refine .silent rfl rfl (outline_update hs rfl ?_)
    rcases hstage with rfl | rfl <;> rfl
  | posted hs hp => exact .decided hs rfl (.posted hp) rfl
  | answered hs ha => exact .decided hs rfl (.answered ha) rfl
  | dozed hs _ _ => exact .silent rfl rfl (outline_update hs rfl rfl)
  | @told θ η c d i j b hs hη =>
    have hne : θ ≠ η := by
      rintro rfl
      cases hs.symm.trans hη
    refine .silent rfl rfl fun ζ => ?_
    -- first the sleeper is woken, and then the signal leaves
    have hwoken := outline_update (S := R.put η (some ⟨d, j, .woken⟩)) hη rfl rfl ζ
    have hs' := (seat_put_of_ne (R := R) (some ⟨d, j, .woken⟩) hne).trans hs
    exact (outline_update (u := ⟨c, i, .leaving .done⟩) hs' rfl rfl ζ).trans hwoken
  | toldNobody hs _ => exact .silent rfl rfl (outline_update hs rfl rfl)
  | returned hs => exact .returned hs rfl rfl
  | slept hs => exact .silent rfl rfl (outline_update hs rfl rfl)
  | woke hs => exact .silent rfl rfl (outline_update hs rfl rfl)
  | passed _ => exact .silent rfl rfl fun _ => rfl

end Room

end AutoReset.Threads
