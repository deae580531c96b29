import AutoReset.Proofs.Threads.Exclusion
import AutoReset.Proofs.Threads.Outline
import Mathlib.Algebra.BigOperators.Fin
/-!
# Counting calls by what became of them

A call is decided, and some steps later it returns with the answer that was settled.
In between its thread owes the answer. So in a room that started empty the calls that
were decided are those that returned and those that are owed
(`AutoReset.Threads.Room.Trace.decided_eq`), for every kind of call and every answer.

The counters of the latch count decisions: the posts are the signals that were decided,
the consumed ones the waits that were decided to be done, and so on
(`AutoReset.Threads.Room.Trace.counters`). They move in the very stay that decides.
-/

namespace AutoReset.Threads

open Finset

namespace Mark

variable {t : Nat}

/-- Is a call of this kind decided here, with this answer? -/
def decides (f : Call → Bool) (r : Reply) : Mark t → Bool
  | decided _ c r' => f c && r' = r
  | _ => false

/-- Does a call of this kind return here, with this answer? -/
def returns (f : Call → Bool) (r : Reply) : Mark t → Bool
  | returned _ c r' => f c && r' = r
  | _ => false

end Mark

/-- One if a call of this kind is owed this answer in the seat, and else nothing. -/
def Seat.due (f : Call → Bool) (r : Reply) : Option Seat → Nat
  | some s => if f s.call && s.stage.answer? = some r then 1 else 0
  | none => 0

/-- What is owed in a seat is told by its outline. -/
theorem Seat.due_congr {f : Call → Bool} {r : Reply} {x y : Option Seat}
    (h : x.map Seat.outline = y.map Seat.outline) : Seat.due f r x = Seat.due f r y := by
  rcases x with _ | ⟨c, i, a⟩ <;> rcases y with _ | ⟨d, j, b⟩
  · rfl
  · cases h
  · cases h
  · simp only [Option.map_some, Seat.outline, Option.some.injEq, Prod.mk.injEq] at h
    simp only [Seat.due, h]

/-! ### Sums over a family -/

/-- **One member of a family is exchanged in a sum.** -/
theorem sum_update_add {ι α : Type} [Fintype ι] [DecidableEq ι] (a : ι → α) (i : ι) (y : α)
    (f : α → Nat) : ∑ j, f (Function.update a i y j) + f (a i) = ∑ j, f (a j) + f y := by
  have hrest : ∑ j ∈ univ.erase i, f (Function.update a i y j) = ∑ j ∈ univ.erase i, f (a j) := by
    refine sum_congr rfl fun j hj => ?_
    rw [Function.update_of_ne (ne_of_mem_erase hj)]
  have hnew := sum_erase_add univ (fun j => f (Function.update a i y j)) (mem_univ i)
  have hold := sum_erase_add univ (fun j => f (a j)) (mem_univ i)
  simp only [Function.update_self] at hnew
  omega

namespace Room

variable {t : Nat} {R S : Room t} {x : Mark t}

/-- What the seats come to together. -/
def total (R : Room t) (f : Option Seat → Nat) : Nat := ∑ θ, f (R.seat θ)

/-- **One seat is exchanged in a sum.** -/
theorem total_of_seat {θ : Fin t} {s u : Option Seat} (hs : R.seat θ = s)
    (hS : S.seat = Function.update R.seat θ u) (f : Option Seat → Nat) :
    S.total f + f s = R.total f + f u := by
  unfold total
  rw [hS, ← hs]
  exact sum_update_add R.seat θ u f

/-- A step that exchanges one seat balances if it balances there. -/
theorem total_add_eq {θ : Fin t} {s u : Option Seat} {f : Option Seat → Nat} {a b : Nat}
    (hs : R.seat θ = s) (hS : S.seat = Function.update R.seat θ u) (h : f u + a = f s + b) :
    S.total f + a = R.total f + b := by
  have := total_of_seat hs hS f
  omega

theorem total_add_le {θ : Fin t} {s u : Option Seat} {f : Option Seat → Nat} {a b : Nat}
    (hs : R.seat θ = s) (hS : S.seat = Function.update R.seat θ u) (h : f u + a ≤ f s + b) :
    S.total f + a ≤ R.total f + b := by
  have := total_of_seat hs hS f
  omega

theorem Empty.total (h : R.Empty) {f : Option Seat → Nat} (hf : f none = 0) : R.total f = 0 :=
  sum_eq_zero fun θ _ => by rw [h.seat, hf]

/-! ### Decided, owed and returned -/

/-- **Each decision is owed until it is returned.** -/
theorem Step.due (h : R.Step x S) (f : Call → Bool) (r : Reply) :
    S.total (Seat.due f r) + (x.returns f r).toNat =
      R.total (Seat.due f r) + (x.decides f r).toNat := by
  cases h.turn with
  | made θ c free _ hS =>
    refine total_add_eq free hS ?_
    simp [Seat.due, Stage.answer?, Mark.returns, Mark.decides]
  | decided hs hr _ hS =>
    refine total_add_eq hs hS ?_
    simp only [Seat.due, hr, Mark.returns, Mark.decides]
    simp [Stage.answer?, Bool.toNat, Bool.cond_eq_ite]
  | returned hs _ hS =>
    refine total_add_eq hs hS ?_
    simp only [Seat.due, Mark.returns, Mark.decides]
    simp [Stage.answer?, Bool.toNat, Bool.cond_eq_ite]
  | silent hx _ hs =>
    have htotal : S.total (Seat.due f r) = R.total (Seat.due f r) :=
      sum_congr rfl fun θ _ => Seat.due_congr (hs θ)
    rw [htotal]
    cases x <;> first | rfl | cases hx

end Room

/-- What is counted in a history with one mark more. -/
theorem countP_snoc {t : Nat} (h : List (Mark t)) (x : Mark t) (f : Mark t → Bool) :
    (h ++ [x]).countP f = h.countP f + (f x).toNat := by
  rw [List.countP_append, List.countP_singleton]
  cases f x <;> rfl

namespace Room

variable {t : Nat} {R S : Room t} {x : Mark t}

/-- **Decided is owed or returned.** -/
theorem Trace.decided_eq {h : List (Mark t)} (htr : R.Trace h S) (hR : R.Empty)
    (f : Call → Bool) (r : Reply) :
    h.countP (Mark.decides f r) = h.countP (Mark.returns f r) + S.total (Seat.due f r) := by
  induction htr with
  | nil => simp [hR.total (f := Seat.due f r) rfl]
  | @snoc h x S T htr hx ih =>
    have hstep := hx.due f r
    simp only [countP_snoc]
    omega

/-! ### The counters count decisions -/

/-- **Each decision moves the counter that it should move, and no other.** -/
theorem Step.counters (h : R.Step x S) (hb : R.latch.Balanced) :
    S.latch.stats.posts.toNat =
        R.latch.stats.posts.toNat + (x.decides (· = .signal) .done).toNat ∧
      S.latch.stats.consumed.toNat = R.latch.stats.consumed.toNat +
        ((x.decides (· = .wait) .done).toNat + (x.decides (· = .tryWait) (.flag true)).toNat +
          (x.decides Call.isBounded .done).toNat) ∧
      S.latch.stats.timeouts.toNat = R.latch.stats.timeouts.toNat +
        ((x.decides Call.isBounded .timedOut).toNat +
          (x.decides Call.isBounded (.fault .sinkFailed)).toNat) := by
  cases h.turn with
  | made θ c _ hl _ => simp [hl, Mark.decides]
  | @decided θ c i r _ _ _ hd _ =>
    generalize S.latch = l at hd
    cases hd with
    | posted hp =>
      have hsucc := Counter.toNat_succ hp
      simpa [Latch.posted, Mark.decides, Call.isBounded] using hsucc
    | answered ha =>
      cases ha with
      | overflow _ => simp [Mark.decides, Call.isBounded]
      | take hc hsig =>
        have hsucc := Counter.toNat_succ (hb.consumed_ne_last hsig)
        cases c <;> cases hc <;> simp [Latch.taken, Mark.decides, Call.isBounded, hsucc]
      | miss _ => simp [Mark.decides, Call.isBounded]
      | expire sinkFails _ _ ht =>
        have hsucc := Counter.toNat_succ ht
        cases sinkFails <;> simp [Latch.expired, Mark.decides, Call.isBounded, Reply.logged, hsucc]
      | expireOverflow _ _ _ => simp [Mark.decides, Call.isBounded]
      | look hc => cases c <;> cases hc <;> simp [Mark.decides, Call.isBounded]
  | returned _ hl _ => simp [hl, Mark.decides]
  | silent hx hl _ =>
    rw [hl]
    cases x with
    | moved _ | woke _ | nothing => simp [Mark.decides]
    | _ => cases hx

/-- **The counters of the latch count what was decided.** -/
theorem Trace.counters {h : List (Mark t)} (htr : R.Trace h S) (hR : R.latch = .fresh) :
    S.latch.stats.posts.toNat = h.countP (Mark.decides (· = .signal) .done) ∧
      S.latch.stats.consumed.toNat =
        h.countP (Mark.decides (· = .wait) .done) +
          h.countP (Mark.decides (· = .tryWait) (.flag true)) +
          h.countP (Mark.decides Call.isBounded .done) ∧
      S.latch.stats.timeouts.toNat =
        h.countP (Mark.decides Call.isBounded .timedOut) +
          h.countP (Mark.decides Call.isBounded (.fault .sinkFailed)) := by
  induction htr with
  | nil =>
    rw [hR]
    exact ⟨rfl, rfl, rfl⟩
  | @snoc h x S T htr hx ih =>
    obtain ⟨hposts, hconsumed, htimeouts⟩ := hx.counters (htr.balanced (hR ▸ Latch.balanced_fresh))
    obtain ⟨hposts', hconsumed', htimeouts'⟩ := ih
    simp only [countP_snoc]
    refine ⟨by omega, by omega, by omega⟩

end Room

end AutoReset.Threads
