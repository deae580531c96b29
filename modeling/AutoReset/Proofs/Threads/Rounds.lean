import AutoReset.Proofs.Event.Errand
import AutoReset.Proofs.Threads.Quiescence
import AutoReset.Proofs.Threads.Wakeup
/-!
# Rounds: one call, from rest to rest

A **round** takes an event from rest to rest with one call in between. The threads may go
on in any order, a signal may wake any sleeper, and sleepers may wake for no reason, get
in the way, and sleep again. What comes of a round does not depend on any of this: it is
what `AutoReset.Errand.run` says.

Whoever slept when the call was made is a wait with time left, and so it can only be
decided by a signal. There was none, for else nobody would have slept. So a round passes
through no more than three phases (`AutoReset.Threads.Scene.Phase`): the call is open; the
call is decided and the sleepers are as they were; and, after a signal, one of them has
consumed it. Which phase is the last is told by the rest at the end, where no signal is
pending while somebody sleeps.
-/

namespace AutoReset.Threads

open Finset

/-! ### What is looked at -/

namespace Mark

variable {t : Nat}

/-- The answer with which a call of the thread returns here. -/
def replyTo (θ : Fin t) : Mark t → Option Reply
  | returned η _ r => if η = θ then some r else none
  | _ => none

/-- Does a call of another thread return here? -/
def releases (θ : Fin t) : Mark t → Bool
  | returned η _ _ => η ≠ θ
  | _ => false

end Mark

/-- One if there is a call in the seat without an answer, and else nothing. -/
def Seat.open : Option Seat → Nat
  | some s => if s.stage.answer? = none then 1 else 0
  | none => 0

theorem Seat.open_congr {x y : Option Seat} (h : x.map Seat.outline = y.map Seat.outline) :
    Seat.open x = Seat.open y := by
  rcases x with _ | ⟨c, i, a⟩ <;> rcases y with _ | ⟨d, j, b⟩
  · rfl
  · cases h
  · cases h
  · simp only [Option.map_some, Seat.outline, Option.some.injEq, Prod.mk.injEq] at h
    simp only [Seat.open, h]

namespace Room

variable {t : Nat} {R S : Room t} {θ η : Fin t} {r : Reply} {given : Bool}

/-- **At rest nobody sleeps through a signal.** -/
theorem Quiet.seat_eq_none {later : Instant} (hq : R.Quiet later) (ha : R.Attended)
    (hsig : R.latch.signaled = true) (θ : Fin t) : R.seat θ = none := by
  rcases hs : R.seat θ with _ | ⟨c, i, stage⟩
  · rfl
  · obtain ⟨⟨b, rfl⟩, -⟩ := hq.asleep hs
    obtain ⟨η, u, hu, hattends⟩ := ha hsig ⟨θ, c, i, b, hs⟩
    obtain ⟨⟨b', hb'⟩, -⟩ := hq.asleep hu
    rw [Seat.attends, hb'] at hattends
    cases hattends

/-- Has the call of a thread, if there is one, no answer yet? -/
def Open (R : Room t) (θ : Fin t) : Prop := ∀ s, R.seat θ = some s → s.stage.answer? = none

/-- Has a call got this answer, and has it been given back? -/
inductive Answered (R : Room t) (θ : Fin t) (r : Reply) : Bool → Prop
  /-- The thread still holds it. -/
  | owed {s : Seat} (hs : R.seat θ = some s) (hr : s.stage.answer? = some r) :
    Answered R θ r false
  /-- The thread is gone. -/
  | given (hs : R.seat θ = none) : Answered R θ r true

theorem exists_seat_of_outline (hs : (S.seat θ).map Seat.outline = (R.seat θ).map Seat.outline)
    {s : Seat} (h : R.seat θ = some s) : ∃ u, S.seat θ = some u ∧ u.outline = s.outline := by
  rw [h] at hs
  exact Option.map_eq_some_iff.mp hs

theorem Open.of_outline (h : R.Open θ)
    (hs : (S.seat θ).map Seat.outline = (R.seat θ).map Seat.outline) : S.Open θ := by
  intro u hu
  obtain ⟨s, hsR, hout⟩ := exists_seat_of_outline hs.symm hu
  have hopen := h s hsR
  have hanswer : s.stage.answer? = u.stage.answer? := congrArg (·.2.2) hout
  rw [← hanswer, hopen]

theorem Answered.of_outline (h : R.Answered θ r given)
    (hs : (S.seat θ).map Seat.outline = (R.seat θ).map Seat.outline) : S.Answered θ r given := by
  cases h with
  | owed hsR hr =>
    obtain ⟨u, hu, hout⟩ := exists_seat_of_outline hs hsR
    have hanswer : u.stage.answer? = _ := congrArg (·.2.2) hout
    exact .owed hu (hanswer.trans hr)
  | given hsR =>
    rw [hsR] at hs
    exact .given (Option.map_eq_none_iff.mp hs)

/-- The others keep their outlines when one seat is given away. -/
theorem outline_of_ne {u : Option Seat} (hS : S.seat = Function.update R.seat θ u) (h : η ≠ θ) :
    (S.seat η).map Seat.outline = (R.seat η).map Seat.outline := by
  rw [hS, Function.update_of_ne h]

/-- Who is inside has no answer. -/
theorem Answered.not_inside (h : R.Answered θ r given) {c : Call} {i : Instant}
    (hs : R.seat θ = some ⟨c, i, .inside⟩) : False := by
  cases h with
  | owed hs' hr =>
    cases hs.symm.trans hs'
    cases hr
  | given hs' => cases hs.symm.trans hs'

/-- Who is leaving has an answer. -/
theorem Open.not_leaving (h : R.Open θ) {c : Call} {i : Instant}
    (hs : R.seat θ = some ⟨c, i, .leaving r⟩) : False := by
  cases h _ hs

/-- Who returns gives back the answer it had. -/
theorem Answered.leave (h : R.Answered θ r given) {c : Call} {i : Instant} {r' : Reply}
    (hs : R.seat θ = some ⟨c, i, .leaving r'⟩)
    (hS : S.seat = Function.update R.seat θ none) :
    r' = r ∧ given = false ∧ S.Answered θ r true := by
  cases h with
  | owed hs' hr =>
    cases hs.symm.trans hs'
    cases hr
    exact ⟨rfl, rfl, .given (by rw [hS, Function.update_self])⟩
  | given hs' => cases hs.symm.trans hs'

end Room

/-! ### The phases of a round -/

/-- What a round starts from. -/
structure Scene (t : Nat) where
  /-- The call, and what becomes of its time. -/
  errand : Errand
  /-- Who makes it. -/
  caller : Fin t
  /-- When it is made. -/
  since : Instant
  /-- When the round is over. -/
  later : Instant
  /-- The event before the call. -/
  before : Rest

namespace Scene

variable {t : Nat} {Γ : Scene t} {R S : Room t} {x : Mark t} {h : List (Mark t)}

/-- **Who is there in a round**: the caller, and sleepers with time left; and if there are
sleepers, there was no signal. -/
structure Cast (Γ : Scene t) (R : Room t) : Prop where
  /-- The caller is in the call of the errand. -/
  caller {s : Seat} : R.seat Γ.caller = some s → s.call = Γ.errand.call ∧ s.since = Γ.since
  /-- The others are patient, and there was no signal for them. -/
  others {η : Fin t} {s : Seat} : η ≠ Γ.caller → R.seat η = some s →
    s.call.patient s.since Γ.later = true ∧ Γ.before.latch.signaled = false

/-- **How far a round has got**, with the marks since the call was made. -/
inductive Phase (Γ : Scene t) (R : Room t) (h : List (Mark t)) : Prop
  /-- Nothing is decided. -/
  | before (hl : R.latch = Γ.before.latch) (hcaller : ∃ s, R.seat Γ.caller = some s)
    (hopen : ∀ η, R.Open η) (htotal : R.total Seat.open = Γ.before.blocked + 1)
    (hreply : h.findSome? (Mark.replyTo Γ.caller) = none)
    (hreleased : h.countP (Mark.releases Γ.caller) = 0)
  /-- The call is decided, and nothing else. -/
  | after {r : Reply} {given : Bool} (hset : Γ.errand.settle Γ.before.latch = (some r, R.latch))
    (hcaller : R.Answered Γ.caller r given) (hopen : ∀ η, η ≠ Γ.caller → R.Open η)
    (htotal : R.total Seat.open = Γ.before.blocked)
    (hreply : h.findSome? (Mark.replyTo Γ.caller) = if given then some r else none)
    (hreleased : h.countP (Mark.releases Γ.caller) = 0)
  /-- The call was a signal, and a sleeper has consumed it. -/
  | handed {l : Latch} {η : Fin t} {given given' : Bool} (hq : Γ.errand = .signal)
    (hset : Γ.errand.settle Γ.before.latch = (some .done, l)) (hl : R.latch = l.taken)
    (hη : η ≠ Γ.caller) (hcaller : R.Answered Γ.caller .done given)
    (hother : R.Answered η .done given')
    (hopen : ∀ ζ, ζ ≠ Γ.caller → ζ ≠ η → R.Open ζ)
    (htotal : R.total Seat.open + 1 = Γ.before.blocked)
    (hreply : h.findSome? (Mark.replyTo Γ.caller) = if given then some .done else none)
    (hreleased : h.countP (Mark.releases Γ.caller) = given'.toNat)

/-- The cast of a round does not change, but for those who leave. -/
theorem Cast.step (hc : Γ.Cast R) (hx : R.Step x S) (hmade : x.isMade = false) : Γ.Cast S := by
  -- whoever has a seat has had it, with the same call
  have hold : ∀ {η u}, S.seat η = some u →
      ∃ s, R.seat η = some s ∧ s.call = u.call ∧ s.since = u.since := by
    intro η u hu
    cases hx.turn with
    | made _ _ _ _ _ => cases hmade
    | @decided θ c i r stage hs _ _ hS =>
      rw [hS] at hu
      by_cases hη : η = θ
      · subst hη
        rw [Function.update_self] at hu
        cases hu
        exact ⟨_, hs, rfl, rfl⟩
      · rw [Function.update_of_ne hη] at hu
        exact ⟨u, hu, rfl, rfl⟩
    | @returned θ _ _ _ hs _ hS =>
      rw [hS] at hu
      by_cases hη : η = θ
      · subst hη
        rw [Function.update_self] at hu
        cases hu
      · rw [Function.update_of_ne hη] at hu
        exact ⟨u, hu, rfl, rfl⟩
    | silent _ _ hs =>
      obtain ⟨s, hsR, hout⟩ := Room.exists_seat_of_outline (hs η).symm hu
      exact ⟨s, hsR, congrArg (·.1) hout, congrArg (·.2.1) hout⟩
  constructor
  · intro u hu
    obtain ⟨s, hs, hcall, hsince⟩ := hold hu
    rw [← hcall, ← hsince]
    exact hc.caller hs
  · intro η u hη hu
    obtain ⟨s, hs, hcall, hsince⟩ := hold hu
    rw [← hcall, ← hsince]
    exact hc.others hη hs

/-- The first answer in a history with one mark more. -/
theorem findSome?_snoc {α : Type} (f : Mark t → Option α) :
    (h ++ [x]).findSome? f = (h.findSome? f).or (f x) := by
  rw [List.findSome?_append]
  cases hx : f x <;> simp [hx]

/-- Where nothing is settled a round stays in its phase. -/
theorem Phase.silent (hp : Γ.Phase R h) (hx : x.isSilent = true) (hl : S.latch = R.latch)
    (hs : ∀ θ, (S.seat θ).map Seat.outline = (R.seat θ).map Seat.outline) :
    Γ.Phase S (h ++ [x]) := by
  have htotal : S.total Seat.open = R.total Seat.open :=
    sum_congr rfl fun θ _ => Seat.open_congr (hs θ)
  have hreply : (h ++ [x]).findSome? (Mark.replyTo Γ.caller) =
      h.findSome? (Mark.replyTo Γ.caller) := by
    have hnone : x.replyTo Γ.caller = none := by cases x <;> first | rfl | cases hx
    rw [findSome?_snoc, hnone, Option.or_none]
  have hreleased : (h ++ [x]).countP (Mark.releases Γ.caller) =
      h.countP (Mark.releases Γ.caller) := by
    have hfalse : x.releases Γ.caller = false := by cases x <;> first | rfl | cases hx
    rw [countP_snoc, hfalse]
    rfl
  cases hp with
  | before hl' hcaller hopen ht hr hc =>
    obtain ⟨s, hs'⟩ := hcaller
    obtain ⟨u, hu, -⟩ := Room.exists_seat_of_outline (hs _) hs'
    exact .before (hl.trans hl') ⟨u, hu⟩ (fun η => (hopen η).of_outline (hs η)) (htotal.trans ht)
      (hreply.trans hr) (hreleased.trans hc)
  | after hset hcaller hopen ht hr hc =>
    rw [← hl] at hset
    exact .after hset (hcaller.of_outline (hs _)) (fun η hη => (hopen η hη).of_outline (hs η))
      (htotal.trans ht) (hreply.trans hr) (hreleased.trans hc)
  | handed hq hset hl' hη hcaller hother hopen ht hr hc =>
    exact .handed hq hset (hl.trans hl') hη (hcaller.of_outline (hs _)) (hother.of_outline (hs _))
      (fun ζ hζ hζ' => (hopen ζ hζ hζ').of_outline (hs ζ)) (by rw [htotal]; exact ht)
      (hreply.trans hr) (hreleased.trans hc)

/-- **A decision takes a round to its next phase.** The caller is decided first; then a
sleeper may be, by the signal that the caller left. -/
theorem Phase.decided (hp : Γ.Phase R h) (hc : Γ.Cast R) (hb : Γ.before.latch.Balanced)
    (hnow : R.now ≤ Γ.later) (htime : Γ.errand.InTime Γ.since Γ.later) {θ : Fin t} {c : Call}
    {i : Instant} {r : Reply} {stage : Stage} (hadmits : θ = Γ.caller → Γ.errand.Admits r)
    (hs : R.seat θ = some ⟨c, i, .inside⟩) (hr : stage.answer? = some r)
    (hd : Call.Decides i R.now R.latch c r S.latch)
    (hS : S.seat = Function.update R.seat θ (some ⟨c, i, stage⟩)) :
    Γ.Phase S (h ++ [.decided θ c r]) := by
  have htotal : S.total Seat.open + 1 = R.total Seat.open + 0 := by
    refine Room.total_add_eq hs hS ?_
    simp only [Seat.open, hr]
    rfl
  have hreply : (h ++ [Mark.decided θ c r]).findSome? (Mark.replyTo Γ.caller) =
      h.findSome? (Mark.replyTo Γ.caller) := by
    rw [findSome?_snoc]
    exact Option.or_none
  have hreleased : (h ++ [Mark.decided θ c r]).countP (Mark.releases Γ.caller) =
      h.countP (Mark.releases Γ.caller) := by
    rw [countP_snoc]
    rfl
  have hanswered : S.Answered θ r false := .owed (by rw [hS, Function.update_self]) hr
  -- a sleeper is decided by a signal that was not there before the call
  have hother : θ ≠ Γ.caller → R.latch.signaled = true ∧ r = .done ∧ S.latch = R.latch.taken ∧
      Γ.before.latch.signaled = false := by
    intro hθ
    obtain ⟨hpatient, hunset⟩ := hc.others hθ hs
    obtain ⟨hsig, hdone, hl⟩ := Call.taken_of_decides (Call.patient_of_le hnow hpatient) hd
    exact ⟨hsig, hdone, hl, hunset⟩
  cases hp with
  | before hl hcaller hopen ht hrep hrel =>
    by_cases hθ : θ = Γ.caller
    · -- the latch is still the one before the round, so the errand tells what comes of it
      subst hθ
      obtain ⟨hcall, hsince⟩ := hc.caller hs
      have hset : Γ.errand.settle Γ.before.latch = (some r, S.latch) := by
        rw [hl] at hd
        simp only at hcall hsince
        rw [hcall, hsince] at hd
        refine Errand.settle_of_decides hb (fun d hq => ?_) (hadmits rfl) hd
        rw [hq] at htime ⊢
        exact Call.patient_of_le hnow htime
      refine .after hset hanswered (fun η hη => ?_) (by omega) (hreply.trans hrep)
        (hreleased.trans hrel)
      exact (hopen η).of_outline (Room.outline_of_ne hS hη)
    · obtain ⟨hsig, -, -, hunset⟩ := hother hθ
      rw [hl, hunset] at hsig
      cases hsig
  | @after r' given hset hcaller hopen ht hrep hrel =>
    by_cases hθ : θ = Γ.caller
    · subst hθ
      exact (hcaller.not_inside hs).elim
    · obtain ⟨hsig, rfl, hl, hunset⟩ := hother hθ
      obtain ⟨hq, rfl⟩ := Errand.eq_signal_of_settle hb hunset hset hsig
      have hcaller' := hcaller.of_outline (Room.outline_of_ne hS (Ne.symm hθ))
      refine .handed hq hset hl hθ hcaller' hanswered (fun ζ hζ hζ' => ?_) (by omega)
        (hreply.trans hrep) (hreleased.trans hrel)
      exact (hopen ζ hζ).of_outline (Room.outline_of_ne hS hζ')
  | handed _ _ hl _ hcaller _ _ _ _ _ =>
    by_cases hθ : θ = Γ.caller
    · subst hθ
      exact (hcaller.not_inside hs).elim
    · -- the one signal of the round is consumed, and a sleeper finds none
      obtain ⟨hsig, -⟩ := hother hθ
      rw [hl, Latch.signaled_taken] at hsig
      cases hsig

/-- **A return leaves a round in its phase**, and is one of the caller or of the sleeper
that has consumed the signal. -/
theorem Phase.returned (hp : Γ.Phase R h) {θ : Fin t} {c : Call} {i : Instant} {r : Reply}
    (hs : R.seat θ = some ⟨c, i, .leaving r⟩) (hl : S.latch = R.latch)
    (hS : S.seat = Function.update R.seat θ none) : Γ.Phase S (h ++ [.returned θ c r]) := by
  have htotal : S.total Seat.open + 0 = R.total Seat.open + 0 := by
    refine Room.total_add_eq hs hS ?_
    simp [Seat.open, Stage.answer?]
  have hkeep : ∀ {η}, η ≠ θ → (S.seat η).map Seat.outline = (R.seat η).map Seat.outline :=
    Room.outline_of_ne hS
  -- the history tells the first return of the caller, and counts those of the others
  have hown : θ = Γ.caller → ∀ {f}, h.findSome? (Mark.replyTo Γ.caller) = f →
      (h ++ [Mark.returned θ c r]).findSome? (Mark.replyTo Γ.caller) = f.or (some r) ∧
        (h ++ [Mark.returned θ c r]).countP (Mark.releases Γ.caller) =
          h.countP (Mark.releases Γ.caller) := by
    rintro rfl f rfl
    rw [findSome?_snoc, countP_snoc]
    simp [Mark.replyTo, Mark.releases]
  have hothers : θ ≠ Γ.caller →
      (h ++ [Mark.returned θ c r]).findSome? (Mark.replyTo Γ.caller) =
        h.findSome? (Mark.replyTo Γ.caller) ∧
        (h ++ [Mark.returned θ c r]).countP (Mark.releases Γ.caller) =
          h.countP (Mark.releases Γ.caller) + 1 := by
    intro hθ
    rw [findSome?_snoc, countP_snoc]
    simp [Mark.replyTo, Mark.releases, hθ]
  cases hp with
  | before _ _ hopen _ _ _ => exact ((hopen θ).not_leaving hs).elim
  | @after r' given hset hcaller hopen ht hrep hrel =>
    by_cases hθ : θ = Γ.caller
    · obtain ⟨hreply, hreleased⟩ := hown hθ hrep
      subst hθ
      obtain ⟨rfl, rfl, hcaller'⟩ := hcaller.leave hs hS
      rw [← hl] at hset
      refine .after hset hcaller' (fun η hη => (hopen η hη).of_outline (hkeep hη)) (by omega)
        hreply (hreleased.trans hrel)
    · exact ((hopen θ hθ).not_leaving hs).elim
  | @handed l η given given' hq hset hl' hη hcaller hother hopen ht hrep hrel =>
    by_cases hθ : θ = Γ.caller
    · obtain ⟨hreply, hreleased⟩ := hown hθ hrep
      subst hθ
      obtain ⟨rfl, rfl, hcaller'⟩ := hcaller.leave hs hS
      exact .handed hq hset (hl.trans hl') hη hcaller' (hother.of_outline (hkeep hη))
        (fun ζ hζ hζ' => (hopen ζ hζ hζ').of_outline (hkeep hζ)) (by omega) hreply
        (hreleased.trans hrel)
    · obtain ⟨hreply, hreleased⟩ := hothers hθ
      by_cases hθη : θ = η
      · subst hθη
        obtain ⟨-, rfl, hother'⟩ := hother.leave hs hS
        refine .handed hq hset (hl.trans hl') hη (hcaller.of_outline (hkeep (Ne.symm hθ))) hother'
          (fun ζ hζ hζ' => (hopen ζ hζ hζ').of_outline (hkeep hζ')) (by omega)
          (hreply.trans hrep) ?_
        rw [hreleased, hrel]
        rfl
      · exact ((hopen θ hθ hθη).not_leaving hs).elim

/-- **A round goes through its phases**, whatever happens in it. -/
theorem Phase.step (hp : Γ.Phase R h) (hc : Γ.Cast R) (hb : Γ.before.latch.Balanced)
    (hx : R.Step x S) (hnow : R.now ≤ Γ.later) (htime : Γ.errand.InTime Γ.since Γ.later)
    (hmade : x.isMade = false)
    (hadmits : ∀ c r, x = .decided Γ.caller c r → Γ.errand.Admits r) :
    Γ.Phase S (h ++ [x]) := by
  cases hx.turn with
  | made _ _ _ _ _ => cases hmade
  | decided hs hr hd hS =>
    refine hp.decided hc hb hnow htime ?_ hs hr hd hS
    rintro rfl
    exact hadmits _ _ rfl
  | returned hs hl hS => exact hp.returned hs hl hS
  | silent hz hl hs => exact hp.silent hz hl hs

/-- **A whole round goes through the phases.** -/
theorem Phase.run (htr : R.Trace h S) (hc : Γ.Cast R) (hp : Γ.Phase R [])
    (hb : Γ.before.latch.Balanced) (hnow : S.now ≤ Γ.later)
    (htime : Γ.errand.InTime Γ.since Γ.later) (hmade : ∀ x ∈ h, x.isMade = false)
    (hadmits : ∀ c r, .decided Γ.caller c r ∈ h → Γ.errand.Admits r) :
    Γ.Cast S ∧ Γ.Phase S h := by
  induction htr with
  | nil => exact ⟨hc, hp⟩
  | @snoc h x S T _ hx ih =>
    have hle : S.now ≤ Γ.later := Instant.le_trans hx.now_le hnow
    obtain ⟨hc', hp'⟩ := ih hle (fun y hy => hmade y (List.mem_append_left _ hy))
      fun c r hm => hadmits c r (List.mem_append_left _ hm)
    have hlast : x ∈ h ++ [x] := by simp
    refine ⟨hc'.step hx (hmade x hlast), hp'.step hc' hb hx hle htime (hmade x hlast) ?_⟩
    rintro c r rfl
    exact hadmits c r hlast

/-! ### The two ends of a round -/

/-- A round begins with everybody asleep but the caller. -/
theorem start {q : Errand} {θ : Fin t} {later : Instant} (hq : R.Quiet later) (ha : R.Attended)
    (hx : R.Step (.made θ q.call) S) :
    Cast ⟨q, θ, R.now, later, ⟨R.latch, R.total Seat.open⟩⟩ S ∧
      Phase ⟨q, θ, R.now, later, ⟨R.latch, R.total Seat.open⟩⟩ S [] := by
  cases hx with
  | made _ _ free =>
    refine ⟨⟨?_, ?_⟩, .before rfl ⟨_, Room.seat_put_self ..⟩ ?_ ?_ rfl rfl⟩
    · rintro s hs
      rw [Room.seat_put_self] at hs
      cases hs
      exact ⟨rfl, rfl⟩
    · intro η s hη hs
      rw [Room.seat_put_of_ne _ _ hη] at hs
      refine ⟨(hq.asleep hs).2, ?_⟩
      by_contra hsig
      have hnone := hq.seat_eq_none ha (by simpa using hsig) η
      rw [hs] at hnone
      cases hnone
    · intro η s hs
      rcases Room.seat_put_eq_some hs with ⟨-, hs⟩ | ⟨-, hs⟩
      · cases hs
        rfl
      · obtain ⟨⟨b, hb⟩, -⟩ := hq.asleep hs
        rw [hb]
        rfl
    · exact Room.total_add_eq (a := 0) free rfl rfl

/-- **What a round comes to is what the errand comes to.** -/
theorem Phase.outcome (hp : Γ.Phase S h) (hc : Γ.Cast S) (hq : S.Quiet Γ.later)
    (ha : S.Attended) (hb : Γ.before.latch.Balanced) (htime : Γ.errand.InTime Γ.since Γ.later) :
    (⟨⟨S.latch, S.total Seat.open⟩, h.countP (Mark.releases Γ.caller),
      h.findSome? (Mark.replyTo Γ.caller)⟩ : Outcome) = Γ.errand.run Γ.before := by
  -- nobody is left who holds an answer
  have hgone : ∀ {θ r given}, S.Answered θ r given → given = true := by
    intro θ r given hans
    cases hans with
    | given _ => rfl
    | owed hs hr =>
      obtain ⟨⟨b, hb⟩, -⟩ := hq.asleep hs
      rw [hb] at hr
      cases hr
  cases hp with
  | before hl hcaller _ htotal hreply hreleased =>
    obtain ⟨s, hs⟩ := hcaller
    obtain ⟨hcall, hsince⟩ := hc.caller hs
    have hpatient := (hq.asleep hs).2
    rw [hcall, hsince] at hpatient
    have hunset : Γ.before.latch.signaled = false := by
      by_contra hsig
      have hnone := hq.seat_eq_none ha (by rw [hl]; simpa using hsig) Γ.caller
      rw [hs] at hnone
      cases hnone
    have hshort : ∀ d b, Γ.errand ≠ .shortWait d b := by
      intro d b he
      rw [he] at htime hpatient
      cases htime.symm.trans hpatient
    have hset := Errand.settle_of_waits hb hunset (Call.waits_of_patient hpatient) hshort
    simp only [Errand.run, hset]
    rw [hl, htotal, hreleased, hreply]
  | @after r _ hset hcaller _ htotal hreply hreleased =>
    obtain rfl := hgone hcaller
    simp only [Errand.run, hset]
    rw [htotal, hreleased, hreply, if_pos rfl]
    cases hbl : Γ.before.blocked with
    | zero => rfl
    | succ b =>
      -- a signal would have been consumed, for somebody sleeps
      have hnot : ¬(Γ.errand = .signal ∧ r = .done) := by
        rintro ⟨he, rfl⟩
        rw [he] at hset
        have hnone := hq.seat_eq_none ha (Errand.signaled_of_settle hb hset)
        have hzero : S.total Seat.open = 0 := sum_eq_zero fun θ _ => by rw [hnone θ]; rfl
        omega
      simp only [if_neg hnot]
  | handed he hset hl _ hcaller hother _ htotal hreply hreleased =>
    obtain rfl := hgone hcaller
    obtain rfl := hgone hother
    rw [he] at hset
    simp only [Errand.run, he, hset, ← htotal, and_self, if_true]
    rw [hl, hreleased, hreply, if_pos rfl]
    rfl

end Scene

end AutoReset.Threads
