import AutoReset.Proofs.Event.Timeouts
import AutoReset.Proofs.Script.Frame
import AutoReset.Proofs.Script.Levels
/-!
# What an operation puts on record

Where the logger takes in every record and its sink is not armed
(`AutoReset.System.Attentive`), the records that an operation makes can be read off what it
does. A creation makes one, whatever comes of it (`AutoReset.System.Attentive.writes_create`).
So does the release of an event that is there (`AutoReset.System.Attentive.writes_release`).
A call makes one if its answer is that its time ran out, and it has counted that timeout then,
and no other (`AutoReset.System.confides_enter`, `AutoReset.System.confides_waitPatiently`).
-/

namespace AutoReset

/-- The record of what is done about the memory of an event. -/
def Deed.record : Deed → Record
  | created _ (some a) => .created a
  | created _ none => .allocationFailed Cell.layout.size
  | released a => .released a

namespace System

open Attempt

/-! ### A log that misses nothing -/

/-- **Is every record made?** The logger takes in all of them, and its sink is not armed to
fail. -/
structure Attentive (s : System) : Prop where
  unarmed : s.Unarmed
  limit : s.logger.limit = some .trace

/-- These are the records that were made, and nothing else became of the logger. -/
def Writes (rs : List Record) (s s' : System) : Prop :=
  s'.logger = { s.logger with records := s.logger.records ++ rs }

variable {s s' s₁ s₂ : System} {rs rs' : List Record} {r : Record}

theorem Writes.of_eq (h : s'.logger = s.logger) : Writes [] s s' := by
  rw [Writes, h, List.append_nil]

theorem Writes.trans (h : Writes rs s s₁) (h' : Writes rs' s₁ s₂) : Writes (rs ++ rs') s s₂ := by
  rw [Writes, h', h, List.append_assoc]

theorem Writes.attentive (h : Writes rs s s') (hs : s.Attentive) : s'.Attentive where
  unarmed := (congrArg Logger.armed h).trans hs.unarmed
  limit := (congrArg Logger.limit h).trans hs.limit

theorem Writes.log_eq (h : Writes rs s s') :
    s'.logger.records.drop s.logger.records.length = rs := by
  rw [h, List.drop_left]

theorem Attentive.of_logger (h : s.Attentive) (hs : s'.logger = s.logger) : s'.Attentive :=
  (Writes.of_eq hs).attentive h

theorem Attentive.writes_noted (h : s.Attentive) (r : Record) : Writes [r] s (s.noted r) := by
  have hr : r.fits s.logger.limit = true := h.limit ▸ r.fits_trace
  show s.logger.noted r = _
  rw [Logger.noted_eq, if_pos hr]

theorem Attentive.log_eq (h : s.Attentive) (r : Record) : log r s = .ok () (s.noted r) :=
  log_of_unarmed h.unarmed r

/-! ### Creations and releases -/

/-- **A creation is on record**, be it that there is no memory. -/
theorem Attentive.writes_create (h : s.Attentive) (policy : Placement) (o : Origin) :
    Writes [Deed.record (.created o (s.askMemory policy o).1)] s ((create policy o).after s) := by
  have hasked := s.logger_askMemory policy o
  rw [after, create_of_unarmed h.unarmed]
  cases (s.askMemory policy o).1 with
  | none =>
    exact (Writes.of_eq hasked).trans ((h.of_logger hasked).writes_noted _)
  | some a =>
    have hplaced : ((s.askMemory policy o).2.place a (some (.fresh o))).logger = s.logger := hasked
    exact (Writes.of_eq hplaced).trans ((h.of_logger hplaced).writes_noted _)

/-- **The release of an event that is there is on record.** -/
theorem Attentive.writes_release (h : s.Attentive) {a : Address} (ha : (s.cell? a).isSome) :
    Writes [.released a] s ((release a).after s) := by
  obtain ⟨c, hc⟩ := Option.isSome_iff_exists.mp ha
  have hback : ((s.place a none).giveBack c.origin a).logger = s.logger :=
    logger_giveBack c.origin a _
  rw [after, release_of_unarmed h.unarmed, hc]
  exact (Writes.of_eq hback).trans ((h.of_logger hback).writes_noted _)

/-! ### Calls -/

/-- The number of bounded waits on the event at the address that ran out; none if there is no
event. -/
def timeoutsAt (s : System) (a : Address) : Nat :=
  match s.cell? a with
  | some c => c.timeouts
  | none => 0

theorem timeoutsAt_of_some {a : Address} {c : Cell} (h : s.cell? a = some c) :
    s.timeoutsAt a = c.timeouts := by
  rw [timeoutsAt, h]

theorem timeoutsAt_congr {a : Address} (h : s'.cell? a = s.cell? a) :
    s'.timeoutsAt a = s.timeoutsAt a := by
  rw [timeoutsAt, timeoutsAt, h]

/-- **Bounded waits on an event ran out after these times**: each is on record and has been
counted, and so has no other. -/
structure Expires (a : Option Address) (ds : List Duration) (s s' : System) : Prop where
  /-- The records are those of the timeouts. -/
  writes : Writes (ds.map .timedOut) s s'
  /-- There is an event if a wait on it ran out. -/
  there : ds ≠ [] → ∃ b, a = some b ∧ (s'.cell? b).isSome
  /-- They were counted, by the event that they are of. -/
  counted : ∀ b, s'.timeoutsAt b = s.timeoutsAt b + if a = some b then ds.length else 0

variable {a : Option Address} {ds ds' : List Duration}

theorem Expires.refl (a : Option Address) (s : System) : Expires a [] s s where
  writes := .of_eq rfl
  there := fun h => absurd rfl h
  counted := fun b => by simp

theorem Expires.trans_nil (h : Expires a [] s s₁) (h' : Expires a ds s₁ s₂) :
    Expires a ds s s₂ where
  writes := h.writes.trans h'.writes
  there := h'.there
  counted := fun b => by simpa [h.counted b] using h'.counted b

/-- **Does an attempt put each timeout on record?** If its answer is that the time ran out, there
is one record of that, and one timeout has been counted; otherwise there is none. -/
def Confides {α : Type} (a : Option Address) (reply : α → Option Reply) (x : Attempt System α) :
    Prop :=
  ∀ s, s.Attentive → ∃ ds, Expires a ds s (x.after s) ∧
    ds.length = Reply.expiries (x.replied reply s)

theorem Confides.pure {α : Type} {reply : α → Option Reply} {r : α}
    (h : reply r ≠ some .timedOut) : Confides a reply (pure r) :=
  fun s _ => ⟨[], .refl a s, (Reply.expiries_of_ne h).symm⟩

theorem Confides.map {α β : Type} {reply : α → Option Reply} {reply' : β → Option Reply}
    {x : Attempt System β} {g : β → α} (h : Confides a reply' x)
    (hg : ∀ b, Reply.expiries (reply (g b)) = Reply.expiries (reply' b)) :
    Confides a reply (g <$> x) := by
  intro s hs
  obtain ⟨ds, hds, hlen⟩ := h s hs
  rw [after_map]
  refine ⟨ds, hds, hlen.trans ?_⟩
  simp only [replied, map_apply]
  cases x s with
  | ok b s' => exact (hg b).symm
  | error f s' => rfl

/-- Whoever has no answer yet goes on; whoever has one has made his records. -/
theorem Confides.bind {α β : Type} {reply : α → Option Reply} {reply' : β → Option Reply}
    {x : Attempt System α} {f : α → Attempt System β} (hx : Confides a reply x)
    (hsome : ∀ r, reply r ≠ none →
      ∃ q, f r = Pure.pure q ∧ Reply.expiries (reply' q) = Reply.expiries (reply r))
    (hnone : ∀ r, reply r = none → Confides a reply' (f r)) : Confides a reply' (x >>= f) := by
  intro s hs
  obtain ⟨ds, hds, hlen⟩ := hx s hs
  simp only [after, replied] at hds hlen
  simp only [after, replied, bind_apply]
  cases hxs : x s with
  | error e s₁ =>
    rw [hxs] at hds hlen
    exact ⟨ds, hds, hlen⟩
  | ok r s₁ =>
    rw [hxs] at hds hlen
    by_cases hr : reply r = none
    · have hnil : ds = [] := List.eq_nil_of_length_eq_zero (hlen.trans (by simp only [hr]; rfl))
      subst hnil
      obtain ⟨ds', hds', hlen'⟩ := hnone r hr s₁ (hds.writes.attentive hs)
      exact ⟨ds', hds.trans_nil hds', hlen'⟩
    · obtain ⟨q, hq, hexpiries⟩ := hsome r hr
      simp only [hq]
      exact ⟨ds, hds, hlen.trans hexpiries.symm⟩

/-- Works on the event at an address, and puts it on record if its answer is that the time ran
out. -/
def attend {α : Type} (since now : Instant) (reply : α → Option Reply) (b : Address)
    (x : Attempt Cell α) : Attempt System (Option α) := do
  let r ← onCell b x
  logTimeout since now (r.bind reply)
  return r

theorem confides_attend {α : Type} {since now : Instant} {reply : α → Option Reply} {b : Address}
    {x : Attempt Cell α} (hx : Ticks Cell.timeouts reply x) :
    Confides (some b) (·.bind reply) (attend since now reply b x) := by
  intro s hs
  cases hc : s.cell? b with
  | none =>
    have hattend : attend since now reply b x s = .ok none s := by
      simp only [attend, bind_apply, onCell, hc]
      rfl
    rw [after, replied, hattend]
    exact ⟨[], .refl _ s, rfl⟩
  | some c =>
    have htick := hx c
    rw [after, replied] at htick
    -- what becomes of the counters when the event is put back
    have hplaced : ∀ {c' : Cell} {n : Nat}, c'.timeouts = c.timeouts + n → ∀ b',
        (s.place b (some c')).timeoutsAt b' =
          s.timeoutsAt b' + if some b = some b' then n else 0 := by
      intro c' n hc' b'
      by_cases hb : b' = b
      · subst hb
        rw [if_pos rfl, timeoutsAt_of_some (cell?_place_self ..), timeoutsAt_of_some hc, hc']
      · rw [if_neg fun h => hb (Option.some.inj h).symm]
        exact timeoutsAt_congr (cell?_place_of_ne _ _ hb)
    cases hxc : x c with
    | error f c' =>
      have hattend : attend since now reply b x s = .error f (s.place b (some c')) := by
        simp only [attend, bind_apply, onCell, hc, hxc]
      rw [hxc] at htick
      rw [after, replied, hattend]
      exact ⟨[], ⟨.of_eq rfl, fun h => absurd rfl h, hplaced htick⟩, rfl⟩
    | ok r c' =>
      rw [hxc] at htick
      have hs' : (s.place b (some c')).Attentive := hs.of_logger rfl
      by_cases hr : reply r = some .timedOut
      · have hattend : attend since now reply b x s =
            .ok (some r) ((s.place b (some c')).noted (.timedOut (now.since since))) := by
          simp only [attend, bind_apply, onCell, hc, hxc, Option.bind_some, logTimeout, if_pos hr,
            hs'.log_eq]
          rfl
        rw [after, replied, hattend]
        refine ⟨[now.since since], ⟨hs'.writes_noted _, fun _ => ⟨b, rfl, ?_⟩, ?_⟩, ?_⟩
        · exact Option.isSome_iff_exists.mpr ⟨c', cell?_place_self ..⟩
        · exact hplaced (htick.trans (by simp only [hr]; rfl))
        · simp only [Option.bind_some, hr]
          rfl
      · have hattend : attend since now reply b x s = .ok (some r) (s.place b (some c')) := by
          simp only [attend, bind_apply, onCell, hc, hxc, Option.bind_some, logTimeout, if_neg hr]
          rfl
        rw [after, replied, hattend]
        simp only [Reply.expiries_of_ne hr] at htick
        exact ⟨[], ⟨.of_eq rfl, fun h => absurd rfl h, hplaced htick⟩,
          (Reply.expiries_of_ne hr).symm⟩

theorem enter_eq (now : Instant) (b : Address) (c : Call) :
    enter now b c =
      (fun p : Option Passage => p.getD { reply := some .done }) <$>
        attend now now Passage.reply b (Cell.enter c now) := by
  funext s
  simp only [enter, attend, bind_apply, map_apply]
  cases onCell b (Cell.enter c now) s with
  | error f s => rfl
  | ok p s =>
    cases p with
    | none => rfl
    | some p =>
      simp only [bind_apply, Option.bind_some]
      cases logTimeout now now p.reply s <;> rfl

/-- **A call puts it on record if it ran out of time**, and nothing else. -/
theorem confides_enter (now : Instant) (b : Address) (c : Call) :
    Confides (some b) Passage.reply (enter now b c) := by
  rw [enter_eq]
  refine (confides_attend (Cell.ticks_enter c now)).map fun p => ?_
  cases p <;> rfl

theorem expireAt_eq (now later : Instant) (b : Address) (p : Passage) :
    (do
      let r := (← onCell b (Cell.expire later)).join
      logTimeout now later r
      return ({ p with reply := r }, later) : Attempt System (Passage × Instant)) =
      (fun r : Option (Option Reply) => ({ p with reply := r.join }, later)) <$>
        attend now later id b (Cell.expire later) := by
  funext s
  simp only [attend, bind_apply, map_apply]
  cases onCell b (Cell.expire later) s with
  | error f s => rfl
  | ok r s =>
    have hjoin : r.bind id = r.join := by cases r <;> rfl
    simp only [hjoin]
    cases logTimeout now later r.join s <;> rfl

/-- **A bounded wait that is waited out**, or sleeps, does the same. -/
theorem confides_waitPatiently (patience : Duration) (now : Instant) (b : Address)
    (timeout : Duration) :
    Confides (some b) (fun r : Passage × Instant => r.1.reply)
      (waitPatiently patience now b timeout) := by
  unfold waitPatiently
  split
  · refine (confides_enter now b _).bind (fun p hp => ?_) fun p hp => ?_
    · obtain ⟨r, hr⟩ := Option.ne_none_iff_exists'.mp hp
      refine ⟨(p, now), ?_, rfl⟩
      rw [hr]
    · rw [hp, expireAt_eq]
      exact (confides_attend (Cell.ticks_expire _)).map fun r => by cases r <;> rfl
  · exact (confides_enter now b _).bind (fun p _ => ⟨(p, now), rfl, rfl⟩) fun p hp =>
      .pure (by rw [hp]; exact nofun)

/-- A call through something that refers to no event has its answer at once. -/
theorem confides_run (now : Instant) (a : Option Address) (c : Call) {otherwise : Reply}
    (h : otherwise ≠ .timedOut) :
    Confides a Passage.reply (System.run now (.reach a c otherwise)) := by
  cases a with
  | none => exact .pure fun heq => h (Option.some.inj heq)
  | some b => exact confides_enter now b c

end System

namespace Script

/-- **A step that is a call** puts a timeout on record and counts it, or none. -/
theorem Step.expires_call? {setting : Setting} {s : Step} {x : Variable}
    {y : Attempt System Answer} (h : s.call? setting x = some y) {t : System}
    (ht : t.Attentive) : ∃ ds, t.Expires x.address? ds (y.after t) ∧ ds.length ≤ 1 := by
  have hone : ∀ {α : Type} {a : Option Address} {reply : α → Option Reply} {z : Attempt System α}
      (f : α → Answer), System.Confides a reply z →
      ∃ ds, t.Expires a ds ((f <$> z).after t) ∧ ds.length ≤ 1 := by
    intro α a reply z f hz
    obtain ⟨ds, hds, hlen⟩ := hz t ht
    exact ⟨ds, Attempt.after_map f z t ▸ hds, hlen ▸ Reply.expiries_le_one _⟩
  cases s with
  | isSignaled v =>
    rcases x with o | k <;> cases h
    exact hone _ (System.confides_enter _ _ _)
  | signal v via =>
    cases h
    rw [Variable.signal_eq]
    exact hone _ (System.confides_run _ _ _ nofun)
  | wait v via =>
    cases h
    rw [Variable.wait_eq]
    exact hone _ (System.confides_run _ _ _ nofun)
  | tryWait v =>
    cases h
    rw [Variable.tryWait_eq]
    exact hone _ (System.confides_run _ _ _ nofun)
  | waitTimeout v timeout =>
    rcases x with o | k <;> cases h
    exact hone _ (System.confides_waitPatiently _ _ _ _)
  | _ => cases h

end Script

end AutoReset
