import AutoReset.Proofs.Event.Stay
import AutoReset.Proofs.Event.Tenants
/-!
# Events at rest in order

An event at rest is in order if its latch is in balance and all that sleep are waits
(`AutoReset.Cell.InOrder`). A new event is, and whatever is done to an event in order leaves it so,
be it that it ends in a fault (`AutoReset.Attempt.Keeps`).

On an event in order a signal does one of three things (`AutoReset.System.enter_signal`). It is
refused because the counter of signals is full; or the call that has slept longest consumes it; or
nobody sleeps, and the signal stays. Then whoever tries next consumes it
(`AutoReset.System.enter_tryWait`).
-/

namespace AutoReset

/-! ### What stays true -/

namespace Attempt

variable {σ α β : Type} {P : σ → Prop} {x : Attempt σ α}

/-- **Is something as true after an attempt as before**, be it that the attempt ends in a
fault? -/
def Keeps (P : σ → Prop) (x : Attempt σ α) : Prop := ∀ s, P s → P (x.after s)

theorem Keeps.pure (a : α) : Keeps P (pure a : Attempt σ α) := fun _ h => h

theorem Keeps.bind {g : α → Attempt σ β} (hx : Keeps P x) (hg : ∀ a, Keeps P (g a)) :
    Keeps P (x >>= g) := by
  intro s h
  have hs := hx s h
  rw [after_bind]
  unfold after at hs
  cases hxs : x s with
  | ok a s₁ =>
    rw [hxs] at hs
    exact hg a s₁ hs
  | error f s₁ =>
    rw [hxs] at hs
    exact hs

theorem Keeps.map (g : α → β) (hx : Keeps P x) : Keeps P (g <$> x) := by
  intro s h
  rw [after_map]
  exact hx s h

theorem Leaves.keeps {τ : Type} {f : σ → τ} (hx : Leaves f x)
    (hP : ∀ {s s'}, f s' = f s → P s → P s') : Keeps P x :=
  fun s h => hP (hx s) h

end Attempt

open Attempt

/-! ### Stays inside the lock -/

namespace Call

variable {l l' : Latch} {c : Call} {r : Reply} {since now : Instant}

theorem Answers.balanced (h : Answers since now l c r l') (hb : l.Balanced) : l'.Balanced := by
  cases h with
  | take _ hs => exact hb.taken hs
  | expire _ _ _ _ => exact hb.expired
  | _ => exact hb

/-- **A stay keeps the balance**, and only waits go to sleep. -/
theorem inside_keeps (c : Call) (since now : Instant) (hb : l.Balanced) :
    ((c.inside since now).after l).Balanced ∧
      ∀ b l', c.inside since now l = .ok (.sleep b) l' → c.waits = true := by
  unfold after
  rcases inside_cases since now hb c with
    ⟨-, hp, heq⟩ | ⟨b, -, hbound, heq⟩ | ⟨r, l', hanswers, -, heq⟩ | ⟨-, heq⟩
  · rw [heq]
    exact ⟨hb.posted hp, nofun⟩
  · rw [heq]
    exact ⟨hb, fun _ _ _ => waits_of_bound? hbound⟩
  · rw [heq]
    exact ⟨(hanswers true).balanced hb, nofun⟩
  · rw [heq]
    exact ⟨hb, nofun⟩

/-- **A wait that finds a signal consumes it.** -/
theorem inside_of_signaled (since now : Instant) (hc : c.waits = true) (hb : l.Balanced)
    (hs : l.signaled = true) :
    c.inside since now l = .ok (.answer .done) l.taken := by
  cases c with
  | wait => rw [inside_wait since now hb, hs, if_pos rfl]
  | waitTimeout d => rw [inside_waitTimeout since now hb, hs, if_pos rfl]
  | _ => cases hc

end Call

/-! ### Events -/

namespace Cell

/-- **An event at rest is in order**: its latch is in balance, and all that sleep are waits. -/
structure InOrder (c : Cell) : Prop where
  /-- The latch is in balance. -/
  balanced : c.latch.Balanced
  /-- All that sleep are waits. -/
  waits : ∀ s ∈ c.sleepers, s.call.waits = true

theorem inOrder_fresh (o : Origin) : (fresh o).InOrder where
  balanced := Latch.balanced_fresh
  waits := List.forall_mem_nil _

variable {c : Cell} {call : Call} {since now : Instant}

/-- A stay inside the lock leaves the event in order, and so does the sleep after it. -/
theorem InOrder.onLatch_inside (h : c.InOrder) (call : Call) (since now : Instant) :
    ((onLatch (call.inside since now)).after c).InOrder ∧
      ∀ b c', onLatch (call.inside since now) c = .ok (.sleep b) c' → call.waits = true := by
  obtain ⟨hb, hsleep⟩ := call.inside_keeps since now h.balanced
  unfold after at hb ⊢
  unfold onLatch
  cases hin : call.inside since now c.latch with
  | ok v l =>
    rw [hin] at hb
    refine ⟨⟨hb, h.waits⟩, fun b c' heq => ?_⟩
    cases heq
    exact hsleep b l hin
  | error f l =>
    rw [hin] at hb
    exact ⟨⟨hb, h.waits⟩, nofun⟩

theorem InOrder.lull (h : c.InOrder) {s : Sleeper} (hs : s.call.waits = true) :
    ((lull s).after c).InOrder := by
  refine ⟨h.balanced, fun s' hs' => ?_⟩
  rcases List.mem_append.mp hs' with hs' | hs'
  · exact h.waits s' hs'
  · rwa [List.mem_singleton.mp hs']

theorem keeps_resume {s : Sleeper} (hs : s.call.waits = true) (now : Instant) :
    Keeps InOrder (resume s now) := by
  refine Keeps.bind (fun c h => (h.onLatch_inside s.call s.since now).1) fun v => ?_
  cases v with
  | answer r => exact .pure _
  | announce => exact .pure _
  | sleep b => exact Keeps.bind (fun c h => h.lull hs) fun _ => .pure _

/-- Some of those that sleep can go away. -/
theorem InOrder.of_sublist (h : c.InOrder) {rest : List Sleeper} (hrest : rest ⊆ c.sleepers) :
    ({ c with sleepers := rest } : Cell).InOrder :=
  ⟨h.balanced, fun s hs => h.waits s (hrest hs)⟩

theorem keeps_wakeLongest (now : Instant) : Keeps InOrder (wakeLongest now) := by
  intro c h
  rw [wakeLongest, after_bind, Attempt.get_apply]
  dsimp only
  cases hs : c.sleepers with
  | nil => exact h
  | cons s rest =>
    have hrest : rest ⊆ c.sleepers := hs ▸ List.subset_cons_self ..
    have hwaits := h.waits s (hs ▸ List.mem_cons_self)
    exact ((keeps_resume hwaits now).bind fun _ => .pure _) _ (h.of_sublist hrest)

theorem keeps_enter (call : Call) (now : Instant) : Keeps InOrder (enter call now) := by
  intro c h
  obtain ⟨hafter, hsleep⟩ := h.onLatch_inside call now now
  rw [enter, after_bind]
  unfold after at hafter
  cases hon : onLatch (call.inside now now) c with
  | error f c' =>
    rw [hon] at hafter
    exact hafter
  | ok v c' =>
    rw [hon] at hafter
    cases v with
    | answer r => exact hafter
    | announce => exact ((keeps_wakeLongest now).bind fun _ => .pure _) c' hafter
    | sleep b => exact hafter.lull (s := ⟨call, now⟩) (hsleep b c' hon)

theorem keeps_expire (now : Instant) : Keeps InOrder (expire now) := by
  intro c h
  rw [expire, after_bind, Attempt.get_apply]
  dsimp only
  cases hs : c.sleepers.getLast? with
  | none => exact h
  | some s =>
    have hwaits := h.waits s (List.mem_of_getLast? hs)
    exact keeps_resume hwaits now _ (h.of_sublist (List.dropLast_subset _))

end Cell

/-! ### Systems -/

namespace System

/-- **Are all events of a system in order?** -/
def InOrder (s : System) : Prop := ∀ a c, s.cell? a = some c → c.InOrder

theorem inOrder_empty : empty.InOrder := nofun

variable {s : System} {a : Address} {c : Cell}

theorem InOrder.place (h : s.InOrder) (hc : c.InOrder) : (s.place a (some c)).InOrder := by
  intro b c' hc'
  by_cases hb : b = a
  · subst hb
    rw [cell?_place_self] at hc'
    cases hc'
    exact hc
  · rw [cell?_place_of_ne _ _ hb] at hc'
    exact h b c' hc'

theorem InOrder.of_cells {s' : System} (h : s.InOrder)
    (hcells : ∀ b c, s'.cell? b = some c → s.cell? b = some c) : s'.InOrder :=
  fun b c hc => h b c (hcells b c hc)

theorem keeps_onCell {α : Type} {x : Attempt Cell α} (hx : Keeps Cell.InOrder x) (a : Address) :
    Keeps InOrder (onCell a x) := by
  intro s h
  rw [after_onCell]
  cases hc : s.cell? a with
  | none => exact h
  | some c => exact h.place (hx c (h a c hc))

theorem keeps_log (r : Record) : Keeps InOrder (log r) := by
  refine Leaves.keeps (f := System.cells) (fun s => ?_) fun hcells h b c hc =>
    h b c ((congrFun hcells b).symm.trans hc)
  simp only [after, log]
  cases s.logger.put r <;> rfl

theorem keeps_logTimeout (since now : Instant) (r : Option Reply) :
    Keeps InOrder (logTimeout since now r) := by
  unfold logTimeout
  split
  · exact keeps_log _
  · exact .pure _

theorem keeps_enter (now : Instant) (a : Address) (call : Call) :
    Keeps InOrder (enter now a call) := by
  refine (keeps_onCell (Cell.keeps_enter call now) a).bind fun p => ?_
  cases p with
  | none => exact .pure _
  | some p => exact (keeps_logTimeout _ _ _).bind fun _ => .pure _

theorem keeps_run (now : Instant) (e : Entry) : Keeps InOrder (System.run now e) := by
  cases e with
  | call a c => exact keeps_enter now a c
  | skip r => exact .pure _

theorem keeps_waitPatiently (patience : Duration) (now : Instant) (a : Address)
    (timeout : Duration) : Keeps InOrder (waitPatiently patience now a timeout) := by
  unfold waitPatiently
  split
  · refine (keeps_enter now a _).bind fun p => ?_
    cases p.reply with
    | some r => exact .pure _
    | none =>
      exact (keeps_onCell (Cell.keeps_expire _) a).bind fun _ =>
        (keeps_logTimeout _ _ _).bind fun _ => .pure _
  · exact (keeps_enter now a _).bind fun _ => .pure _

theorem keeps_create (policy : Placement) (o : Origin) : Keeps InOrder (create policy o) := by
  have hask : Keeps InOrder (modifyGet (askMemory policy o)) := by
    intro s h
    obtain ⟨r, h', hask, -⟩ := s.grants_askMemory policy o
    refine h.of_cells fun b c hc => ?_
    have hsame : (s.askMemory policy o).2.cell? b = some c := hc
    rwa [hask] at hsame
  refine hask.bind fun r => ?_
  cases r with
  | none => exact (keeps_log _).bind fun _ => .pure _
  | some a =>
    have hplace : Keeps InOrder (modify fun s => s.place a (some (.fresh o))) :=
      fun s h => h.place (Cell.inOrder_fresh o)
    exact hplace.bind fun _ => (keeps_log _).bind fun _ => .pure _

/-! ### A signal, and who consumes it -/

/-- **A signal is refused, or handed over, or stays**: the counter of signals is full, or the call
that has slept longest consumes it, or nobody sleeps. -/
theorem enter_signal (hcell : s.cell? a = some c) (hc : c.InOrder) (now : Instant) :
    enter now a .signal s =
      if c.latch.stats.posts = Counter.last then .error .counterOverflow (s.place a (some c))
      else
        match c.sleepers with
        | [] => .ok ⟨some .done, none⟩ (s.place a (some { c with latch := c.latch.posted }))
        | sleeper :: rest =>
          .ok ⟨some .done, some (sleeper, .done)⟩
            (s.place a (some { c with latch := c.latch.posted.taken, sleepers := rest })) := by
  simp only [enter, Attempt.bind_apply, onCell, hcell, Cell.enter, Cell.onLatch,
    Call.inside_signal now now hc.balanced]
  by_cases hp : c.latch.stats.posts = Counter.last
  · simp only [if_pos hp]
  · simp only [if_neg hp, Attempt.bind_apply, Cell.wakeLongest, Attempt.get_apply]
    cases hs : c.sleepers with
    | nil => rfl
    | cons sleeper rest =>
      have hin := Call.inside_of_signaled sleeper.since now
        (hc.waits sleeper (hs ▸ List.mem_cons_self)) (hc.balanced.posted hp) rfl
      simp only [Attempt.bind_apply, Attempt.modify_apply, Cell.resume, Cell.onLatch, hin]
      rfl

/-- **Whoever tries where there is a signal consumes it**, whoever sleeps. -/
theorem enter_tryWait (hcell : s.cell? a = some c) (hc : c.InOrder)
    (hs : c.latch.signaled = true) (now : Instant) :
    enter now a .tryWait s =
      .ok ⟨some (.flag true), none⟩ (s.place a (some { c with latch := c.latch.taken })) := by
  simp only [enter, Attempt.bind_apply, onCell, hcell, Cell.enter, Cell.onLatch,
    Call.inside_tryWait now now hc.balanced, hs, if_true]
  rfl

end System

end AutoReset
