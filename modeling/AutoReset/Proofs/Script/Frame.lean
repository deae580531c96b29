import AutoReset.Proofs.Script.Likeness
/-!
# What an operation touches

A call on an event, and its release, leave every other event as it is, and so does a creation:
memory is found where no event stands. That is what events share nothing but their memory and
the logger means.

Allocators are shared too. Of an allocator nothing is told by its answers but which requests it
refuses and how many it had: its **schedule** (`AutoReset.System.schedule`). Calls and releases
leave the schedules as they are, and what a creation does to them does not depend on its outcome.
So as long as the memory of the system does not run out, a request is refused by its number
alone (`AutoReset.System.isSome_askMemory`).
-/

namespace AutoReset

/-- The schedules after a request to this origin. -/
def Origin.onSchedule (t : List (FailurePlan × Nat)) :
    Origin → List (FailurePlan × Nat)
  | .system => t
  | .ledger k => t.modify k fun p => (p.1, p.2 + 1)

/-- Is the next request to this origin granted, as long as there is memory? -/
def Origin.grants (t : List (FailurePlan × Nat)) : Origin → Bool
  | .system => true
  | .ledger k => t[k]?.any fun p => !p.1.fails p.2

theorem Heap.alloc_fst (policy : Placement) (layout : Layout) (h : Heap) :
    (h.alloc policy layout).1 = policy.place h.past h.live layout := by
  unfold Heap.alloc
  cases policy.place h.past h.live layout <;> rfl

namespace System

open Attempt

/-! ### Other events -/

section Cells

variable {a b : Address}

theorem cell?_log (r : Record) : Leaves (fun s => s.cell? b) (log r) := by
  intro s
  simp only [after, log]
  cases s.logger.put r <;> rfl

theorem cell?_onCell_of_ne (h : b ≠ a) {α : Type} (x : Attempt Cell α) :
    Leaves (fun s => s.cell? b) (onCell a x) := by
  intro s
  simp only [after_onCell]
  cases s.cell? a with
  | none => rfl
  | some c => exact cell?_place_of_ne _ _ h

theorem cell?_logTimeout (since now : Instant) (r : Option Reply) :
    Leaves (fun s => s.cell? b) (logTimeout since now r) := by
  unfold logTimeout
  split
  · exact cell?_log _
  · exact .pure _

theorem cell?_enter_of_ne (h : b ≠ a) (now : Instant) (c : Call) :
    Leaves (fun s => s.cell? b) (enter now a c) := by
  refine (cell?_onCell_of_ne h _).bind fun p => ?_
  cases p with
  | none => exact .pure _
  | some p => exact (cell?_logTimeout _ _ _).bind fun _ => .pure _

theorem cell?_waitPatiently_of_ne (h : b ≠ a) (patience : Duration) (now : Instant)
    (timeout : Duration) : Leaves (fun s => s.cell? b) (waitPatiently patience now a timeout) := by
  unfold waitPatiently
  split
  · refine (cell?_enter_of_ne h now _).bind fun p => ?_
    cases p.reply with
    | some r => exact .pure _
    | none =>
      exact (cell?_onCell_of_ne h _).bind fun _ => (cell?_logTimeout _ _ _).bind fun _ => .pure _
  · exact (cell?_enter_of_ne h now _).bind fun _ => .pure _

/-- **A call on one event leaves every other as it is.** -/
theorem cell?_run_of_ne {x : Option Address} (h : x ≠ some b) (now : Instant) (c : Call)
    (otherwise : Reply) :
    Leaves (fun s => s.cell? b) (System.run now (.reach x c otherwise)) := by
  cases x with
  | none => exact .pure _
  | some a => exact cell?_enter_of_ne (fun hba => h (congrArg some hba.symm)) now c

theorem cell?_giveBack (o : Origin) (s : System) : (s.giveBack o a).cell? b = s.cell? b := by
  cases o with
  | system => rfl
  | ledger k =>
    cases hk : s.ledger? k with
    | none => simp only [giveBack, hk]
    | some l =>
      simp only [giveBack, hk]
      rfl

/-- **A release takes one event away.** -/
theorem cell?_after_release (a b : Address) (s : System) :
    ((release a).after s).cell? b = if b = a then none else s.cell? b := by
  rw [release, after_bind, get_apply]
  cases hc : s.cell? a with
  | none =>
    simp only [hc]
    split
    · next hb => exact hb ▸ hc
    · rfl
  | some c =>
    simp only [hc]
    refine (cell?_log _ _).trans ((cell?_giveBack c.origin _).trans ?_)
    split
    · next hb =>
      rw [hb]
      exact cell?_place_self ..
    · next hb => exact cell?_place_of_ne _ _ hb

theorem cell?_askMemory (policy : Placement) (o : Origin) (s : System) :
    (s.askMemory policy o).2.cell? b = s.cell? b := by
  obtain ⟨r, h', hask, -⟩ := s.grants_askMemory policy o
  rw [hask]
  rfl

/-- **A creation puts one event in its place**, if there is memory for it. -/
theorem cell?_after_create (policy : Placement) (o : Origin) {s : System} (h : s.Unarmed)
    (b : Address) :
    ((create policy o).after s).cell? b =
      if (s.askMemory policy o).1 = some b then some (.fresh o) else s.cell? b := by
  rw [after, create_of_unarmed h]
  cases hr : (s.askMemory policy o).1 with
  | none =>
    rw [if_neg (Option.some_ne_none b).symm]
    exact cell?_askMemory policy o s
  | some a =>
    by_cases hb : b = a
    · rw [hb, if_pos rfl]
      exact cell?_place_self ..
    · rw [if_neg fun hab => hb (Option.some.inj hab).symm]
      exact (cell?_place_of_ne _ _ hb).trans (cell?_askMemory policy o s)

end Cells

/-! ### Schedules -/

/-- Which requests each allocator refuses, and how many it had. -/
def schedule (s : System) : List (FailurePlan × Nat) :=
  s.ledgers.map fun l => (l.plan, l.attempts)

theorem schedule_of_tenants {s s' : System} (h : s'.tenants = s.tenants) :
    s'.schedule = s.schedule :=
  congrArg (fun t => t.2.1.map fun l => (l.plan, l.attempts)) h

theorem schedule_giveBack (o : Origin) (a : Address) (s : System) :
    (s.giveBack o a).schedule = s.schedule := by
  cases o with
  | system => rfl
  | ledger k =>
    cases hk : s.ledger? k with
    | none => simp only [giveBack, hk]
    | some l =>
      have hl : ((l.dealloc a Cell.layout s.heap).1.plan,
          (l.dealloc a Cell.layout s.heap).1.attempts) = (l.plan, l.attempts) := by
        unfold Ledger.dealloc
        split <;> rfl
      simp only [giveBack, hk, schedule, List.map_set, hl]
      refine List.ext_getElem? fun i => ?_
      rw [List.getElem?_set]
      split
      · next hi =>
        subst hi
        rw [List.getElem?_map, show s.ledgers[k]? = some l from hk]
        rw [List.length_map, if_pos (List.getElem?_eq_some_iff.mp hk).1]
        rfl
      · rfl

theorem schedule_release (a : Address) : Leaves schedule (release a) := by
  refine Leaves.get.bind fun s => ?_
  cases s.cell? a with
  | none => exact .pure _
  | some c =>
    exact Leaves.bind (fun s => schedule_giveBack c.origin a _) fun _ s =>
      schedule_of_tenants (tenants_log _ s)

/-- **What a creation does to the schedules** does not depend on what comes of it. -/
theorem schedule_after_create (policy : Placement) (o : Origin) (s : System) :
    ((create policy o).after s).schedule = o.onSchedule s.schedule := by
  obtain ⟨r, h', hask, -⟩ := s.grants_askMemory policy o
  have hcredit : (o.onLedger (·.credit Cell.layout r) s.ledgers).map
      (fun l => (l.plan, l.attempts)) = o.onSchedule s.schedule := by
    cases o with
    | system => rfl
    | ledger k =>
      refine List.ext_getElem? fun i => ?_
      simp only [Origin.onLedger, Origin.onSchedule, schedule, List.getElem?_map,
        List.getElem?_modify]
      cases s.ledgers[i]? with
      | none => rfl
      | some l =>
        simp only [Option.map_some]
        split <;> rfl
  have htenants := Accounts.tenants_after_create policy o s
  rw [hask] at htenants
  rw [← hcredit]
  cases r with
  | none => exact schedule_of_tenants htenants
  | some a => exact schedule_of_tenants htenants

/-- **As long as there is memory**, a request is refused by its number alone. -/
theorem isSome_askMemory {policy : Placement} {s : System} (o : Origin)
    (hroom : (policy.place s.heap.past s.heap.live Cell.layout).isSome) :
    (s.askMemory policy o).1.isSome = o.grants s.schedule := by
  cases o with
  | system =>
    show (s.heap.alloc policy Cell.layout).1.isSome = true
    rw [Heap.alloc_fst, hroom]
  | ledger k =>
    have hschedule : s.schedule[k]? = (s.ledger? k).map fun l => (l.plan, l.attempts) :=
      List.getElem?_map ..
    rw [Origin.grants, hschedule]
    cases hk : s.ledger? k with
    | none =>
      simp only [askMemory, hk]
      rfl
    | some l =>
      simp only [askMemory, hk, Option.map_some, Option.any_some, Ledger.alloc]
      cases l.plan.fails l.attempts with
      | true => rfl
      | false =>
        obtain ⟨a, ha⟩ := Option.isSome_iff_exists.mp hroom
        simp only [Heap.alloc, ha]
        rfl

end System

namespace Script

/-! ### Calls on what a variable refers to -/

section Calls

variable {setting : Setting} {s : Step} {x : Variable} {y : Attempt System Answer}

/-- A call leaves the memory, the allocators and the origin of every event as they are. -/
theorem Step.tenants_call? (h : s.call? setting x = some y) :
    Attempt.Leaves System.tenants y := by
  intro t
  cases s <;> rcases x with o | k <;> cases h <;> rw [Attempt.after_map]
  case waitTimeout.owner.refl => exact System.tenants_waitPatiently _ _ _ _ _
  all_goals exact System.tenants_run _ _ _

/-- **A call leaves every other event as it is.** -/
theorem Step.cell?_call? {b : Address} (hb : x.address? ≠ some b)
    (h : s.call? setting x = some y) : Attempt.Leaves (fun t => t.cell? b) y := by
  intro t
  cases s with
  | isSignaled v =>
    rcases x with o | k <;> cases h
    rw [Attempt.after_map]
    exact System.cell?_enter_of_ne (fun hbo => hb (congrArg some hbo.symm)) _ _ _
  | signal v via =>
    cases h
    rw [Attempt.after_map, Variable.signal_eq]
    exact System.cell?_run_of_ne hb _ _ _ _
  | wait v via =>
    cases h
    rw [Attempt.after_map, Variable.wait_eq]
    exact System.cell?_run_of_ne hb _ _ _ _
  | tryWait v =>
    cases h
    rw [Attempt.after_map, Variable.tryWait_eq]
    exact System.cell?_run_of_ne hb _ _ _ _
  | waitTimeout v timeout =>
    rcases x with o | k <;> cases h
    rw [Attempt.after_map]
    exact System.cell?_waitPatiently_of_ne (fun hbo => hb (congrArg some hbo.symm)) _ _ _ _
  | _ => cases h

end Calls

/-! ### What makes way -/

namespace World

variable (w : World) (v : String) (x : Variable)

theorem owned?_eq_some_iff {w : World} {v : String} {a : Address} :
    w.owned? v = some a ↔ w.vars.get? v = some (.owner ⟨a⟩) := by
  rw [owned?]
  rcases w.vars.get? v with _ | ⟨⟨b⟩⟩ | k <;> simp [Variable.owned?]

/-- The event of an owner that makes way is gone, and the others are there. -/
theorem cell?_displaced (b : Address) :
    (w.displaced v x).cell? b =
      if w.owned? v = some b ∧ x.address? ≠ some b then none else w.system.cell? b := by
  rw [displaced]
  cases ho : w.owned? v with
  | none => simp
  | some a =>
    simp only [ne_eq, Option.some.injEq]
    by_cases hx : x.address? = some a
    · rw [if_neg (not_not_intro hx), if_neg]
      rintro ⟨rfl, hne⟩
      exact hne hx
    · rw [if_pos hx, System.cell?_after_release]
      by_cases hb : b = a
      · subst hb
        rw [if_pos rfl, if_pos ⟨rfl, hx⟩]
      · rw [if_neg hb, if_neg fun h => hb h.1.symm]

theorem schedule_displaced : (w.displaced v x).schedule = w.system.schedule := by
  rw [displaced]
  cases w.owned? v with
  | none => rfl
  | some a =>
    dsimp only
    split
    · exact System.schedule_release a w.system
    · rfl

end World

/-! ### Schedules over a step -/

section Steps

variable {setting : Setting} {w w' : World} {s : Step} {answer : Answer}

/-- **A step that creates nothing leaves the schedules as they are.** -/
theorem Step.Change.schedule (h : s.Change setting w w') :
    w'.allocators = w.allocators ∧ w'.system.schedule = w.system.schedule := by
  cases h with
  | look => exact ⟨rfl, rfl⟩
  | call hv hx hy => exact ⟨rfl, System.schedule_of_tenants (Step.tenants_call? hy _)⟩
  | null v source => exact ⟨rfl, w.schedule_displaced ..⟩
  | copy via hk => exact ⟨rfl, w.schedule_displaced ..⟩
  | @delete v x via hx =>
    cases x.address? with
    | none => exact ⟨rfl, rfl⟩
    | some a => exact ⟨rfl, System.schedule_release a w.system⟩
  | intoHandle ho => exact ⟨rfl, rfl⟩
  | intoOwner hk ha => exact ⟨rfl, rfl⟩
  | intoNothing hk => exact ⟨rfl, rfl⟩

end Steps

end Script

end AutoReset
