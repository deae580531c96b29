import AutoReset.Proofs.Script.Effect
/-!
# Systems that cannot be told apart

Two systems can differ in what no operation looks at: in the records that were taken in, say,
or in how often an allocator was asked. A relation between systems is a **congruence**
(`AutoReset.System.Congruence`) if they have the same events, and if memory that is asked for
or given back, an event that is put in its place, and a record that is made have the same
outcome in both and leave them related.

Then nothing that a script does tells them apart either. What comes of a creation, a release or
a call is the same in both (`AutoReset.Attempt.Blind`), so each step has the same answer
(`AutoReset.Script.Step.blind`), and a script that runs to its end from one of them does so
from the other, step by step alike (`AutoReset.Script.World.Like.run`).

Every system is related to itself as long as the log sink is not armed to fail. That this is a
congruence says that no step arms it but the one that is there to do so
(`AutoReset.System.congruence_unarmed`).
-/

namespace AutoReset

/-! ### Attempts that do not see the difference -/

namespace Attempt

variable {σ α β : Type} {R : σ → σ → Prop} {x y : Attempt σ α}

/-- Have two attempts the same outcome in states that are related, and do they leave them
related, be it that they end in a fault? -/
def Alike (R : σ → σ → Prop) (x y : Attempt σ α) : Prop :=
  ∀ ⦃s s'⦄, R s s' → y.outcome s' = x.outcome s ∧ R (x.after s) (y.after s')

/-- An attempt that does not tell states apart that are related. -/
abbrev Blind (R : σ → σ → Prop) (x : Attempt σ α) : Prop := Alike R x x

theorem Alike.pure (a : α) : Alike R (pure a : Attempt σ α) (pure a) := fun _ _ h => ⟨rfl, h⟩

theorem Alike.modify {f g : σ → σ} (hf : ∀ {s s'}, R s s' → R (f s) (g s')) :
    Alike R (modify f : Attempt σ Unit) (modify g) :=
  fun _ _ h => ⟨rfl, hf h⟩

theorem Alike.bind {f g : α → Attempt σ β} (hx : Alike R x y) (hfg : ∀ a, Alike R (f a) (g a)) :
    Alike R (x >>= f) (y >>= g) := by
  intro s s' h
  obtain ⟨hout, hafter⟩ := hx h
  simp only [outcome, after] at hout hafter
  simp only [outcome, after, bind_apply]
  cases hs : x s with
  | ok a s₁ =>
    cases hs' : y s' with
    | ok a' s₁' =>
      rw [hs, hs'] at hout hafter
      cases hout
      exact hfg a hafter
    | error f s₁' =>
      rw [hs, hs'] at hout
      cases hout
  | error f s₁ =>
    cases hs' : y s' with
    | ok a' s₁' =>
      rw [hs, hs'] at hout
      cases hout
    | error f' s₁' =>
      rw [hs, hs'] at hout hafter
      cases hout
      exact ⟨rfl, hafter⟩

theorem Alike.map (g : α → β) (hx : Alike R x y) : Alike R (g <$> x) (g <$> y) := by
  rw [map_eq_pure_bind, map_eq_pure_bind]
  exact hx.bind fun _ => .pure _

end Attempt

namespace System

open Attempt

/-! ### Calls on two events that are the same -/

/-- **A relation between systems in which the event at one address is that at another one.** -/
structure Paired (R : System → System → Prop) (a a' : Address) : Prop where
  /-- The events are the same. -/
  cell : ∀ {s s'}, R s s' → s'.cell? a' = s.cell? a
  /-- The same can be done to both. -/
  place : ∀ {s s'}, R s s' → ∀ c, R (s.place a c) (s'.place a' c)
  /-- A record is made in both, or in neither. -/
  log : ∀ r, Blind R (log r)

namespace Paired

variable {R : System → System → Prop} {a a' : Address}

theorem onCell (h : Paired R a a') {α : Type} (x : Attempt Cell α) :
    Alike R (onCell a x) (onCell a' x) := by
  intro s s' hs
  simp only [System.onCell, outcome, after]
  rw [h.cell hs]
  cases s.cell? a with
  | none => exact ⟨rfl, hs⟩
  | some c =>
    cases hx : x c with
    | ok r c' =>
      simp only [hx]
      exact ⟨trivial, h.place hs _⟩
    | error f c' =>
      simp only [hx]
      exact ⟨trivial, h.place hs _⟩

theorem logTimeout (h : Paired R a a') (since now : Instant) (r : Option Reply) :
    Blind R (logTimeout since now r) := by
  unfold System.logTimeout
  split
  · exact h.log _
  · exact .pure _

theorem enter (h : Paired R a a') (now : Instant) (c : Call) :
    Alike R (enter now a c) (enter now a' c) := by
  refine (h.onCell _).bind fun p => ?_
  cases p with
  | none => exact .pure _
  | some p => exact (h.logTimeout ..).bind fun _ => .pure _

theorem waitPatiently (h : Paired R a a') (patience : Duration) (now : Instant)
    (timeout : Duration) :
    Alike R (waitPatiently patience now a timeout) (waitPatiently patience now a' timeout) := by
  unfold System.waitPatiently
  split
  · refine (h.enter now _).bind fun p => ?_
    cases p.reply with
    | some r => exact .pure _
    | none => exact (h.onCell _).bind fun _ => (h.logTimeout ..).bind fun _ => .pure _
  · exact (h.enter now _).bind fun _ => .pure _

end Paired

/-! ### Everything that is done to a system -/

/-- **A relation between systems that no operation sees through.** -/
structure Congruence (policy : Placement) (R : System → System → Prop) : Prop where
  /-- The events are the same. -/
  cell : ∀ {s s'}, R s s' → ∀ a, s'.cell? a = s.cell? a
  /-- An event can be put in its place in both. -/
  place : ∀ {s s'}, R s s' → ∀ a c, R (s.place a c) (s'.place a c)
  /-- A record is made in both, or in neither. -/
  log : ∀ r, Blind R (log r)
  /-- Memory is found at the same place. -/
  ask : ∀ {s s'}, R s s' → ∀ o, (s'.askMemory policy o).1 = (s.askMemory policy o).1 ∧
    R (s.askMemory policy o).2 (s'.askMemory policy o).2
  /-- Memory can be given back in both. -/
  giveBack : ∀ {s s'}, R s s' → ∀ o a, R (s.giveBack o a) (s'.giveBack o a)
  /-- A new allocator has the same number. -/
  setUp : ∀ plan, Blind R (setUp plan)

namespace Congruence

variable {policy : Placement} {R : System → System → Prop}

theorem paired (h : Congruence policy R) (a : Address) : Paired R a a where
  cell := fun hs => h.cell hs a
  place := fun hs => h.place hs a
  log := h.log

theorem create (h : Congruence policy R) (o : Origin) : Blind R (create policy o) := by
  have hask : Blind R (modifyGet (askMemory policy o)) := by
    intro s s' hs
    obtain ⟨hout, hafter⟩ := h.ask hs o
    exact ⟨congrArg Except.ok hout, hafter⟩
  refine hask.bind fun r => ?_
  cases r with
  | none => exact (h.log _).bind fun _ => .pure _
  | some a =>
    exact (Alike.modify fun hs => h.place hs a _).bind fun _ => (h.log _).bind fun _ => .pure _

theorem release (h : Congruence policy R) (a : Address) : Blind R (release a) := by
  intro s s' hs
  have hcell := h.cell hs a
  simp only [System.release, outcome, after, bind_apply, get_apply]
  rw [hcell]
  cases s.cell? a with
  | none => exact ⟨rfl, hs⟩
  | some c => exact h.log _ (h.giveBack (h.place hs a none) c.origin a)

theorem run (h : Congruence policy R) (now : Instant) (e : Entry) :
    Blind R (System.run now e) := by
  cases e with
  | call a c => exact (h.paired a).enter now c
  | skip r => exact .pure _

end Congruence

end System

namespace Script

/-! ### Parts of a script that do not see the difference -/

/-- **Worlds with the same names and variables**, over systems that are related. -/
structure World.Like (R : System → System → Prop) (w w' : World) : Prop where
  /-- The systems are related. -/
  system : R w.system w'.system
  /-- The variables hold the same. -/
  vars : w'.vars = w.vars
  /-- The names of allocators mean the same. -/
  allocators : w'.allocators = w.allocators

section Like

variable {R : System → System → Prop} {w w' : World}

/-- The variables can be changed in both. -/
theorem World.Like.onVars (h : w.Like R w') (f : Table Variable → Table Variable) :
    World.Like R { w with vars := f w.vars } { w' with vars := f w'.vars } :=
  ⟨h.system, congrArg f h.vars, h.allocators⟩

/-- The names of allocators can be changed in both. -/
theorem World.Like.onAllocators (h : w.Like R w') (f : Table Nat → Table Nat) :
    World.Like R { w with allocators := f w.allocators }
      { w' with allocators := f w'.allocators } :=
  ⟨h.system, h.vars, congrArg f h.allocators⟩

end Like

/-- Does a part of a script that runs in one of two like worlds run in the other one, come to
the same, and leave them alike? -/
def Act.Blind {α : Type} (R : System → System → Prop) (x : Act α) : Prop :=
  ∀ ⦃w w' : World⦄ ⦃a : α⦄ ⦃w₁ : World⦄, w.Like R w' → x w = .ok (a, w₁) →
    ∃ w₁', x w' = .ok (a, w₁') ∧ w₁.Like R w₁'

namespace Act

variable {α β : Type} {R : System → System → Prop}

theorem Blind.pure (a : α) : Blind R (pure a : Act α) := by
  intro w w' b w₁ h hrun
  cases hrun
  exact ⟨w', rfl, h⟩

theorem Blind.bind {x : Act α} {f : α → Act β} (hx : Blind R x) (hf : ∀ a, Blind R (f a)) :
    Blind R (x >>= f) := by
  intro w w' b w₂ h hrun
  obtain ⟨a, w₁, hfirst, hrest⟩ := bind_eq_ok.mp hrun
  obtain ⟨w₁', hfirst', h₁⟩ := hx h hfirst
  obtain ⟨w₂', hrest', h₂⟩ := hf a h₁ hrest
  exact ⟨w₂', bind_eq_ok.mpr ⟨a, w₁', hfirst', hrest'⟩, h₂⟩

/-- Names and variables can be changed in both. -/
theorem Blind.modify {f : World → World} (hf : ∀ {w w'}, w.Like R w' → (f w).Like R (f w')) :
    Blind R (modify f : Act Unit) := by
  intro w w' a w₁ h hrun
  cases hrun
  exact ⟨f w', rfl, hf h⟩

theorem blind_lookup (v : String) : Blind R (lookup v) := by
  intro w w' x w₁ h hrun
  obtain ⟨rfl, hx⟩ := of_lookup hrun
  exact ⟨w', lookup_of_some (h.vars ▸ hx), h⟩

theorem blind_owner (v : String) : Blind R (owner v) := by
  refine (blind_lookup v).bind fun x => ?_
  cases x with
  | owner o => exact .pure _
  | handle k => exact fun w w' a w₁ h hrun => nomatch hrun

theorem blind_handle (v : String) : Blind R (handle v) := by
  refine (blind_lookup v).bind fun x => ?_
  cases x with
  | owner o => exact fun w w' a w₁ h hrun => nomatch hrun
  | handle k => exact .pure _

theorem blind_origin (memory : Source) : Blind R (origin memory) := by
  intro w w' o w₁ h hrun
  obtain ⟨rfl, ho⟩ := of_origin hrun
  refine ⟨w', origin_of_some ?_, h⟩
  rw [← ho]
  cases memory <;> simp only [World.origin?, h.allocators]

theorem blind_perform {y : Attempt System α} (hy : Attempt.Blind R y) : Blind R (perform y) := by
  intro w w' a w₁ h hrun
  rw [perform_apply] at hrun
  cases hrun
  obtain ⟨hout, hafter⟩ := hy h.system
  refine ⟨{ w' with system := y.after w'.system }, ?_, hafter, h.vars, h.allocators⟩
  rw [perform_apply, hout]

end Act

section Steps

variable {R : System → System → Prop} {setting : Setting}

theorem blind_answering {α : Type} {y : Attempt System α} {k : α → Act Answer}
    (hy : Attempt.Blind R y) (hk : ∀ a, Act.Blind R (k a)) : Act.Blind R (answering y k) := by
  refine (Act.blind_perform hy).bind fun outcome => ?_
  cases outcome with
  | ok a => exact hk a
  | error f => exact .pure _

/-- Something can be put into a variable of both. -/
theorem World.Like.assigned (h : System.Congruence setting.policy R) {w w' : World}
    (hw : w.Like R w') (v : String) (x : Variable) : (w.assigned v x).Like R (w'.assigned v x) := by
  refine ⟨?_, congrArg (Table.set · v x) hw.vars, hw.allocators⟩
  simp only [World.assigned, World.displaced, World.owned?, hw.vars]
  cases (w.vars.get? v).bind Variable.owned? with
  | none => exact hw.system
  | some a =>
    dsimp only
    split
    · exact (h.release a hw.system).2
    · exact hw.system

theorem World.Like.hold (h : System.Congruence setting.policy R) {w w' : World}
    (hw : w.Like R w') (v : String) (x : Option Variable) : (w.hold v x).Like R (w'.hold v x) := by
  cases x with
  | none => exact hw
  | some x => exact hw.assigned h v x

theorem blind_assign (h : System.Congruence setting.policy R) (v : String) (x : Variable) :
    Act.Blind R (Act.assign v x) := by
  intro w w' a w₁ hw hrun
  cases (Act.assign_apply v x w).symm.trans hrun
  exact ⟨w'.assigned v x, Act.assign_apply v x w', hw.assigned h v x⟩

theorem blind_holdHandle (h : System.Congruence setting.policy R) (v : String) (k : Handle) :
    Act.Blind R (holdHandle v k) :=
  (blind_assign h v _).bind fun _ => .pure _

theorem blind_forget (a : Address) : Act.Blind R (modify fun w => w.forget a) :=
  .modify fun hw => hw.onVars fun t => t.keep fun x => x.address? ≠ some a

/-- **No step tells like worlds apart**, but for the one that arms the log sink. -/
theorem Step.blind (h : System.Congruence setting.policy R) {s : Step} (hs : s ≠ .armLog) :
    Act.Blind R (s.run setting) := by
  cases s with
  | allocator name plan =>
    refine blind_answering (h.setUp plan) fun number => ?_
    exact (Act.Blind.modify fun hw => hw.onAllocators (·.set name number)).bind fun _ => .pure _
  | armLog => exact absurd rfl hs
  | new v memory =>
    refine (Act.blind_origin memory).bind fun o => ?_
    rw [Owner.create_eq_map]
    refine blind_answering ((h.create o).map _) fun r => ?_
    cases r with
    | ok o => exact (blind_assign h v _).bind fun _ => .pure _
    | error e => exact .pure _
  | create v memory =>
    refine (Act.blind_origin memory).bind fun o => ?_
    rw [Handle.create_eq_map]
    exact blind_answering ((h.create o).map _) fun r => blind_holdHandle h v _
  | createForeign v =>
    show Act.Blind R (answering (Foreign.create setting.policy) _)
    rw [Foreign.create_eq_map, Handle.create_eq_map]
    exact blind_answering (((h.create .system).map _).map _) fun r => blind_holdHandle h v _
  | null v source => exact blind_holdHandle h v _
  | copy v source via => exact (Act.blind_handle source).bind fun k => blind_holdHandle h v _
  | compare v u =>
    exact (Act.blind_handle v).bind fun a => (Act.blind_handle u).bind fun b => .pure _
  | isNull v => exact (Act.blind_handle v).bind fun k => .pure _
  | text v spec =>
    refine (Act.blind_lookup v).bind fun x => ?_
    intro w w' a w₁ hw hrun
    cases hrun
    refine ⟨w', ?_, hw⟩
    have hcell : w'.cell? v = w.cell? v := by
      rw [World.cell?, World.cell?, hw.vars]
      exact congrArg (Option.bind _) (funext (h.cell hw.system))
    rw [← hcell]
    rfl
  | isSignaled v =>
    exact (Act.blind_owner v).bind fun o => blind_answering (h.run _ _) fun p => .pure _
  | signal v via | wait v via | tryWait v =>
    exact (Act.blind_lookup v).bind fun x => blind_answering (h.run _ _) fun p => .pure _
  | waitTimeout v timeout =>
    exact (Act.blind_owner v).bind fun o =>
      blind_answering ((h.paired o.address).waitPatiently ..) fun p => .pure _
  | delete v via =>
    refine (Act.blind_lookup v).bind fun x => ?_
    rw [Variable.delete_eq]
    have hrelease : Attempt.Blind R (System.releaseAt x.address?) := by
      cases x.address? with
      | none => exact .pure _
      | some a => exact h.release a
    refine (Act.blind_perform hrelease).bind fun outcome => ?_
    rcases x.address? with _ | a <;> cases outcome
    · exact (Act.Blind.pure ()).bind fun _ => .pure _
    · exact (Act.Blind.pure ()).bind fun _ => .pure _
    · exact (blind_forget a).bind fun _ => .pure _
    · exact (blind_forget a).bind fun _ => .pure _
  | intoHandle v =>
    refine (Act.blind_owner v).bind fun o => ?_
    exact (Act.Blind.modify fun hw => hw.onVars (·.set v (.handle o.intoHandle))).bind
      fun _ => .pure _
  | intoOwner v =>
    refine (Act.blind_handle v).bind fun k => ?_
    cases k.intoOwner? with
    | none =>
      exact (Act.Blind.modify fun hw => hw.onVars (·.erase v)).bind fun _ => .pure _
    | some o =>
      exact (blind_forget o.address).bind fun _ =>
        (Act.Blind.modify fun hw => hw.onVars (·.set v (.owner o))).bind fun _ => .pure _

end Steps

/-! ### Whole scripts -/

section Runs

variable {R : System → System → Prop} {setting : Setting} {w w' w₁ : World} {steps : List Step}

/-- **A script that runs to its end in one of two like worlds** does so in the other one, and
whatever is true of the reports of two steps between like worlds is true of all of them. -/
theorem World.Like.run (h : System.Congruence setting.policy R) (hw : w.Like R w')
    (hsteps : .armLog ∉ steps) {P : Report → Report → Prop}
    (hP : ∀ {w w' w₁ w₁' : World} s answer, w.Like R w' → w₁.Like R w₁' →
      P (.between s answer w w₁) (.between s answer w' w₁'))
    {rs : List Report} (hrun : reports setting steps w = .ok (rs, w₁)) :
    ∃ rs' w₁', reports setting steps w' = .ok (rs', w₁') ∧ List.Forall₂ P rs rs' ∧
      w₁.Like R w₁' := by
  induction steps generalizing w w' rs with
  | nil =>
    cases hrun
    exact ⟨[], w', rfl, .nil, hw⟩
  | cons s steps ih =>
    obtain ⟨hs, hsteps⟩ := List.ne_and_not_mem_of_not_mem_cons hsteps
    obtain ⟨answer, w₂, rs₁, hstep, hrest, rfl⟩ := exists_of_reports_cons hrun
    obtain ⟨w₂', hstep', hw₂⟩ := Step.blind h hs.symm hw hstep
    obtain ⟨rs', w₁', hrest', hrs, hw₁⟩ := ih hw₂ hsteps hrest
    exact ⟨_, w₁', reports_cons hstep' hrest', .cons (hP s answer hw hw₂) hrs, hw₁⟩

end Runs

end Script

/-! ### A log sink that is not armed -/

/-- The logger after something was put on record, if it is of a level that is taken in. -/
def Logger.noted (l : Logger) (r : Record) : Logger :=
  if l.admits r.level then { l with records := l.records ++ [r] } else l

theorem Logger.put_of_unarmed {l : Logger} (h : l.armed = false) (r : Record) :
    put r l = .ok () (l.noted r) := by
  simp only [put, noted, h, Bool.false_eq_true, if_false]
  split <;> rfl

theorem Logger.armed_noted (l : Logger) (r : Record) : (l.noted r).armed = l.armed := by
  unfold noted
  split <;> rfl

namespace System

open Attempt

/-- The log sink is not armed to fail. -/
def Unarmed (s : System) : Prop := s.logger.armed = false

/-- The system after something was put on record. -/
def noted (s : System) (r : Record) : System := { s with logger := s.logger.noted r }

theorem log_of_unarmed {s : System} (h : s.Unarmed) (r : Record) :
    log r s = .ok () (s.noted r) := by
  rw [log, Logger.put_of_unarmed h]
  rfl

theorem unarmed_noted {s : System} (h : s.Unarmed) (r : Record) : (s.noted r).Unarmed :=
  (Logger.armed_noted ..).trans h

theorem logger_askMemory (policy : Placement) (o : Origin) (s : System) :
    (s.askMemory policy o).2.logger = s.logger := by
  obtain ⟨r, h', hask, -⟩ := s.grants_askMemory policy o
  rw [hask]

theorem logger_giveBack (o : Origin) (a : Address) (s : System) :
    (s.giveBack o a).logger = s.logger := by
  cases o with
  | system => rfl
  | ledger k => cases hk : s.ledger? k <;> simp only [giveBack, hk]

/-- **A log sink that is not armed stays so.** -/
theorem congruence_unarmed (policy : Placement) :
    Congruence policy fun s s' => s' = s ∧ s.Unarmed where
  cell := by
    rintro _ s ⟨rfl, -⟩ a
    rfl
  place := by
    rintro _ s ⟨rfl, hs⟩ a c
    exact ⟨rfl, hs⟩
  log := by
    rintro r _ s ⟨rfl, hs⟩
    rw [after, log_of_unarmed hs]
    exact ⟨rfl, rfl, unarmed_noted hs r⟩
  ask := by
    rintro _ s ⟨rfl, hs⟩ o
    exact ⟨rfl, rfl, (congrArg Logger.armed (s.logger_askMemory policy o)).trans hs⟩
  giveBack := by
    rintro _ s ⟨rfl, hs⟩ o a
    exact ⟨rfl, (congrArg Logger.armed (s.logger_giveBack o a)).trans hs⟩
  setUp := by
    rintro plan _ s ⟨rfl, hs⟩
    exact ⟨rfl, rfl, hs⟩

section Unarmed

variable {s : System} (h : s.Unarmed)
include h

/-- **A creation says where there is memory**, and puts what it found on record. -/
theorem create_of_unarmed (policy : Placement) (o : Origin) :
    create policy o s = .ok (s.askMemory policy o).1
      (match (s.askMemory policy o).1 with
        | none => (s.askMemory policy o).2.noted (.allocationFailed Cell.layout.size)
        | some a => ((s.askMemory policy o).2.place a (some (.fresh o))).noted (.created a)) := by
  have hasked : (s.askMemory policy o).2.Unarmed :=
    (congrArg Logger.armed (s.logger_askMemory policy o)).trans h
  have hask : (modifyGet (askMemory policy o) : Attempt System _) s =
      .ok (s.askMemory policy o).1 (s.askMemory policy o).2 := rfl
  simp only [create, bind_apply, hask]
  cases (s.askMemory policy o).1 with
  | none => simp only [bind_apply, log_of_unarmed hasked, pure_apply]
  | some a =>
    have hplaced : ((s.askMemory policy o).2.place a (some (.fresh o))).Unarmed := hasked
    simp only [bind_apply, modify_apply, log_of_unarmed hplaced, pure_apply]

/-- **A release ends an event**, and puts that on record. -/
theorem release_of_unarmed (a : Address) :
    release a s = .ok () (match s.cell? a with
      | none => s
      | some c => ((s.place a none).giveBack c.origin a).noted (.released a)) := by
  simp only [release, bind_apply, get_apply]
  cases s.cell? a with
  | none => rfl
  | some c =>
    have hback : ((s.place a none).giveBack c.origin a).Unarmed :=
      (congrArg Logger.armed (logger_giveBack c.origin a _)).trans h
    simp only [bind_apply, modify_apply, log_of_unarmed hback]

end Unarmed

end System

namespace Script

/-- **A creation**, as long as the log sink is not armed. -/
theorem Step.run_creation_of_unarmed {setting : Setting} {s : Step} {w : World} {c : Creation}
    {o : Origin} (hc : s.creation? = some c) (ho : w.origin? c.memory = some o)
    (h : w.system.Unarmed) :
    s.run setting w = .ok (c.answer (w.system.askMemory setting.policy o).1,
      (w.afterCreate setting.policy o).hold c.target
        (c.held (w.system.askMemory setting.policy o).1)) := by
  rw [Step.run_of_creation hc ho, Attempt.outcome, System.create_of_unarmed h]

/-- **Without a step that arms it** the log sink stays as it is. -/
theorem Step.unarmed_of_run {setting : Setting} {s : Step} {w w' : World} {answer : Answer}
    (h : w.system.Unarmed) (hs : s ≠ .armLog) (hrun : s.run setting w = .ok (answer, w')) :
    w'.system.Unarmed := by
  obtain ⟨_, -, hlike⟩ :=
    Step.blind (System.congruence_unarmed setting.policy) hs ⟨⟨rfl, h⟩, rfl, rfl⟩ hrun
  exact hlike.system.2

theorem unarmed_of_reports {setting : Setting} {steps : List Step} {w w' : World}
    {rs : List Report} (h : w.system.Unarmed) (hsteps : .armLog ∉ steps)
    (hrun : reports setting steps w = .ok (rs, w')) : w'.system.Unarmed := by
  have hlike : w.Like (fun s s' => s' = s ∧ s.Unarmed) w := ⟨⟨rfl, h⟩, rfl, rfl⟩
  obtain ⟨_, _, -, -, hlike'⟩ := hlike.run (System.congruence_unarmed setting.policy) hsteps
    (P := fun _ _ => True) (fun _ _ _ _ => trivial) hrun
  exact hlike'.system.2

end Script

end AutoReset
