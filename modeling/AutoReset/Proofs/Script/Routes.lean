import AutoReset.Proofs.Script.Likeness
import AutoReset.Proofs.Script.Ownership
/-!
# Three ways to hold an event are one

A script can be rerouted: an event can be held by an owner where another script has a handle
or a bare number, and a step can be made through any variable that refers to the event. Every
now and then an owner has to be turned into a handle for that, or a handle into the owner, or
a handle is copied, as it is or through its number.

Two scripts are compared move by move (`AutoReset.Script.Move`). A move is a step of each of
the two that have the same task (`AutoReset.Script.Step.task`), whichever way the event is
reached; or it is a conversion or a copy in one of the two. Which variables of the two stand
for the same event is written down along the way (`AutoReset.Script.Naming`), and is a matter
of names: two variables that get a new event are paired, and a copy stands for what it is a
copy of. The second script is the first one rerouted (`AutoReset.Script.Reroutes`) if the
variables of each move stand for the same events, and what makes way for something new is the
same in both, or nothing.

To reach an event by its bare number makes no difference at all: with the numbers left out a
script reports the same (`AutoReset.Script.reports_plain`).

The worlds of two such scripts are **twins** (`AutoReset.Script.Twins`): the systems are equal,
and variables that stand for the same event have the same address in them.
-/

namespace AutoReset.Script

deriving instance DecidableEq for FailurePlan

/-! ### What a step is to do -/

/-- **What a step is to do**, whichever way the event is held and reached. -/
inductive Task where
  /-- Set up an allocator. -/
  | allocator (name : String) (plan : FailurePlan)
  /-- Let the log sink fail. -/
  | armLog
  /-- Create an event. -/
  | create (memory : Source)
  /-- Take a null handle. -/
  | null
  /-- Copy a handle. -/
  | copy
  /-- Compare two handles. -/
  | compare
  /-- Look whether a handle is null. -/
  | isNull
  /-- Look whether a signal is pending. -/
  | isSignaled
  /-- Write the text of what a variable holds. -/
  | text (spec : Text.Spec)
  /-- Signal. -/
  | signal
  /-- Wait. -/
  | wait
  /-- Consume a pending signal. -/
  | tryWait
  /-- Wait, but no longer than this. -/
  | waitTimeout (timeout : Duration)
  /-- Release the event. -/
  | delete
  /-- Turn an owner into a handle. -/
  | intoHandle
  /-- Turn a handle into the owner. -/
  | intoOwner
  deriving DecidableEq

namespace Step

/-- The task of a step: the way in which the event is reached is forgotten. -/
def task : Step → Task
  | .allocator name plan => .allocator name plan
  | .armLog => .armLog
  | .new _ memory | .create _ memory => .create memory
  | .createForeign _ => .create .system
  | .null _ _ => .null
  | .copy _ _ _ => .copy
  | .compare _ _ => .compare
  | .isNull _ => .isNull
  | .isSignaled _ => .isSignaled
  | .text _ spec => .text spec
  | .signal _ _ => .signal
  | .wait _ _ => .wait
  | .tryWait _ => .tryWait
  | .waitTimeout _ timeout => .waitTimeout timeout
  | .delete _ _ => .delete
  | .intoHandle _ => .intoHandle
  | .intoOwner _ => .intoOwner

theorem exists_creation {s : Step} {memory : Source} (h : s.task = .create memory) :
    ∃ c, s.creation? = some c ∧ c.memory = memory := by
  cases s with
  | new v m | create v m | createForeign v =>
    cases h
    exact ⟨_, rfl, rfl⟩
  | _ => cases h

/-- The variable that a step has filled, by its answer. -/
def filled? (s : Step) (answer : Answer) : Option String :=
  if answer.holds then s.target? else none

end Step

/-! ### The way in which a handle is used -/

theorem answering_map {α β : Type} (g : α → β) (y : Attempt System α) (k : β → Act Answer) :
    answering (g <$> y) k = answering y fun a => k (g a) := by
  funext w
  rw [answering, Act.bind_of_ok (Act.perform_apply _ w), Attempt.after_map]
  refine Eq.trans ?_ (Act.bind_of_ok (Act.perform_apply y w)).symm
  simp only [Attempt.outcome, Attempt.map_apply]
  cases y w.system <;> rfl

namespace Step

/-- The same step with a handle used by its own operations, and taken and copied as it is. -/
def plain : Step → Step
  | .createForeign v => .create v .system
  | .null v _ => .null v .constant
  | .copy v source _ => .copy v source .value
  | .signal v _ => .signal v .handle
  | .wait v _ => .wait v .handle
  | .delete v _ => .delete v .handle
  | s => s

/-- **A bare number does what the handle does**, in every world. -/
theorem run_plain (setting : Setting) (s : Step) : s.plain.run setting = s.run setting := by
  cases s with
  | createForeign v =>
    show answering (Handle.create setting.policy .system) (holdHandle v) =
      answering (Foreign.create setting.policy) fun raw => holdHandle v (.ofRaw raw)
    rw [Foreign.create_eq_map, answering_map]
    rfl
  | null v source => cases source <;> rfl
  | copy v source via => cases via <;> rfl
  | signal v via =>
    show (Act.lookup v >>= fun x => answering (System.run setting.now (x.signal .handle)) _) =
      (Act.lookup v >>= fun x => answering (System.run setting.now (x.signal via)) _)
    simp only [Variable.signal_eq]
  | wait v via =>
    show (Act.lookup v >>= fun x => answering (System.run setting.now (x.wait .handle)) _) =
      (Act.lookup v >>= fun x => answering (System.run setting.now (x.wait via)) _)
    simp only [Variable.wait_eq]
  | delete v via =>
    show (Act.lookup v >>= fun x => Act.perform (x.delete .handle) >>= _) =
      (Act.lookup v >>= fun x => Act.perform (x.delete via) >>= _)
    simp only [Variable.delete_eq]
  | _ => rfl

theorem subject?_plain (s : Step) : s.plain.subject? = s.subject? := by
  cases s <;> rfl

end Step

theorem reports_plain (setting : Setting) (steps : List Step) :
    reports setting (steps.map Step.plain) = reports setting steps := by
  induction steps with
  | nil => rfl
  | cons s steps ih =>
    have hreport : s.plain.report setting = s.report setting := by
      rw [Step.report, Step.report, s.run_plain, s.subject?_plain]
    rw [List.map_cons, reports, reports, hreport, ih]

/-! ### Names for the same event -/

/-- Which variables of a first and of a second script stand for the same event. -/
abbrev Naming := List (String × String)

namespace Naming

variable (ρ : Naming)

/-- The same names, with the second script as the first one. -/
def flip : Naming := ρ.map Prod.swap

/-- Each script has filled a variable, or has not. Those stand for one event, if they are two,
and for no other any more. -/
def fill (v? u? : Option String) : Naming :=
  (v?.bind fun v => u?.map fun u => (v, u)).toList ++
    ρ.filter fun p => v? ≠ some p.1 ∧ u? ≠ some p.2

/-- A variable of the first script stands for what another one stands for. -/
def copyFirst (v source : String) : Naming :=
  (ρ.filter fun p => p.1 ≠ v) ++ (ρ.filter fun p => p.1 = source).map fun p => (v, p.2)

/-- A variable of the second script stands for what another one stands for. -/
def copySecond (u source : String) : Naming := (ρ.flip.copyFirst u source).flip

/-- The names after a step of each of the two. -/
def afterBoth (answer answer' : Answer) : Step → Step → Naming
  | .copy v source _, .copy u source' _ => (ρ.copyFirst v source).copySecond u source'
  | s, s' => ρ.fill (s.filled? answer) (s'.filled? answer')

/-- The names after a conversion or a copy in the first script. -/
def afterFirst : Step → Naming
  | .copy v source _ => ρ.copyFirst v source
  | _ => ρ

/-- The names after a conversion or a copy in the second script. -/
def afterSecond (s' : Step) : Naming := (ρ.flip.afterFirst s').flip

end Naming

/-! ### Moves -/

/-- A move of two scripts. -/
inductive Move where
  /-- Each of the two makes a step, and the steps have the same task. -/
  | both (s s' : Step)
  /-- The first script converts or copies something. -/
  | first (s : Step)
  /-- The second script converts or copies something. -/
  | second (s' : Step)

namespace Move

/-- The step of the first script. -/
def first? : Move → Option Step
  | both s _ | first s => some s
  | second _ => none

/-- The step of the second script. -/
def second? : Move → Option Step
  | both _ s' | second s' => some s'
  | first _ => none

end Move

/-- **The same makes way for what two steps put into their variables**: no owner, or that of
one event if both put it there in the same form. Only whoever asks for a handle has something
to put there without memory, so an owner may make way in one form and not in the other. -/
def Step.displacesAlike (w w' : World) (s s' : Step) : Bool :=
  match s.target?, s'.target? with
  | some v, some u =>
    w.owned? v = w'.owned? u ∧
      (w.owned? v = none ∨ s.creation?.map Creation.owned = s'.creation?.map Creation.owned)
  | _, _ => true

/-- A text tells an owner from a handle, so two texts are those of the same form. -/
def Step.readsAlike (w w' : World) : Step → Step → Bool
  | .text v _, .text u _ => (w.owned? v).isSome = (w'.owned? u).isSome
  | _, _ => true

/-- A conversion, or a copy that puts no owner away. -/
def Step.isSilent (w : World) : Step → Bool
  | .copy v _ _ => w.owned? v = none
  | .intoHandle _ | .intoOwner _ => true
  | _ => false

/-- **A move that only reroutes.** -/
def Move.Fits (ρ : Naming) (w w' : World) : Move → Prop
  | both s s' =>
    s.task = s'.task ∧ s.task ≠ .armLog ∧ (∀ p ∈ s.operands.zip s'.operands, p ∈ ρ) ∧
      s.displacesAlike w w' s' = true ∧ s.readsAlike w w' s' = true
  | first s => s.isSilent w = true
  | second s' => s'.isSilent w' = true

/-- The names and the worlds after a move. -/
def Move.next (setting : Setting) (ρ : Naming) (w w' : World) :
    Move → Option (Naming × World × World)
  | both s s' =>
    match s.run setting w, s'.run setting w' with
    | .ok r, .ok r' => some (ρ.afterBoth r.1 r'.1 s s', r.2, r'.2)
    | _, _ => none
  | first s => (s.run setting w).toOption.map fun r => (ρ.afterFirst s, r.2, w')
  | second s' => (s'.run setting w').toOption.map fun r => (ρ.afterSecond s', w, r.2)

/-- **The second script is the first one rerouted**, by these moves from these names and worlds
on. -/
def Reroutes (setting : Setting) : List Move → Naming → World → World → Prop
  | [], _, _, _ => True
  | m :: moves, ρ, w, w' =>
    m.Fits ρ w w' ∧ ∀ p ∈ m.next setting ρ w w', Reroutes setting moves p.1 p.2.1 p.2.2

instance (ρ : Naming) (w w' : World) : (m : Move) → Decidable (m.Fits ρ w w')
  | .both _ _ => inferInstanceAs (Decidable (_ ∧ _ ∧ (∀ p ∈ _, p ∈ ρ) ∧ _ ∧ _))
  | .first _ | .second _ => inferInstanceAs (Decidable (_ = true))

instance decidableReroutes (setting : Setting) :
    (moves : List Move) → (ρ : Naming) → (w w' : World) → Decidable (Reroutes setting moves ρ w w')
  | [], _, _, _ => .isTrue trivial
  | m :: moves, ρ, w, w' =>
    haveI : DecidablePred fun p : Naming × World × World =>
        Reroutes setting moves p.1 p.2.1 p.2.2 :=
      fun p => decidableReroutes setting moves p.1 p.2.1 p.2.2
    inferInstanceAs (Decidable (m.Fits ρ w w' ∧
      ∀ p ∈ m.next setting ρ w w', Reroutes setting moves p.1 p.2.1 p.2.2))

/-! ### Answers that say the same -/

/-- **Two answers say the same**: they are equal; or an event was created, and one of the two is
an owner and the other one a handle; or there was no memory, and one of the two is refused and
the other one has the null handle. -/
inductive Answer.Agrees : Answer → Answer → Prop
  /-- They are equal. -/
  | same (answer : Answer) : Agrees answer answer
  /-- An owner here, a handle there. -/
  | owned : Agrees .ok (.handle false)
  /-- A handle here, an owner there. -/
  | handed : Agrees (.handle false) .ok
  /-- Refused here, the null handle there. -/
  | refused : Agrees (.failed .allocationFailure) (.handle true)
  /-- The null handle here, refused there. -/
  | missing : Agrees (.handle true) (.failed .allocationFailure)

/-- Was an event refused? -/
def Answer.isRefused : Answer → Bool
  | .failed _ => true
  | _ => false

/-- **Two reports say the same**: of the answer, of the event, of the allocators and of what was
put on record. An event that was refused is none, and its variable still refers to whatever it
referred to before. -/
structure Report.Agrees (r r' : Report) : Prop where
  /-- The answers say the same. -/
  answer : r.answer.Agrees r'.answer
  /-- The flag, the counters and the number of sleepers are equal. -/
  view : r.answer.isRefused = false → r'.answer.isRefused = false → r.view = r'.view
  /-- The ledgers are equal. -/
  ledgers : r.ledgers = r'.ledgers
  /-- The records are equal. -/
  log : r.log = r'.log

/-- **Move by move the reports of two scripts say the same**, and a step that only one of them
makes puts nothing on record. -/
inductive Agree : List Move → List Report → List Report → Prop
  /-- No move is left. -/
  | nil : Agree [] [] []
  /-- Both make a step. -/
  | both {s s' : Step} {r r' : Report} {moves : List Move} {rs rs' : List Report}
    (h : r.Agrees r') (hs : Agree moves rs rs') : Agree (.both s s' :: moves) (r :: rs) (r' :: rs')
  /-- The first one converts or copies something. -/
  | first {s : Step} {r : Report} {moves : List Move} {rs rs' : List Report}
    (h : r.log = []) (hs : Agree moves rs rs') : Agree (.first s :: moves) (r :: rs) rs'
  /-- The second one converts or copies something. -/
  | second {s' : Step} {r' : Report} {moves : List Move} {rs rs' : List Report}
    (h : r'.log = []) (hs : Agree moves rs rs') : Agree (.second s' :: moves) rs (r' :: rs')

namespace Creation

variable (c c' : Creation) (r : Option Address)

theorem agrees : (c.answer r).Agrees (c'.answer r) := by
  unfold Creation.answer
  cases r <;> cases c.owned <;> cases c'.owned <;> constructor

theorem isRefused_answer : (c.answer r).isRefused = (c.held r).isNone := by
  unfold answer held
  cases r <;> cases c.owned <;> rfl

end Creation

/-! ### Names that are right -/

/-- Do these variables refer to the same event, if both are in use? -/
def World.Alike (w w' : World) (v u : String) : Prop :=
  ∀ x y, w.vars.get? v = some x → w'.vars.get? u = some y → x.address? = y.address?

/-- Does every variable in use refer to what it referred to before? -/
def World.Within (w₁ w : World) : Prop :=
  ∀ z x, w₁.vars.get? z = some x → ∃ y, w.vars.get? z = some y ∧ y.address? = x.address?

/-- **Variables that stand for the same event refer to it.** -/
def Naming.Holds (ρ : Naming) (w w' : World) : Prop := ∀ p ∈ ρ, w.Alike w' p.1 p.2

section Names

variable {ρ : Naming} {w w' w₁ w₁' : World} {v u : String} {x y : Variable}

theorem World.Alike.of_address? (h : w.address? v = w'.address? u) : w.Alike w' v u := by
  intro x y hx hy
  rw [address?_eq hx, address?_eq hy] at h
  exact h

theorem World.Within.refl (w : World) : w.Within w := fun _ x hx => ⟨x, hx, rfl⟩

namespace Naming

namespace Holds

theorem flip (h : ρ.Holds w w') : ρ.flip.Holds w' w := by
  intro p hp
  obtain ⟨q, hq, rfl⟩ := List.mem_map.mp hp
  exact fun x y hx hy => (h q hq y x hy hx).symm

/-- Variables can go out of use, and what they hold can be converted. -/
theorem within (h : ρ.Holds w w') (hw : w₁.Within w) (hw' : w₁'.Within w') : ρ.Holds w₁ w₁' := by
  intro p hp x y hx hy
  obtain ⟨x₀, hx₀, hxx⟩ := hw _ x hx
  obtain ⟨y₀, hy₀, hyy⟩ := hw' _ y hy
  rw [← hxx, ← hyy]
  exact h p hp x₀ y₀ hx₀ hy₀

theorem fill (h : ρ.Holds w w') {v? u? : Option String}
    (hv : ∀ z, v? ≠ some z → w₁.vars.get? z = w.vars.get? z)
    (hu : ∀ z, u? ≠ some z → w₁'.vars.get? z = w'.vars.get? z)
    (hvu : ∀ v ∈ v?, ∀ u ∈ u?, w₁.Alike w₁' v u) : (ρ.fill v? u?).Holds w₁ w₁' := by
  intro p hp
  rcases List.mem_append.mp hp with hnew | hold
  · obtain ⟨v, hv?, hp⟩ := Option.bind_eq_some_iff.mp (Option.mem_toList.mp hnew)
    obtain ⟨u, hu?, rfl⟩ := Option.map_eq_some_iff.mp hp
    exact hvu v hv? u hu?
  · obtain ⟨hp, hne⟩ := List.mem_filter.mp hold
    obtain ⟨hpv, hpu⟩ : v? ≠ some p.1 ∧ u? ≠ some p.2 := by simpa using hne
    intro x y hx hy
    rw [hv _ hpv] at hx
    rw [hu _ hpu] at hy
    exact h p hp x y hx hy

/-- A copy refers to the event that it is a copy of. -/
theorem copyFirst (h : ρ.Holds w w') {source : String} (hx : w.vars.get? source = some x) :
    (ρ.copyFirst v source).Holds (w.assigned v x) w' := by
  intro p hp
  rcases List.mem_append.mp hp with hold | hnew
  · obtain ⟨hp, hne⟩ := List.mem_filter.mp hold
    have hpv : p.1 ≠ v := by simpa using hne
    intro y z hy hz
    rw [w.get?_assigned_of_ne x hpv] at hy
    exact h p hp y z hy hz
  · obtain ⟨q, hq, rfl⟩ := List.mem_map.mp hnew
    obtain ⟨hq, hsource⟩ := List.mem_filter.mp hq
    have hsource : q.1 = source := by simpa using hsource
    intro y z hy hz
    cases (w.get?_assigned_self v x).symm.trans hy
    exact h q hq x z (hsource ▸ hx) hz

theorem copySecond (h : ρ.Holds w w') {source : String} (hx : w'.vars.get? source = some x) :
    (ρ.copySecond u source).Holds w (w'.assigned u x) :=
  (h.flip.copyFirst hx).flip

end Holds

end Naming

end Names

/-! ### What makes way -/

section Room

variable {w w' : World} {v u : String} {x y : Variable}

/-- The same makes way where the owners are those of one event. -/
theorem World.displaced_congr (hsystem : w'.system = w.system)
    (howned : w.owned? v = w'.owned? u) (haddress : x.address? = y.address?) :
    w'.displaced u y = w.displaced v x := by
  rw [displaced, displaced, howned, haddress, hsystem]

/-- The same makes way for what comes of two creations. -/
theorem World.system_hold_congr {c c' : Creation} (hsystem : w'.system = w.system)
    (howned : w.owned? c.target = w'.owned? c'.target)
    (hform : w.owned? c.target = none ∨ c.owned = c'.owned) (r : Option Address) :
    (w'.hold c'.target (c'.held r)).system = (w.hold c.target (c.held r)).system := by
  rcases hform with hnone | hform
  · rw [system_hold_of_owned?_eq_none hnone, system_hold_of_owned?_eq_none (howned ▸ hnone),
      hsystem]
  · have hheld : c'.held r = c.held r := by
      unfold Creation.held
      rw [hform]
    rw [hheld]
    cases c.held r with
    | none => exact hsystem
    | some x => exact displaced_congr hsystem howned rfl

end Room

/-! ### Conversions and copies -/

/-- **A conversion** leaves the system as it is, and what variables refer to. -/
structure World.Converted (v : String) (w w₁ : World) : Prop where
  system : w₁.system = w.system
  allocators : w₁.allocators = w.allocators
  within : w₁.Within w
  address : w₁.address? v = w.address? v

/-- A variable that is still in use after an event was forgotten refers to what it did. -/
theorem World.Distinct.within_forget {w : World} (h : w.Distinct) (a : Address) :
    (w.forget a).Within w := by
  intro z x hx
  exact ⟨x, World.of_get?_forget h hx, rfl⟩

section Conversions

variable {setting : Setting} {w w₁ : World} {v : String} {answer : Answer}

theorem Step.of_intoHandle (hrun : (Step.intoHandle v).run setting w = .ok (answer, w₁)) :
    answer = .handle false ∧ w.Converted v w₁ := by
  obtain ⟨o, ho⟩ := Need.exists_owner (Step.met_of_run hrun (List.mem_singleton.mpr rfl))
  cases (Step.run_intoHandle ho).symm.trans hrun
  have hset : (w.vars.set v (.handle (.ofAddress o.address))).get? v =
      some (.handle (.ofAddress o.address)) := Table.get?_set_self ..
  have haddress : (Variable.handle (.ofAddress o.address)).address? = some o.address :=
    Handle.address?_ofAddress o.address
  refine ⟨rfl, rfl, rfl, fun z x hx => ?_, ?_⟩
  · by_cases hz : z = v
    · subst hz
      cases hset.symm.trans hx
      exact ⟨.owner o, ho, haddress.symm⟩
    · exact ⟨x, (Table.get?_set_of_ne _ _ hz).symm.trans hx, rfl⟩
  · exact (World.address?_eq hset).trans (haddress.trans (World.address?_eq ho).symm)

theorem Step.of_intoOwner (hw : w.Distinct)
    (hrun : (Step.intoOwner v).run setting w = .ok (answer, w₁)) :
    answer = (match w.address? v with | some _ => .owner | none => .noOwner) ∧
      w.Converted v w₁ := by
  obtain ⟨k, hk⟩ := Need.exists_handle (Step.met_of_run hrun (List.mem_singleton.mpr rfl))
  have haddress : w.address? v = k.address? := World.address?_eq hk
  have hstep := (Step.run_intoOwner hk).symm.trans hrun
  cases ha : k.address? with
  | none =>
    rw [ha] at hstep
    cases hstep
    rw [haddress, ha]
    refine ⟨rfl, rfl, rfl, fun z x hx => ?_, ?_⟩
    · by_cases hz : z = v
      · subst hz
        cases (Table.get?_erase_self w.vars z).symm.trans hx
      · exact ⟨x, (Table.get?_erase_of_ne _ hz).symm.trans hx, rfl⟩
    · rw [haddress, ha, World.address?, Table.get?_erase_self]
      rfl
  | some a =>
    rw [ha] at hstep
    cases hstep
    have hset : ((w.forget a).vars.set v (.owner ⟨a⟩)).get? v = some (.owner ⟨a⟩) :=
      Table.get?_set_self ..
    rw [haddress, ha]
    refine ⟨rfl, rfl, rfl, fun z x hx => ?_, ?_⟩
    · by_cases hz : z = v
      · subst hz
        cases hset.symm.trans hx
        exact ⟨.handle k, hk, ha⟩
      · exact hw.within_forget a z x ((Table.get?_set_of_ne _ _ hz).symm.trans hx)
    · rw [haddress, ha]
      exact congrArg (Option.bind · Variable.address?) hset

end Conversions

/-! ### Worlds that are twins -/

/-- **Two worlds are twins**: the systems are equal, and variables that stand for the same event
have its address in both. -/
structure Twins (ρ : Naming) (w w' : World) : Prop where
  system : w'.system = w.system
  allocators : w'.allocators = w.allocators
  unarmed : w.system.Unarmed
  named : ρ.Holds w w'

namespace Twins

variable {ρ : Naming} {w w' w₁ w₁' : World} {setting : Setting} {s s' : Step}
  {answer answer' : Answer} {v u : String} {x x' : Variable}

theorem flip (h : Twins ρ w w') : Twins ρ.flip w' w :=
  ⟨h.system.symm, h.allocators.symm, h.system ▸ h.unarmed, h.named.flip⟩

theorem ledgers_eq (h : Twins ρ w w') : w'.ledgers = w.ledgers := by
  rw [World.ledgers, World.ledgers, h.system, h.allocators]

/-- What came of two steps that were made in twins. -/
structure Made (ρ : Naming) (s s' : Step) (answer answer' : Answer) (w w' : World) : Prop where
  /-- The answers say the same. -/
  agrees : answer.Agrees answer'
  /-- The steps are about the same event, or there is none. -/
  subject : answer.isRefused = false → answer'.isRefused = false →
    s.subject?.bind w.address? = s'.subject?.bind w'.address?
  /-- The systems are equal. -/
  system : w'.system = w.system
  /-- The names of allocators mean the same. -/
  allocators : w'.allocators = w.allocators
  /-- Variables that stand for the same event refer to it. -/
  named : ρ.Holds w w'

/-! #### Calls -/

/-- **Two calls on the same event come to the same.** -/
theorem call (h : Twins ρ w w') {y : Attempt System Answer} (hv : s.subject? = some v)
    (hu : s'.subject? = some u) (hx : w.vars.get? v = some x) (hx' : w'.vars.get? u = some x')
    (haddress : x.address? = x'.address?) (hy : s.call? setting x = some y)
    (hy' : s'.call? setting x' = some y) (hrun : s.run setting w = .ok (answer, w₁))
    (hrun' : s'.run setting w' = .ok (answer', w₁')) : Made ρ s s' answer answer' w₁ w₁' := by
  cases (Step.run_of_call hv hx hy).symm.trans hrun
  cases (Step.run_of_call hu hx' hy').symm.trans hrun'
  constructor
  case agrees =>
    rw [h.system]
    exact .same _
  case subject =>
    intro _ _
    rw [hv, hu]
    exact (World.address?_eq hx).trans (haddress.trans (World.address?_eq hx').symm)
  case system => exact congrArg y.after h.system
  case allocators => exact h.allocators
  case named => exact h.named

/-! #### Creations -/

/-- **Two creations with memory from the same source come to the same**, in whatever form the
event is held. -/
theorem creation (h : Twins ρ w w') {memory : Source} (htask : s.task = .create memory)
    (htask' : s'.task = .create memory) (hroom : s.displacesAlike w w' s' = true)
    (hrun : s.run setting w = .ok (answer, w₁)) (hrun' : s'.run setting w' = .ok (answer', w₁')) :
    Made (ρ.fill (s.filled? answer) (s'.filled? answer')) s s' answer answer' w₁ w₁' := by
  obtain ⟨c, hs, hmemory⟩ := Step.exists_creation htask
  obtain ⟨c', hs', hmemory'⟩ := Step.exists_creation htask'
  obtain ⟨hv', hv⟩ := Step.target?_of_creation? hs
  obtain ⟨hu', hu⟩ := Step.target?_of_creation? hs'
  simp only [Step.displacesAlike, hv', hu', hs, hs', Option.map_some, Option.some.injEq,
    decide_eq_true_eq] at hroom
  obtain ⟨howned, hform⟩ := hroom
  obtain ⟨o, ho⟩ := Step.exists_origin hs hrun
  have ho' : w'.origin? c'.memory = some o := by
    rw [hmemory', ← hmemory, ← ho]
    cases c.memory <;> simp only [World.origin?, h.allocators]
  have hfirst := (Step.run_creation_of_unarmed hs ho h.unarmed).symm.trans hrun
  have hsecond :=
    (Step.run_creation_of_unarmed hs' ho' (h.system ▸ h.unarmed)).symm.trans hrun'
  rw [h.system] at hsecond
  generalize (w.system.askMemory setting.policy o).1 = r at hfirst hsecond
  cases hfirst
  cases hsecond
  have hfilled : s.filled? (c.answer r) = (c.held r).map fun _ => c.target := by
    rw [Step.filled?, hv', c.holds_answer]
    cases c.held r <;> rfl
  have hfilled' : s'.filled? (c'.answer r) = (c'.held r).map fun _ => c'.target := by
    rw [Step.filled?, hu', c'.holds_answer]
    cases c'.held r <;> rfl
  constructor
  case agrees => exact c.agrees c' r
  case subject =>
    intro hnot hnot'
    rw [c.isRefused_answer, Option.isNone_eq_false_iff] at hnot
    rw [c'.isRefused_answer, Option.isNone_eq_false_iff] at hnot'
    rw [hv, hu]
    exact (World.address?_hold hnot).trans (World.address?_hold hnot').symm
  case system =>
    have hcreated : (w'.afterCreate setting.policy o).system =
        (w.afterCreate setting.policy o).system := by
      rw [World.afterCreate, World.afterCreate, h.system]
    exact World.system_hold_congr hcreated howned hform r
  case allocators =>
    rw [World.allocators_hold, World.allocators_hold]
    exact h.allocators
  case named =>
    rw [hfilled, hfilled']
    refine h.named.fill (fun z hz => World.get?_hold_of_unfilled hz)
      (fun z hz => World.get?_hold_of_unfilled hz) fun v hv u hu => ?_
    obtain ⟨x, hx, rfl⟩ := Option.map_eq_some_iff.mp hv
    obtain ⟨y, hy, rfl⟩ := Option.map_eq_some_iff.mp hu
    refine .of_address? ?_
    rw [World.address?_hold (hx ▸ rfl), World.address?_hold (hy ▸ rfl)]

/-! #### Each step -/

/-- Steps that put nothing into a variable leave the names as they are. -/
theorem Made.untargeted (h : Made ρ s s' answer answer' w w') (hs : s.target? = none)
    (hs' : s'.target? = none) :
    Made (ρ.fill (s.filled? answer) (s'.filled? answer')) s s' answer answer' w w' := by
  have hfilled : s.filled? answer = none := by rw [Step.filled?, hs, ite_self]
  have hfilled' : s'.filled? answer' = none := by rw [Step.filled?, hs', ite_self]
  rw [hfilled, hfilled']
  exact { h with named := h.named.fill (fun _ _ => rfl) (fun _ _ => rfl) nofun }

/-- Two steps that only look. -/
theorem look (h : Twins ρ w w') (hv : s.subject? = some v) (hu : s'.subject? = some u)
    (hx : w.vars.get? v = some x) (hx' : w'.vars.get? u = some x')
    (haddress : x.address? = x'.address?) (answer : Answer) :
    Made ρ s s' answer answer w w' := by
  refine ⟨.same _, fun _ _ => ?_, h.system, h.allocators, h.named⟩
  rw [hv, hu]
  exact (World.address?_eq hx).trans (haddress.trans (World.address?_eq hx').symm)

/-- Two steps that convert what refers to the same event. -/
theorem convert (h : Twins ρ w w') (hv : s.subject? = some v) (hu : s'.subject? = some u)
    (hw : w.Converted v w₁) (hw' : w'.Converted u w₁')
    (haddress : w.address? v = w'.address? u) (answer : Answer) :
    Made ρ s s' answer answer w₁ w₁' where
  agrees := .same _
  subject := by
    intro _ _
    rw [hv, hu]
    exact hw.address.trans (haddress.trans hw'.address.symm)
  system := hw'.system.trans (h.system.trans hw.system.symm)
  allocators := hw'.allocators.trans (h.allocators.trans hw.allocators.symm)
  named := h.named.within hw.within hw'.within

/-- Two steps that release the same event. -/
theorem delete (h : Twins ρ w w') (hw : w.Distinct) (hw' : w'.Distinct) {via via' : Via}
    (haddress : w.Alike w' v u) (hrun : (Step.delete v via).run setting w = .ok (answer, w₁))
    (hrun' : (Step.delete u via').run setting w' = .ok (answer', w₁')) :
    Made ρ (.delete v via) (.delete u via') answer answer' w₁ w₁' := by
  obtain ⟨x, hx⟩ := Need.exists_variable (Step.met_of_run hrun (List.mem_singleton.mpr rfl))
  obtain ⟨x', hx'⟩ := Need.exists_variable (Step.met_of_run hrun' (List.mem_singleton.mpr rfl))
  have hxx := haddress x x' hx hx'
  cases (Step.run_delete via hx).symm.trans hrun
  cases (Step.run_delete via' hx').symm.trans hrun'
  rw [← hxx, h.system]
  constructor
  case agrees => exact .same _
  case subject =>
    intro _ _
    refine (World.address?_forgetAt hw hx).trans ?_
    rw [hxx]
    exact (World.address?_forgetAt hw' hx').symm
  case system => cases x.address? <;> rfl
  case allocators => cases x.address? <;> exact h.allocators
  case named =>
    cases x.address? with
    | none => exact h.named
    | some a => exact h.named.within (hw.within_forget a) (hw'.within_forget a)

/-- Two steps that copy what refers to the same event. -/
theorem copy (h : Twins ρ w w') {source source' : String} {via via' : CopyVia}
    (haddress : w.Alike w' source source') (howned : w.owned? v = w'.owned? u)
    (hrun : (Step.copy v source via).run setting w = .ok (answer, w₁))
    (hrun' : (Step.copy u source' via').run setting w' = .ok (answer', w₁')) :
    Made ((ρ.copyFirst v source).copySecond u source') (.copy v source via)
      (.copy u source' via') answer answer' w₁ w₁' := by
  obtain ⟨k, hk, rfl, rfl⟩ := Step.of_copy hrun
  obtain ⟨k', hk', rfl, rfl⟩ := Step.of_copy hrun'
  have hkk : k.address? = k'.address? := haddress _ _ hk hk'
  cases Handle.eq_of_address? hkk
  constructor
  case agrees => exact .same _
  case subject =>
    intro _ _
    exact (World.address?_eq (w.get?_assigned_self ..)).trans
      (World.address?_eq (w'.get?_assigned_self ..)).symm
  case system => exact World.displaced_congr h.system howned rfl
  case allocators => exact h.allocators
  case named => exact (h.named.copyFirst hk).copySecond hk'

/-- Two steps that take a null handle. -/
theorem null (h : Twins ρ w w') {source source' : NullSource}
    (howned : w.owned? v = w'.owned? u)
    (hrun : (Step.null v source).run setting w = .ok (answer, w₁))
    (hrun' : (Step.null u source').run setting w' = .ok (answer', w₁')) :
    Made (ρ.afterBoth answer answer' (.null v source) (.null u source')) (.null v source)
      (.null u source') answer answer' w₁ w₁' := by
  cases (Step.run_null source).symm.trans hrun
  cases (Step.run_null source').symm.trans hrun'
  have haddress : (w.assigned v (.handle .null)).address? v =
      (w'.assigned u (.handle .null)).address? u :=
    (World.address?_eq (w.get?_assigned_self ..)).trans
      (World.address?_eq (w'.get?_assigned_self ..)).symm
  constructor
  case agrees => exact .same _
  case subject => exact fun _ _ => haddress
  case system => exact World.displaced_congr h.system howned rfl
  case allocators => exact h.allocators
  case named =>
    refine h.named.fill (fun z hz => w.get?_assigned_of_ne _ fun hzv => hz (congrArg some hzv.symm))
      (fun z hz => w'.get?_assigned_of_ne _ fun hzu => hz (congrArg some hzu.symm)) ?_
    rintro _ ⟨⟩ _ ⟨⟩
    exact .of_address? haddress

/-- Two steps that set up the same allocator. -/
theorem allocator (h : Twins ρ w w') {name : String} {plan : FailurePlan}
    (hrun : (Step.allocator name plan).run setting w = .ok (answer, w₁))
    (hrun' : (Step.allocator name plan).run setting w' = .ok (answer', w₁')) :
    Made ρ (.allocator name plan) (.allocator name plan) answer answer' w₁ w₁' := by
  cases hrun
  cases hrun'
  refine ⟨.same _, fun _ _ => rfl, ?_, ?_, h.named⟩
  · simp only [h.system]
  · simp only [h.system, h.allocators]

/-- **Two steps with the same task, on what stands for the same event, come to the same.** -/
theorem both (h : Twins ρ w w') (hw : w.Distinct) (hw' : w'.Distinct)
    (hfits : (Move.both s s').Fits ρ w w') (hrun : s.run setting w = .ok (answer, w₁))
    (hrun' : s'.run setting w' = .ok (answer', w₁')) :
    Made (ρ.afterBoth answer answer' s s') s s' answer answer' w₁ w₁' := by
  obtain ⟨htask, harm, hops, hroom, hreads⟩ := hfits
  cases s with
  | allocator name plan =>
    cases s' with
    | allocator name' plan' =>
      cases htask
      exact (h.allocator hrun hrun').untargeted rfl rfl
    | _ => cases htask
  | armLog => exact absurd rfl harm
  | new v m | create v m | createForeign v =>
    exact h.creation rfl htask.symm hroom hrun hrun'
  | null v source =>
    cases s' with
    | null u source' => exact h.null (of_decide_eq_true hroom).1 hrun hrun'
    | _ => cases htask
  | copy v source via =>
    cases s' with
    | copy u source' via' =>
      exact h.copy (h.named _ (hops _ List.mem_cons_self)) (of_decide_eq_true hroom).1 hrun hrun'
    | _ => cases htask
  | compare v₁ v₂ =>
    cases s' with
    | compare u₁ u₂ =>
      obtain ⟨k, hk⟩ := Need.exists_handle (Step.met_of_run hrun List.mem_cons_self)
      obtain ⟨l, hl⟩ := Need.exists_handle
        (Step.met_of_run hrun (List.mem_cons_of_mem _ List.mem_cons_self))
      obtain ⟨k', hk'⟩ := Need.exists_handle (Step.met_of_run hrun' List.mem_cons_self)
      obtain ⟨l', hl'⟩ := Need.exists_handle
        (Step.met_of_run hrun' (List.mem_cons_of_mem _ List.mem_cons_self))
      cases (Step.run_compare hk hl).symm.trans hrun
      cases (Step.run_compare hk' hl').symm.trans hrun'
      have hkk := h.named _ (hops _ List.mem_cons_self) _ _ hk hk'
      have hll := h.named _ (hops _ (List.mem_cons_of_mem _ List.mem_cons_self)) _ _ hl hl'
      cases Handle.eq_of_address? hkk
      cases Handle.eq_of_address? hll
      exact (h.look rfl rfl hk hk' rfl _).untargeted rfl rfl
    | _ => cases htask
  | isNull v =>
    cases s' with
    | isNull u =>
      obtain ⟨k, hk⟩ := Need.exists_handle (Step.met_of_run hrun List.mem_cons_self)
      obtain ⟨k', hk'⟩ := Need.exists_handle (Step.met_of_run hrun' List.mem_cons_self)
      cases (Step.run_isNull hk).symm.trans hrun
      cases (Step.run_isNull hk').symm.trans hrun'
      cases Handle.eq_of_address? (h.named _ (hops _ List.mem_cons_self) _ _ hk hk')
      exact (h.look rfl rfl hk hk' rfl _).untargeted rfl rfl
    | _ => cases htask
  | text v spec =>
    cases s' with
    | text u spec' =>
      cases htask
      obtain ⟨x, hx⟩ := Need.exists_variable (Step.met_of_run hrun List.mem_cons_self)
      obtain ⟨x', hx'⟩ := Need.exists_variable (Step.met_of_run hrun' List.mem_cons_self)
      cases (Step.run_text spec hx).symm.trans hrun
      cases (Step.run_text spec hx').symm.trans hrun'
      have hxx := h.named _ (hops _ List.mem_cons_self) _ _ hx hx'
      have hform : x.owned?.isSome = x'.owned?.isSome := by
        have hread := of_decide_eq_true hreads
        rwa [World.owned?, World.owned?, hx, hx'] at hread
      cases Variable.eq_of_address? hxx hform
      have hcell : w'.cell? u = w.cell? v := by
        rw [World.cell?, World.cell?, hx, hx', h.system]
      rw [hcell]
      exact (h.look rfl rfl hx hx' rfl _).untargeted rfl rfl
    | _ => cases htask
  | isSignaled v =>
    cases s' with
    | isSignaled u =>
      obtain ⟨o, ho⟩ := Need.exists_owner (Step.met_of_run hrun List.mem_cons_self)
      obtain ⟨o', ho'⟩ := Need.exists_owner (Step.met_of_run hrun' List.mem_cons_self)
      have hoo := h.named _ (hops _ List.mem_cons_self) _ _ ho ho'
      cases Variable.eq_of_address? hoo rfl
      exact (h.call rfl rfl ho ho' rfl rfl rfl hrun hrun').untargeted rfl rfl
    | _ => cases htask
  | waitTimeout v timeout =>
    cases s' with
    | waitTimeout u timeout' =>
      cases htask
      obtain ⟨o, ho⟩ := Need.exists_owner (Step.met_of_run hrun List.mem_cons_self)
      obtain ⟨o', ho'⟩ := Need.exists_owner (Step.met_of_run hrun' List.mem_cons_self)
      have hoo := h.named _ (hops _ List.mem_cons_self) _ _ ho ho'
      cases Variable.eq_of_address? hoo rfl
      exact (h.call rfl rfl ho ho' rfl rfl rfl hrun hrun').untargeted rfl rfl
    | _ => cases htask
  | signal v via =>
    cases s' with
    | signal u via' =>
      obtain ⟨x, hx⟩ := Need.exists_variable (Step.met_of_run hrun List.mem_cons_self)
      obtain ⟨x', hx'⟩ := Need.exists_variable (Step.met_of_run hrun' List.mem_cons_self)
      have hxx := h.named _ (hops _ List.mem_cons_self) _ _ hx hx'
      have hcall : x'.signal via' = x.signal via := by
        rw [Variable.signal_eq, Variable.signal_eq, hxx]
      refine (h.call rfl rfl hx hx' hxx rfl ?_ hrun hrun').untargeted rfl rfl
      rw [Step.call?, hcall]
    | _ => cases htask
  | wait v via =>
    cases s' with
    | wait u via' =>
      obtain ⟨x, hx⟩ := Need.exists_variable (Step.met_of_run hrun List.mem_cons_self)
      obtain ⟨x', hx'⟩ := Need.exists_variable (Step.met_of_run hrun' List.mem_cons_self)
      have hxx := h.named _ (hops _ List.mem_cons_self) _ _ hx hx'
      have hcall : x'.wait via' = x.wait via := by
        rw [Variable.wait_eq, Variable.wait_eq, hxx]
      refine (h.call rfl rfl hx hx' hxx rfl ?_ hrun hrun').untargeted rfl rfl
      rw [Step.call?, hcall]
    | _ => cases htask
  | tryWait v =>
    cases s' with
    | tryWait u =>
      obtain ⟨x, hx⟩ := Need.exists_variable (Step.met_of_run hrun List.mem_cons_self)
      obtain ⟨x', hx'⟩ := Need.exists_variable (Step.met_of_run hrun' List.mem_cons_self)
      have hxx := h.named _ (hops _ List.mem_cons_self) _ _ hx hx'
      have hcall : x'.tryWait = x.tryWait := by
        rw [Variable.tryWait_eq, Variable.tryWait_eq, hxx]
      refine (h.call rfl rfl hx hx' hxx rfl ?_ hrun hrun').untargeted rfl rfl
      rw [Step.call?, hcall]
    | _ => cases htask
  | delete v via =>
    cases s' with
    | delete u via' =>
      exact (h.delete hw hw' (h.named _ (hops _ List.mem_cons_self)) hrun hrun').untargeted rfl rfl
    | _ => cases htask
  | intoHandle v =>
    cases s' with
    | intoHandle u =>
      obtain ⟨o, ho⟩ := Need.exists_owner (Step.met_of_run hrun List.mem_cons_self)
      obtain ⟨o', ho'⟩ := Need.exists_owner (Step.met_of_run hrun' List.mem_cons_self)
      have hoo := h.named _ (hops _ List.mem_cons_self) _ _ ho ho'
      obtain ⟨rfl, hconverted⟩ := Step.of_intoHandle hrun
      obtain ⟨rfl, hconverted'⟩ := Step.of_intoHandle hrun'
      have haddress := (World.address?_eq ho).trans (hoo.trans (World.address?_eq ho').symm)
      exact (h.convert rfl rfl hconverted hconverted' haddress _).untargeted rfl rfl
    | _ => cases htask
  | intoOwner v =>
    cases s' with
    | intoOwner u =>
      obtain ⟨k, hk⟩ := Need.exists_handle (Step.met_of_run hrun List.mem_cons_self)
      obtain ⟨k', hk'⟩ := Need.exists_handle (Step.met_of_run hrun' List.mem_cons_self)
      have hkk := h.named _ (hops _ List.mem_cons_self) _ _ hk hk'
      have haddress := (World.address?_eq hk).trans (hkk.trans (World.address?_eq hk').symm)
      obtain ⟨rfl, hconverted⟩ := Step.of_intoOwner hw hrun
      obtain ⟨rfl, hconverted'⟩ := Step.of_intoOwner hw' hrun'
      rw [← haddress]
      exact (h.convert rfl rfl hconverted hconverted' haddress _).untargeted rfl rfl
    | _ => cases htask

/-- **A conversion or a copy in one script** is not seen by the other, and changes no event. -/
theorem first (h : Twins ρ w w') (hw : w.Distinct) (hs : s.isSilent w = true)
    (hrun : s.run setting w = .ok (answer, w₁)) :
    w₁.system = w.system ∧ Twins (ρ.afterFirst s) w₁ w' := by
  have hconverted : ∀ {v}, w.Converted v w₁ → w₁.system = w.system ∧ Twins ρ w₁ w' := by
    intro v hv
    refine ⟨hv.system, h.system.trans hv.system.symm, h.allocators.trans hv.allocators.symm,
      hv.system ▸ h.unarmed, h.named.within hv.within (.refl w')⟩
  cases s with
  | copy v source via =>
    obtain ⟨k, hk, rfl, rfl⟩ := Step.of_copy hrun
    have hsystem : (w.assigned v (.handle k)).system = w.system :=
      World.system_hold_of_owned?_eq_none (of_decide_eq_true hs) (some (.handle k))
    exact ⟨hsystem, h.system.trans hsystem.symm, h.allocators, hsystem ▸ h.unarmed,
      h.named.copyFirst hk⟩
  | intoHandle v => exact hconverted (Step.of_intoHandle hrun).2
  | intoOwner v => exact hconverted (Step.of_intoOwner hw hrun).2
  | _ => cases hs

theorem second (h : Twins ρ w w') (hw' : w'.Distinct) (hs' : s'.isSilent w' = true)
    (hrun' : s'.run setting w' = .ok (answer', w₁')) :
    w₁'.system = w'.system ∧ Twins (ρ.afterSecond s') w w₁' := by
  obtain ⟨hsystem, htwins⟩ := h.flip.first hw' hs' hrun'
  exact ⟨hsystem, htwins.flip⟩

/-! ### Whole scripts -/

/-- What is reported of two steps that were made in twins says the same. -/
theorem report (h : Twins ρ w w') {ρ' : Naming} (hmade : Made ρ' s s' answer answer' w₁ w₁') :
    (Report.between s answer w w₁).Agrees (.between s' answer' w' w₁') where
  answer := hmade.agrees
  view := by
    intro hnot hnot'
    have hview : ∀ (s : Step) (w : World), s.subject?.bind w.cell? =
        (s.subject?.bind w.address?).bind w.system.cell? := by
      intro s w
      cases s.subject? <;> rfl
    show Option.map _ _ = Option.map _ _
    rw [hview, hview, hmade.subject hnot hnot', hmade.system]
  ledgers := by
    show w₁.ledgers = w₁'.ledgers
    rw [World.ledgers, World.ledgers, hmade.system, hmade.allocators]
  log := by
    show List.drop _ _ = List.drop _ _
    rw [hmade.system, h.system]

/-- **Twins stay twins**, and report the same, over all the moves of two scripts of which the
second one is the first one rerouted. -/
theorem run {moves : List Move} {ds ds' : List Deed} (h : Twins ρ w w') (hw : w.Keeps ds)
    (hw' : w'.Keeps ds') (hroutes : Reroutes setting moves ρ w w')
    (hs : Sensible setting (moves.filterMap Move.first?) w)
    (hs' : Sensible setting (moves.filterMap Move.second?) w') :
    ∃ rs w₁ rs' w₁' ρ', reports setting (moves.filterMap Move.first?) w = .ok (rs, w₁) ∧
      reports setting (moves.filterMap Move.second?) w' = .ok (rs', w₁') ∧
      Agree moves rs rs' ∧ Twins ρ' w₁ w₁' := by
  induction moves generalizing ρ w w' ds ds' with
  | nil => exact ⟨[], w, [], w', ρ, rfl, rfl, .nil, h⟩
  | cons m moves ih =>
    obtain ⟨hfits, hnext⟩ := hroutes
    cases m with
    | both s s' =>
      obtain ⟨⟨answer, w₁⟩, hrun⟩ := (Step.misuse?_eq_none_iff setting).mp hs.1
      obtain ⟨⟨answer', w₁'⟩, hrun'⟩ := (Step.misuse?_eq_none_iff setting).mp hs'.1
      have hmade := h.both hw.distinct hw'.distinct hfits hrun hrun'
      have hunarmed := Step.unarmed_of_run h.unarmed
        (fun harm => hfits.2.1 (congrArg Step.task harm)) hrun
      obtain ⟨rs, w₂, rs', w₂', ρ', hrest, hrest', hagree, htwins⟩ :=
        ih ⟨hmade.system, hmade.allocators, hunarmed, hmade.named⟩ (hw.step hrun) (hw'.step hrun')
          (hnext _ (by rw [Move.next, hrun, hrun']; rfl)) (hs.2 _ (by rw [hrun]; rfl))
          (hs'.2 _ (by rw [hrun']; rfl))
      exact ⟨_, w₂, _, w₂', ρ', reports_cons hrun hrest, reports_cons hrun' hrest',
        .both (h.report hmade) hagree, htwins⟩
    | first s =>
      obtain ⟨⟨answer, w₁⟩, hrun⟩ := (Step.misuse?_eq_none_iff setting).mp hs.1
      obtain ⟨hsystem, h₁⟩ := h.first hw.distinct hfits hrun
      obtain ⟨rs, w₂, rs', w₂', ρ', hrest, hrest', hagree, htwins⟩ :=
        ih h₁ (hw.step hrun) hw' (hnext _ (by rw [Move.next, hrun]; rfl))
          (hs.2 _ (by rw [hrun]; rfl)) hs'
      refine ⟨_, w₂, rs', w₂', ρ', reports_cons hrun hrest, hrest', .first ?_ hagree, htwins⟩
      rw [Report.between, hsystem, List.drop_length]
    | second s' =>
      obtain ⟨⟨answer', w₁'⟩, hrun'⟩ := (Step.misuse?_eq_none_iff setting).mp hs'.1
      obtain ⟨hsystem, h₁⟩ := h.second hw'.distinct hfits hrun'
      obtain ⟨rs, w₂, rs', w₂', ρ', hrest, hrest', hagree, htwins⟩ :=
        ih h₁ hw (hw'.step hrun') (hnext _ (by rw [Move.next, hrun']; rfl)) hs
          (hs'.2 _ (by rw [hrun']; rfl))
      refine ⟨rs, w₂, _, w₂', ρ', hrest, reports_cons hrun' hrest', .second ?_ hagree, htwins⟩
      rw [Report.between, hsystem, List.drop_length]

end Twins

/-- **An owner that turns into a handle and back** owns the same event, and neither the event nor
anything else has changed. -/
theorem reports_there_and_back (setting : Setting) {w : World} {v : String} {o : Owner}
    (h : w.vars.get? v = some (.owner o)) :
    ∃ w', reports setting [.intoHandle v, .intoOwner v] w =
        .ok ([⟨.handle false, (w.cell? v).map View.ofCell, w.ledgers, []⟩,
          ⟨.owner, (w.cell? v).map View.ofCell, w.ledgers, []⟩], w') ∧
      w'.system = w.system ∧ w'.vars.get? v = some (.owner o) := by
  let handed : World := { w with vars := w.vars.set v (.handle (.ofAddress o.address)) }
  let back : World := { handed with
    vars := (handed.forget o.address).vars.set v (.owner ⟨o.address⟩) }
  have hset : handed.vars.get? v = some (.handle (.ofAddress o.address)) :=
    Table.get?_set_self ..
  have hforth : (Step.intoHandle v).run setting w = .ok (.handle false, handed) :=
    Step.run_intoHandle h
  have hback : (Step.intoOwner v).run setting handed = .ok (.owner, back) := by
    rw [Step.run_intoOwner hset, Handle.address?_ofAddress]
    rfl
  have howned : back.vars.get? v = some (.owner o) := Table.get?_set_self ..
  have hhanded : handed.cell? v = w.cell? v := by
    rw [World.cell?, World.cell?, hset, h]
    exact congrArg (Option.bind · w.system.cell?) (Handle.address?_ofAddress o.address)
  have hcell : back.cell? v = w.cell? v := by
    rw [World.cell?, World.cell?, howned, h]
  have hfirst : Report.between (.intoHandle v) (.handle false) w handed =
      ⟨.handle false, (w.cell? v).map View.ofCell, w.ledgers, []⟩ := by
    rw [← hhanded, Report.between, List.drop_length]
    rfl
  have hsecond : Report.between (.intoOwner v) .owner handed back =
      ⟨.owner, (w.cell? v).map View.ofCell, w.ledgers, []⟩ := by
    rw [← hcell, Report.between, List.drop_length]
    rfl
  have hend : reports setting [] back = .ok ([], back) := rfl
  have hrun := reports_cons hforth (reports_cons hback hend)
  rw [hfirst, hsecond] at hrun
  exact ⟨back, hrun, rfl, howned⟩

/-- **Three ways to hold an event are one.** -/
theorem routes_agree (setting : Setting) {limit : Option Level} {moves : List Move}
    (hroutes : Reroutes setting moves [] (World.start limit) (World.start limit))
    (h : Sensible setting (moves.filterMap Move.first?) (World.start limit))
    (h' : Sensible setting (moves.filterMap Move.second?) (World.start limit)) :
    ∃ rs w rs' w',
      reports setting (moves.filterMap Move.first?) (World.start limit) = .ok (rs, w) ∧
      reports setting (moves.filterMap Move.second?) (World.start limit) = .ok (rs', w') ∧
      Agree moves rs rs' ∧ w'.system = w.system ∧ w'.ledgers = w.ledgers ∧
      ∀ v o, w.vars.get? v = some (.owner o) →
        ∃ w'', reports setting [.intoHandle v, .intoOwner v] w =
            .ok ([⟨.handle false, (w.cell? v).map View.ofCell, w.ledgers, []⟩,
              ⟨.owner, (w.cell? v).map View.ofCell, w.ledgers, []⟩], w'') ∧
          w''.system = w.system ∧ w''.vars.get? v = some (.owner o) := by
  have hstart : Twins [] (World.start limit) (World.start limit) := ⟨rfl, rfl, rfl, nofun⟩
  obtain ⟨rs, w, rs', w', ρ, hrun, hrun', hagree, htwins⟩ :=
    hstart.run (World.keeps_start limit) (World.keeps_start limit) hroutes h h'
  exact ⟨rs, w, rs', w', hrun, hrun', hagree, htwins.system, htwins.ledgers_eq,
    fun v o ho => reports_there_and_back setting ho⟩

/-- A script with owners, of which one is refused, and the same one with handles and bare
numbers; in both of them an event changes hands on the way. -/
def mixedMoves : List Move :=
  [.both (.allocator "pool" (.only [1])) (.allocator "pool" (.only [1])),
    .both (.new "a" (.named "pool")) (.create "h" (.named "pool")),
    .both (.new "b" (.named "pool")) (.create "n" (.named "pool")),
    .both (.createForeign "c") (.new "d" .system),
    .second (.copy "k" "h" .raw),
    .both (.signal "a" .handle) (.signal "k" .foreign),
    .second (.intoOwner "h"),
    .both (.signal "a" .handle) (.signal "h" .handle),
    .first (.intoHandle "a"),
    .first (.copy "x" "a" .value),
    .both (.tryWait "x") (.tryWait "h"),
    .both (.wait "c" .foreign) (.wait "d" .handle),
    .both (.signal "c" .foreign) (.signal "d" .handle),
    .first (.intoOwner "x"),
    .both (.waitTimeout "x" .zero) (.waitTimeout "h" .zero),
    .both (.delete "c" .foreign) (.delete "d" .handle),
    .both (.delete "x" .handle) (.delete "h" .handle)]

theorem routes_agree_mixed :
    Reroutes {} mixedMoves [] (World.start (some .trace)) (World.start (some .trace)) ∧
    Sensible {} (mixedMoves.filterMap Move.first?) (World.start (some .trace)) ∧
    Sensible {} (mixedMoves.filterMap Move.second?) (World.start (some .trace)) ∧
    ∃ rs w rs' w',
      reports {} (mixedMoves.filterMap Move.first?) (World.start (some .trace)) = .ok (rs, w) ∧
      reports {} (mixedMoves.filterMap Move.second?) (World.start (some .trace)) = .ok (rs', w') ∧
      Agree mixedMoves rs rs' ∧ w'.system = w.system := by
  have hroutes : Reroutes {} mixedMoves [] (World.start (some .trace))
      (World.start (some .trace)) := by decide +kernel
  have hfirst : Sensible {} (mixedMoves.filterMap Move.first?) (World.start (some .trace)) := by
    decide +kernel
  have hsecond : Sensible {} (mixedMoves.filterMap Move.second?) (World.start (some .trace)) := by
    decide +kernel
  obtain ⟨rs, w, rs', w', hrun, hrun', hagree, hsystem, -⟩ :=
    routes_agree {} hroutes hfirst hsecond
  exact ⟨hroutes, hfirst, hsecond, rs, w, rs', w', hrun, hrun', hagree, hsystem⟩

end AutoReset.Script
