import AutoReset.Proofs.Script.Frame
/-!
# Two worlds with an event in common

An event is the same wherever it stands, whatever else there is, and whoever else was there
before. That is said of two worlds that have one event in common (`AutoReset.Script.Shadow`). It
may stand at different addresses. A variable that refers to it in the first world does so in the
second one and in the same form, and whoever owns it in the second one owns it in the first. The
second world may have more: variables that refer to the event and were overwritten in the first,
and other events.

The worlds keep the event in common over three kinds of steps.

* A step that is about the event is made in both. It has the same answer
  (`AutoReset.Script.Shadow.keeps`).
* A step that is about something else is made in the first one only, if the event
  is there afterwards (`AutoReset.Script.Step.Change.spares`).
* An event is created in both. It may replace the one that they have in common, and is then gone
  from both, or be one more that they have in common (`AutoReset.Script.Peers.created`).

Whether a creation is refused depends on the allocators, which are shared. So the worlds
have those in common as well, as far as it matters for that (`AutoReset.Script.Peers`).
-/

namespace AutoReset

namespace Script

/-- Are the variables that the step reads those of one event? -/
def Step.isAbout (w : World) (a : Address) (s : Step) : Bool :=
  s.operands ≠ [] ∧ ∀ v ∈ s.operands, w.address? v = some a

/-- The answer without the addresses in it. -/
def Answer.hidden : Answer → Answer
  | .text s => .text s.hidden
  | answer => answer

/-! ### What two worlds have in common -/

/-- What a variable holds, of an event that stands elsewhere. -/
def Variable.movedTo (a : Address) : Variable → Variable
  | .owner _ => .owner ⟨a⟩
  | .handle _ => .handle (.ofAddress a)

/-- **Two worlds in which requests for memory are refused alike.** -/
structure Peers (w w' : World) : Prop where
  /-- The names of allocators mean the same. -/
  allocators : w'.allocators = w.allocators
  /-- The same requests were made of each, and the same ones are refused. -/
  schedule : w'.system.schedule = w.system.schedule
  unarmed : w.system.Unarmed
  unarmed' : w'.system.Unarmed

/-- **Two worlds that have an event in common.** Whoever refers to it in the first one does so
in the second one, and whoever owns it in the second one owns it in the first. -/
structure Shadow (a a' : Address) (w w' : World) : Prop extends Peers w w' where
  /-- The event is the same, or gone from both. -/
  cell : w'.system.cell? a' = w.system.cell? a
  /-- What refers to it does so in the second world, in the same form. -/
  held : ∀ v x, w.vars.get? v = some x → x.address? = some a →
    w'.vars.get? v = some (x.movedTo a')
  /-- What owns it in the second world does so in the first one. -/
  owned : ∀ v, w'.vars.get? v = some (.owner ⟨a'⟩) → w.vars.get? v = some (.owner ⟨a⟩)

/-- **A step that is not about an event** leaves it as it is: no variable refers to it that did
not do so before, and its owner still has it. -/
structure World.Spares (a : Address) (w w₁ : World) : Prop where
  cell : w₁.system.cell? a = w.system.cell? a
  held : ∀ v x, w₁.vars.get? v = some x → x.address? = some a → w.vars.get? v = some x
  owned : ∀ v, w.vars.get? v = some (.owner ⟨a⟩) → w₁.vars.get? v = some (.owner ⟨a⟩)

section Worlds

variable {a a' : Address} {w w' w₁ w₁' : World} {v : String} {x : Variable}

theorem Variable.address?_movedTo (x : Variable) (a : Address) :
    (x.movedTo a).address? = some a := by
  cases x with
  | owner o => rfl
  | handle k => exact Handle.address?_ofAddress a

/-- But for the address, the text of an event does not say where it stands. -/
theorem Variable.hidden_tree_movedTo (h : x.address? = some a) (a' : Address) (c : Option Cell) :
    ((x.movedTo a').tree c).hidden = (x.tree c).hidden := by
  have hname : ∀ b : Address, (Text.Tree.pointer b.value).hidden = .ofString "<ptr>" := fun b => by
    rw [Text.Tree.hidden, if_neg (Nat.ne_of_gt b.pos)]
  cases x with
  | owner o =>
    show Text.Tree.record _ (.cons _ (Text.Tree.hidden _) _) =
      Text.Tree.record _ (.cons _ (Text.Tree.hidden _) _)
    rw [hname, hname]
  | handle k =>
    cases Handle.eq_of_address? (h.trans (Handle.address?_ofAddress a).symm)
    show Text.Tree.wrapper _ (Text.Tree.hidden (.pointer a'.value)) =
      Text.Tree.wrapper _ (Text.Tree.hidden (.pointer a.value))
    rw [hname, hname]

theorem Variable.movedTo_self (h : x.address? = some a) : x.movedTo a = x := by
  refine Variable.eq_of_address? ((x.address?_movedTo a).trans h.symm) ?_
  cases x <;> rfl

/-- Every world has each of its events in common with itself. -/
theorem Shadow.refl (h : w.system.Unarmed) (a : Address) : Shadow a a w w where
  allocators := rfl
  schedule := rfl
  unarmed := h
  unarmed' := h
  cell := rfl
  held := fun v x hx ha => by rw [Variable.movedTo_self ha, hx]
  owned := fun _ h => h

theorem Peers.symm (h : Peers w w') : Peers w' w :=
  ⟨h.allocators.symm, h.schedule.symm, h.unarmed', h.unarmed⟩

/-- A step that only the first world makes. -/
theorem Shadow.of_spares (h : Shadow a a' w w') (hpeers : Peers w₁ w') (hw : w.Spares a w₁) :
    Shadow a a' w₁ w' where
  toPeers := hpeers
  cell := h.cell.trans hw.cell.symm
  held := fun v x hx ha => h.held v x (hw.held v x hx ha) ha
  owned := fun v hv => hw.owned v (h.owned v hv)

/-- The event is seen alike through a variable that refers to it. -/
theorem Shadow.cell?_eq (h : Shadow a a' w w') (hx : w.vars.get? v = some x)
    (ha : x.address? = some a) : w'.cell? v = w.cell? v := by
  rw [World.cell?, World.cell?, hx, h.held v x hx ha]
  show (x.movedTo a').address?.bind _ = x.address?.bind _
  rw [x.address?_movedTo, ha]
  exact h.cell

end Worlds

/-! ### Steps that are left out -/

section Drops

variable {setting : Setting} {a a' : Address} {w w' w₁ : World} {s : Step} {answer : Answer}

theorem Peers.drops (h : Peers w w') (hs : s.makes = false) (harm : s ≠ .armLog)
    (hrun : s.run setting w = .ok (answer, w₁)) : Peers w₁ w' := by
  obtain ⟨hallocators, hschedule⟩ := (Step.change_of_run hs harm hrun).schedule
  exact ⟨h.allocators.trans hallocators.symm, h.schedule.trans hschedule.symm,
    Step.unarmed_of_run h.unarmed harm hrun, h.unarmed'⟩

/-- What is put into a variable spares an event that it does not refer to, if the event is there
afterwards. -/
theorem World.spares_assigned {v : String} {x : Variable} (hx : x.address? ≠ some a)
    (halive : ((w.assigned v x).system.cell? a).isSome) : w.Spares a (w.assigned v x) := by
  have hcell := w.cell?_displaced v x a
  have howned : w.owned? v ≠ some a := by
    intro hv
    rw [if_pos ⟨hv, hx⟩] at hcell
    rw [World.assigned, hcell] at halive
    cases halive
  constructor
  case cell => exact hcell.trans (if_neg fun h => howned h.1)
  case held =>
    intro u y hy hya
    by_cases hu : u = v
    · subst hu
      cases (w.get?_assigned_self u x).symm.trans hy
      exact absurd hya hx
    · exact (w.get?_assigned_of_ne x hu).symm.trans hy
  case owned =>
    intro u hu
    have hne : u ≠ v := by
      rintro rfl
      exact howned (World.owned?_eq_some_iff.mpr hu)
    exact (w.get?_assigned_of_ne x hne).trans hu

/-- **A step that is not about an event spares it**, unless it puts something over the owner. -/
theorem Step.Change.spares (h : s.Change setting w w₁) (hw : w.Distinct)
    (hs : s.isAbout w a = false) (hthere : s.target? = none ∨ (w₁.system.cell? a).isSome) :
    w.Spares a w₁ := by
  have hother : ∀ {v x}, s.operands = [v] → w.vars.get? v = some x → x.address? ≠ some a := by
    intro v x hv hx hxa
    rw [Step.isAbout, hv, decide_eq_false_iff_not] at hs
    refine hs ⟨nofun, fun u hu => ?_⟩
    cases List.mem_singleton.mp hu
    exact (World.address?_eq hx).trans hxa
  cases h with
  | look => exact ⟨rfl, fun _ _ hx _ => hx, fun _ h => h⟩
  | call hv hx hy =>
    exact ⟨Step.cell?_call? (hother hv hx) hy _, fun _ _ hx _ => hx, fun _ h => h⟩
  | null v source => exact World.spares_assigned nofun (hthere.resolve_left nofun)
  | copy via hk => exact World.spares_assigned (hother rfl hk) (hthere.resolve_left nofun)
  | @delete v x via hx =>
    have hxa := hother rfl hx
    have howned : ∀ u, w.vars.get? u = some (.owner ⟨a⟩) →
        (({ w with system := (System.releaseAt x.address?).after w.system }).forgetAt
          x.address?).vars.get? u = some (.owner ⟨a⟩) := fun u hu =>
      World.get?_forgetAt_of_ne hw hu fun b hb hab => hxa (hb.trans hab.symm)
    refine ⟨?_, ?_, howned⟩
    · cases hb : x.address? with
      | none => rfl
      | some b =>
        exact (System.cell?_after_release b a w.system).trans
          (if_neg (fun (hab : a = b) => hxa (hab ▸ hb)))
    · intro u y hy _
      cases hb : x.address? with
      | none =>
        rw [hb] at hy
        exact hy
      | some b =>
        rw [hb] at hy
        exact World.of_get?_forget hw hy
  | @intoHandle v o ho =>
    have hoa : o.address ≠ a := fun h => hother rfl ho (congrArg some h)
    refine ⟨rfl, fun u y hy hya => ?_, fun u hu => ?_⟩
    · by_cases hu : u = v
      · subst hu
        cases (Table.get?_set_self w.vars u _).symm.trans hy
        exact absurd (Option.some.inj ((Handle.address?_ofAddress o.address).symm.trans hya)) hoa
      · exact (Table.get?_set_of_ne _ _ hu).symm.trans hy
    · have hne : u ≠ v := by
        rintro rfl
        cases ho.symm.trans hu
        exact hoa rfl
      exact (Table.get?_set_of_ne _ _ hne).trans hu
  | @intoOwner v k b hk hb =>
    have hba : b ≠ a := fun h => hother rfl hk (h ▸ hb)
    refine ⟨rfl, fun u y hy hya => ?_, fun u hu => ?_⟩
    · by_cases hu : u = v
      · subst hu
        cases (Table.get?_set_self (w.forget b).vars u _).symm.trans hy
        exact absurd (Option.some.inj hya) hba
      · exact World.of_get?_forget hw ((Table.get?_set_of_ne _ _ hu).symm.trans hy)
    · have hne : u ≠ v := by
        rintro rfl
        cases hk.symm.trans hu
      refine (Table.get?_set_of_ne _ _ hne).trans ?_
      exact World.get?_forgetAt_of_ne (s := w.system) (b := some b) hw hu fun c hc hac =>
        hba (Option.some.inj (hc.trans hac.symm))
  | @intoNothing v hk =>
    refine ⟨rfl, fun u y hy _ => ?_, fun u hu => ?_⟩
    · have hne : u ≠ v := by
        rintro rfl
        cases (Table.get?_erase_self w.vars u).symm.trans hy
      exact (Table.get?_erase_of_ne _ hne).symm.trans hy
    · have hne : u ≠ v := by
        rintro rfl
        cases hk.symm.trans hu
      exact (Table.get?_erase_of_ne _ hne).trans hu

end Drops

end Script

/-! ### Steps that are kept -/

namespace System

/-- Two systems, neither with a log sink that is armed, and with an event in common. -/
def Joined (a a' : Address) (s s' : System) : Prop :=
  s.Unarmed ∧ s'.Unarmed ∧ s'.cell? a' = s.cell? a

theorem paired_joined (a a' : Address) : Paired (Joined a a') a a' where
  cell := fun h => h.2.2
  place := fun h c => ⟨h.1, h.2.1, (cell?_place_self ..).trans (cell?_place_self ..).symm⟩
  log := by
    intro r s s' h
    simp only [Attempt.outcome, Attempt.after, log_of_unarmed h.1, log_of_unarmed h.2.1]
    exact ⟨trivial, unarmed_noted h.1 r, unarmed_noted h.2.1 r, h.2.2⟩

end System

namespace Script

section Keeps

variable {setting : Setting} {a a' : Address} {w w' w₁ w₁' : World} {s : Step} {answer : Answer}
  {v : String} {x : Variable} {y : Attempt System Answer}

/-- A step that reads a variable creates nothing. -/
theorem Step.makes_of_operands (h : s.operands ≠ []) : s.makes = false ∧ s ≠ .armLog := by
  cases s with
  | allocator _ _ | armLog | new _ _ | create _ _ | createForeign _ => exact absurd rfl h
  | _ => exact ⟨rfl, nofun⟩

theorem Step.of_isAbout (h : s.isAbout w a = true) :
    s.operands ≠ [] ∧ ∀ v ∈ s.operands, w.address? v = some a :=
  of_decide_eq_true h

/-- **A call on an event that stands elsewhere** is the same call. -/
theorem Step.call?_movedTo {R : System → System → Prop} (h : System.Paired R a a')
    (ha : x.address? = some a) (hy : s.call? setting x = some y) :
    ∃ y', s.call? setting (x.movedTo a') = some y' ∧ Attempt.Alike R y y' := by
  cases s with
  | isSignaled v =>
    rcases x with o | k <;> cases hy
    cases ha
    exact ⟨_, rfl, (h.enter _ _).map _⟩
  | signal v via =>
    cases hy
    refine ⟨_, rfl, ?_⟩
    rw [Variable.signal_eq, Variable.signal_eq, ha, x.address?_movedTo]
    exact (h.enter _ _).map _
  | wait v via =>
    cases hy
    refine ⟨_, rfl, ?_⟩
    rw [Variable.wait_eq, Variable.wait_eq, ha, x.address?_movedTo]
    exact (h.enter _ _).map _
  | tryWait v =>
    cases hy
    refine ⟨_, rfl, ?_⟩
    rw [Variable.tryWait_eq, Variable.tryWait_eq, ha, x.address?_movedTo]
    exact (h.enter _ _).map _
  | waitTimeout v timeout =>
    rcases x with o | k <;> cases hy
    cases ha
    exact ⟨_, rfl, (h.waitPatiently ..).map _⟩
  | _ => cases hy

/-- **A deletion of the event** takes it away from both worlds. -/
theorem Shadow.of_delete (hw : w.Distinct) (hw' : w'.Distinct)
    (hpeers : Peers
      (({ w with system := (System.release a).after w.system } : World).forget a)
      (({ w' with system := (System.release a').after w'.system } : World).forget a')) :
    Shadow a a' (({ w with system := (System.release a).after w.system } : World).forget a)
      (({ w' with system := (System.release a').after w'.system } : World).forget a') where
  toPeers := hpeers
  cell := (System.cell?_after_release ..).trans
    ((if_pos rfl).trans ((System.cell?_after_release ..).trans (if_pos rfl)).symm)
  held := by
    intro u y hy hya
    exact absurd hya (World.ne_of_get?_forget (w := w) hw hy)
  owned := by
    intro u hu
    exact absurd rfl (World.ne_of_get?_forget (w := w') hw' hu)

namespace Shadow

variable (h : Shadow a a' w w')
include h

/-- A variable that refers to the event. -/
theorem address?_eq (hv : w.address? v = some a) : w'.address? v = some a' := by
  obtain ⟨x, hx, ha⟩ := Option.bind_eq_some_iff.mp hv
  exact (World.address?_eq (h.held v x hx ha)).trans (x.address?_movedTo a')

/-- A step about the event that creates nothing has nothing to do with allocators. -/
theorem peers {answer' : Answer} (hs : s.makes = false) (harm : s ≠ .armLog)
    (hrun : s.run setting w = .ok (answer, w₁)) (hrun' : s.run setting w' = .ok (answer', w₁')) :
    Peers w₁ w₁' :=
  ((h.toPeers.drops hs harm hrun).symm.drops hs harm hrun').symm

/-- **A call on the event** has the same answer, and leaves the event alike. -/
theorem call (hv : s.operands = [v]) (hsubject : s.subject? = some v)
    (hx : w.vars.get? v = some x) (ha : x.address? = some a) (hy : s.call? setting x = some y) :
    ∃ w₁', s.run setting w' = .ok ((settle y w).1, w₁') ∧
      Shadow a a' (settle y w).2 w₁' ∧ s.subject?.bind w₁'.cell? =
        s.subject?.bind (settle y w).2.cell? := by
  have hx' := h.held v x hx ha
  obtain ⟨y', hy', halike⟩ := Step.call?_movedTo (System.paired_joined a a') ha hy
  obtain ⟨hout, hafter⟩ := halike ⟨h.unarmed, h.unarmed', h.cell⟩
  have hrun := Step.run_of_call hsubject hx hy
  have hrun' := Step.run_of_call hsubject hx' hy'
  have hmakes : s.makes = false ∧ s ≠ .armLog := Step.makes_of_operands (hv ▸ nofun)
  have hjoined : Shadow a a' (settle y w).2 (settle y' w').2 :=
    { h.peers hmakes.1 hmakes.2 hrun hrun' with
      cell := hafter.2.2
      held := h.held
      owned := h.owned }
  refine ⟨(settle y' w').2, hrun'.trans ?_, hjoined, ?_⟩
  · rw [settle, settle, hout]
  · rw [hsubject]
    exact hjoined.cell?_eq hx ha

/-- **A variable can get a handle to the event** in both worlds, whatever it held before. -/
theorem handed {t t' : System}
    (hpeers : Peers { w with system := t, vars := w.vars.set v (.handle (.ofAddress a)) }
      { w' with system := t', vars := w'.vars.set v (.handle (.ofAddress a')) })
    (hcell : t'.cell? a' = t.cell? a) :
    Shadow a a' { w with system := t, vars := w.vars.set v (.handle (.ofAddress a)) }
      { w' with system := t', vars := w'.vars.set v (.handle (.ofAddress a')) } where
  toPeers := hpeers
  cell := hcell
  held := by
    intro u y hy hya
    by_cases hu : u = v
    · subst hu
      cases (Table.get?_set_self ..).symm.trans hy
      exact Table.get?_set_self ..
    · exact (Table.get?_set_of_ne _ _ hu).trans
        (h.held u y ((Table.get?_set_of_ne _ _ hu).symm.trans hy) hya)
  owned := by
    intro u hu
    have hne : u ≠ v := by
      rintro rfl
      cases (Table.get?_set_self ..).symm.trans hu
    exact (Table.get?_set_of_ne _ _ hne).trans
      (h.owned u ((Table.get?_set_of_ne _ _ hne).symm.trans hu))

/-- **A copy of a handle to the event** is one in both worlds. -/
theorem copy (hpeers : Peers (w.assigned v (.handle (.ofAddress a)))
      (w'.assigned v (.handle (.ofAddress a')))) :
    Shadow a a' (w.assigned v (.handle (.ofAddress a)))
      (w'.assigned v (.handle (.ofAddress a'))) := by
  have hstays : ∀ {w : World} {b : Address},
      (w.displaced v (.handle (.ofAddress b))).cell? b = w.system.cell? b := fun {w b} =>
    (w.cell?_displaced ..).trans (if_neg fun hne => hne.2 (Handle.address?_ofAddress b))
  exact h.handed hpeers (hstays.trans (h.cell.trans hstays.symm))

/-- **A handle that turns into the owner** does so in both worlds. -/
theorem intoOwner (hw : w.Distinct) (hw' : w'.Distinct)
    (hpeers : Peers { w.forget a with vars := (w.forget a).vars.set v (.owner ⟨a⟩) }
      { w'.forget a' with vars := (w'.forget a').vars.set v (.owner ⟨a'⟩) }) :
    Shadow a a' { w.forget a with vars := (w.forget a).vars.set v (.owner ⟨a⟩) }
      { w'.forget a' with vars := (w'.forget a').vars.set v (.owner ⟨a'⟩) } where
  toPeers := hpeers
  cell := h.cell
  held := by
    intro u y hy hya
    by_cases hu : u = v
    · subst hu
      cases (Table.get?_set_self ..).symm.trans hy
      exact Table.get?_set_self ..
    · exact absurd hya (World.ne_of_get?_forget hw ((Table.get?_set_of_ne _ _ hu).symm.trans hy))
  owned := by
    intro u hu
    by_cases huv : u = v
    · subst huv
      exact Table.get?_set_self ..
    · exact absurd rfl
        (World.ne_of_get?_forget hw' ((Table.get?_set_of_ne _ _ huv).symm.trans hu))

/-- **A step about the event** has the same answer in both worlds, and leaves it alike. Only a text
shows where the event stands. -/
theorem keeps (hw : w.Distinct) (hw' : w'.Distinct) (hs : s.isAbout w a = true)
    (hrun : s.run setting w = .ok (answer, w₁)) :
    ∃ answer' w₁', s.run setting w' = .ok (answer', w₁') ∧ answer'.hidden = answer.hidden ∧
      (a' = a → answer' = answer) ∧ Shadow a a' w₁ w₁' ∧
      s.subject?.bind w₁'.cell? = s.subject?.bind w₁.cell? := by
  obtain ⟨hops, hall⟩ := Step.of_isAbout hs
  obtain ⟨hmakes, harm⟩ := Step.makes_of_operands hops
  have habout : ∀ {v x}, v ∈ s.operands → w.vars.get? v = some x → x.address? = some a :=
    fun hv hx => (World.address?_eq hx).symm.trans (hall _ hv)
  have hhandle : ∀ {v k}, v ∈ s.operands → w.vars.get? v = some (.handle k) →
      k = .ofAddress a := fun hv hk =>
    Handle.eq_of_address? ((habout hv hk).trans (Handle.address?_ofAddress a).symm)
  by_cases htext : ∃ v spec, s = .text v spec
  · obtain ⟨v, spec, rfl⟩ := htext
    obtain ⟨x, hx⟩ := Need.exists_variable (Step.met_of_run hrun List.mem_cons_self)
    cases (Step.run_text spec hx).symm.trans hrun
    have ha := habout List.mem_cons_self hx
    refine ⟨_, w', Step.run_text spec (h.held v _ hx ha), ?_, ?_, h, h.cell?_eq hx ha⟩
    · rw [h.cell?_eq hx ha, Answer.hidden, Answer.hidden, Text.Shown.hidden, Text.Shown.hidden,
        Variable.hidden_tree_movedTo ha]
    · rintro rfl
      rw [h.cell?_eq hx ha, Variable.movedTo_self ha]
  suffices hsame : ∃ w₁', s.run setting w' = .ok (answer, w₁') ∧ Shadow a a' w₁ w₁' ∧
      s.subject?.bind w₁'.cell? = s.subject?.bind w₁.cell? by
    obtain ⟨w₁', hrun', hjoined, hview⟩ := hsame
    exact ⟨answer, w₁', hrun', rfl, fun _ => rfl, hjoined, hview⟩
  cases s with
  | allocator _ _ | armLog | new _ _ | create _ _ | createForeign _ | null _ _ =>
    exact absurd rfl hops
  | text v spec => exact absurd ⟨v, spec, rfl⟩ htext
  | copy v source via =>
    obtain ⟨k, hk, rfl, rfl⟩ := Step.of_copy hrun
    cases hhandle List.mem_cons_self hk
    have hrun' : Step.run setting (.copy v source via) w' = _ :=
      Step.run_copy via (h.held source _ hk (Handle.address?_ofAddress a))
    have hjoined := h.copy (h.peers hmakes harm hrun hrun')
    refine ⟨_, hrun'.trans ?_, hjoined, ?_⟩
    · rw [isNull_ofAddress, isNull_ofAddress]
    · exact hjoined.cell?_eq (w.get?_assigned_self ..) (Handle.address?_ofAddress a)
  | compare v u =>
    obtain ⟨k, hk⟩ := Need.exists_handle (Step.met_of_run hrun List.mem_cons_self)
    obtain ⟨l, hl⟩ := Need.exists_handle
      (Step.met_of_run hrun (List.mem_cons_of_mem _ List.mem_cons_self))
    cases (Step.run_compare hk hl).symm.trans hrun
    cases hhandle List.mem_cons_self hk
    cases hhandle (List.mem_cons_of_mem _ List.mem_cons_self) hl
    have hrun' : Step.run setting (.compare v u) w' = _ :=
      Step.run_compare (h.held v _ hk (Handle.address?_ofAddress a))
        (h.held u _ hl (Handle.address?_ofAddress a))
    exact ⟨w', hrun'.trans (by simp), h, h.cell?_eq hk (Handle.address?_ofAddress a)⟩
  | isNull v =>
    obtain ⟨k, hk⟩ := Need.exists_handle (Step.met_of_run hrun List.mem_cons_self)
    cases (Step.run_isNull hk).symm.trans hrun
    cases hhandle List.mem_cons_self hk
    have hrun' : Step.run setting (.isNull v) w' = _ :=
      Step.run_isNull (h.held v _ hk (Handle.address?_ofAddress a))
    refine ⟨w', hrun'.trans ?_, h, h.cell?_eq hk (Handle.address?_ofAddress a)⟩
    rw [isNull_ofAddress, isNull_ofAddress]
  | isSignaled v | waitTimeout v timeout =>
    obtain ⟨o, ho⟩ := Need.exists_owner (Step.met_of_run hrun List.mem_cons_self)
    cases (Step.run_of_call rfl ho rfl).symm.trans hrun
    exact h.call rfl rfl ho (habout List.mem_cons_self ho) rfl
  | signal v via | wait v via | tryWait v =>
    obtain ⟨x, hx⟩ := Need.exists_variable (Step.met_of_run hrun List.mem_cons_self)
    cases (Step.run_of_call rfl hx rfl).symm.trans hrun
    exact h.call rfl rfl hx (habout List.mem_cons_self hx) rfl
  | delete v via =>
    obtain ⟨x, hx⟩ := Need.exists_variable (Step.met_of_run hrun List.mem_cons_self)
    cases (Step.run_delete via hx).symm.trans hrun
    have ha := habout List.mem_cons_self hx
    have hrun' : Step.run setting (.delete v via) w' = _ :=
      Step.run_delete via (h.held v _ hx ha)
    have hpeers := h.peers hmakes harm hrun hrun'
    -- the variable itself goes out of use
    have hgone := World.address?_forgetAt hw hx (s := (System.release a).after w.system)
    have hgone' := World.address?_forgetAt hw' (h.held v _ hx ha)
      (s := (System.release a').after w'.system)
    rw [x.address?_movedTo] at hrun' hpeers hgone'
    rw [ha] at hpeers hgone ⊢
    refine ⟨_, hrun'.trans ?_, Shadow.of_delete hw hw' hpeers, ?_⟩
    · simp only [System.releaseAt, Attempt.outcome, System.release_of_unarmed h.unarmed,
        System.release_of_unarmed h.unarmed']
      rfl
    · exact (World.cell?_of_address?_eq_none hgone').trans
        (World.cell?_of_address?_eq_none hgone).symm
  | intoHandle v =>
    obtain ⟨o, ho⟩ := Need.exists_owner (Step.met_of_run hrun List.mem_cons_self)
    cases (Step.run_intoHandle ho).symm.trans hrun
    cases habout List.mem_cons_self ho
    have hrun' : Step.run setting (.intoHandle v) w' = _ :=
      Step.run_intoHandle (h.held v _ ho rfl)
    have hjoined := h.handed (h.peers hmakes harm hrun hrun') h.cell
    exact ⟨_, hrun', hjoined,
      hjoined.cell?_eq (Table.get?_set_self ..) (Handle.address?_ofAddress _)⟩
  | intoOwner v =>
    obtain ⟨k, hk⟩ := Need.exists_handle (Step.met_of_run hrun List.mem_cons_self)
    cases hhandle List.mem_cons_self hk
    have hrun' : Step.run setting (.intoOwner v) w' = _ :=
      Step.run_intoOwner (h.held v _ hk (Handle.address?_ofAddress a))
    have hstep := (Step.run_intoOwner hk).symm.trans hrun
    rw [Handle.address?_ofAddress] at hrun' hstep
    cases hstep
    have hjoined := h.intoOwner hw hw' (h.peers hmakes harm hrun hrun')
    exact ⟨_, hrun', hjoined, hjoined.cell?_eq (Table.get?_set_self ..) rfl⟩

end Shadow

end Keeps

/-! ### Steps that create something -/

section Makes

variable {setting : Setting} {a a' : Address} {w w' w₁ : World} {s : Step} {answer : Answer}
  {v : String} {ds ds' : List Deed} {o : Origin} {c : Creation}

/-- **Where memory is found there is no event**, and nothing refers to that place. -/
theorem World.Keeps.unused (h : w.Keeps ds) {policy : Placement}
    (hr : (w.system.askMemory policy o).1 = some a) :
    w.system.cell? a = none ∧ ∀ v x, w.vars.get? v = some x → x.address? ≠ some a := by
  obtain ⟨r, h', hask, hgrants⟩ := w.system.grants_askMemory policy o
  rw [hask] at hr
  have hfresh := h.accounts.fresh_of_grants hgrants hr
  refine ⟨?_, fun v x hx ha => hfresh (h.address_mem hx ha)⟩
  rw [Option.eq_none_iff_forall_not_mem]
  intro c hc
  have hleft := (h.accounts.cells c.origin a).mpr (Option.map_eq_some_iff.mpr ⟨c, hc, rfl⟩)
  exact hfresh (List.mem_map_of_mem hleft)

theorem World.unarmed_afterCreate (h : w.system.Unarmed) (policy : Placement) (o : Origin) :
    (w.afterCreate policy o).system.Unarmed :=
  ((System.congruence_unarmed policy).create o ⟨rfl, h⟩).2.2

theorem World.unarmed_hold (h : w.system.Unarmed) (v : String) (x : Option Variable) :
    (w.hold v x).system.Unarmed :=
  (World.Like.hold (System.congruence_unarmed (Setting.policy {})) ⟨⟨rfl, h⟩, rfl, rfl⟩
    v x).system.2

theorem World.schedule_hold (w : World) (v : String) (x : Option Variable) :
    (w.hold v x).system.schedule = w.system.schedule := by
  cases x with
  | none => rfl
  | some x => exact w.schedule_displaced v x

namespace Peers

variable (h : Peers w w')
include h

theorem origin?_eq (memory : Source) : w'.origin? memory = w.origin? memory := by
  cases memory with
  | system => rfl
  | named name => rw [World.origin?, World.origin?, h.allocators]

/-- **As long as there is space**, a request is refused in both worlds or in neither. -/
theorem isSome_askMemory {policy : Placement} (o : Origin)
    (hroom : (policy.place w.system.heap.past w.system.heap.live Cell.layout).isSome)
    (hroom' : (policy.place w'.system.heap.past w'.system.heap.live Cell.layout).isSome) :
    (w.system.askMemory policy o).1.isSome = (w'.system.askMemory policy o).1.isSome := by
  rw [System.isSome_askMemory o hroom, System.isSome_askMemory o hroom', h.schedule]

theorem withAllocator (name : String) (plan : FailurePlan) :
    Peers (w.withAllocator name plan) (w'.withAllocator name plan) where
  allocators := by
    have hcount : w'.system.ledgers.length = w.system.ledgers.length := by
      simpa [System.schedule] using congrArg List.length h.schedule
    simp only [World.withAllocator, h.allocators, hcount]
  schedule := by
    have hschedule := h.schedule
    simp only [System.schedule, World.withAllocator, List.map_append] at hschedule ⊢
    rw [hschedule]
  unarmed := h.unarmed
  unarmed' := h.unarmed'

theorem afterCreate (policy : Placement) (o : Origin) :
    Peers (w.afterCreate policy o) (w'.afterCreate policy o) where
  allocators := h.allocators
  schedule := by
    show ((System.create policy o).after w'.system).schedule =
      ((System.create policy o).after w.system).schedule
    rw [System.schedule_after_create, System.schedule_after_create, h.schedule]
  unarmed := World.unarmed_afterCreate h.unarmed policy o
  unarmed' := World.unarmed_afterCreate h.unarmed' policy o

theorem hold (v : String) (x x' : Option Variable) : Peers (w.hold v x) (w'.hold v x') where
  allocators := by rw [World.allocators_hold, World.allocators_hold, h.allocators]
  schedule := by rw [World.schedule_hold, World.schedule_hold, h.schedule]
  unarmed := World.unarmed_hold h.unarmed v x
  unarmed' := World.unarmed_hold h.unarmed' v x'

end Peers

namespace Shadow

variable (h : Shadow a a' w w')
include h

/-- The creation of another event does not touch this one. -/
theorem afterCreate (policy : Placement) (o : Origin)
    (hr : (w.system.askMemory policy o).1 ≠ some a)
    (hr' : (w'.system.askMemory policy o).1 ≠ some a') :
    Shadow a a' (w.afterCreate policy o) (w'.afterCreate policy o) where
  toPeers := h.toPeers.afterCreate policy o
  cell := by
    show ((System.create policy o).after w'.system).cell? a' =
      ((System.create policy o).after w.system).cell? a
    rw [System.cell?_after_create policy o h.unarmed', if_neg hr',
      System.cell?_after_create policy o h.unarmed, if_neg hr]
    exact h.cell
  held := h.held
  owned := h.owned

theorem owned?_iff (v : String) : w'.owned? v = some a' ↔ w.owned? v = some a := by
  rw [World.owned?_eq_some_iff, World.owned?_eq_some_iff]
  exact ⟨h.owned v, fun hv => h.held v _ hv rfl⟩

/-- What is put into a variable of both, and does not refer to the event, takes it away from
both or from neither. -/
theorem hold (v : String) {x x' : Option Variable} (hsome : x.isSome = x'.isSome)
    (hx : ∀ y ∈ x, y.address? ≠ some a) (hx' : ∀ y ∈ x', y.address? ≠ some a') :
    Shadow a a' (w.hold v x) (w'.hold v x') := by
  rcases x with _ | x <;> rcases x' with _ | x'
  · exact h
  · cases hsome
  · cases hsome
  · replace hx := hx x rfl
    replace hx' := hx' x' rfl
    constructor
    case toPeers => exact h.toPeers.hold v (some x) (some x')
    case cell =>
      refine (w'.cell?_displaced v x' a').trans (Eq.trans ?_ (w.cell?_displaced v x a).symm)
      simp only [h.owned?_iff v, ne_eq, hx, hx', not_false_eq_true, and_true]
      split
      · rfl
      · exact h.cell
    case held =>
      intro u y hy hya
      by_cases hu : u = v
      · subst hu
        cases (w.get?_assigned_self u x).symm.trans hy
        exact absurd hya hx
      · exact (w'.get?_assigned_of_ne x' hu).trans
          (h.held u y ((w.get?_assigned_of_ne x hu).symm.trans hy) hya)
    case owned =>
      intro u hu
      have hne : u ≠ v := by
        rintro rfl
        cases (w'.get?_assigned_self u x').symm.trans hu
        exact hx' rfl
      exact (w.get?_assigned_of_ne x hne).trans
        (h.owned u ((w'.get?_assigned_of_ne x' hne).symm.trans hu))

end Shadow

/-- What is to be held of an event, by where it stands. -/
theorem Creation.exists_held (c : Creation) (a a' : Address) :
    ∃ x : Variable, x.address? = some a ∧ c.held (some a) = some x ∧
      c.held (some a') = some (x.movedTo a') := by
  unfold held
  cases c.owned with
  | true => exact ⟨.owner ⟨a⟩, rfl, rfl, rfl⟩
  | false => exact ⟨.handle (.ofAddress a), Handle.address?_ofAddress a, rfl, rfl⟩

theorem Creation.isSome_held_congr (c : Creation) {r r' : Option Address}
    (h : r.isSome = r'.isSome) : (c.held r).isSome = (c.held r').isSome := by
  rcases r with _ | a <;> rcases r' with _ | a'
  · rfl
  · cases h
  · cases h
  · rfl

/-- **An event that both worlds create** is one that they have in common. -/
theorem Peers.created (h : Peers w w') (hw : w.Keeps ds) (hw' : w'.Keeps ds')
    {policy : Placement} (hr : (w.system.askMemory policy o).1 = some a)
    (hr' : (w'.system.askMemory policy o).1 = some a') :
    (((w.afterCreate policy o).hold c.target (c.held (some a))).system.cell? a).isSome ∧
      Shadow a a' ((w.afterCreate policy o).hold c.target (c.held (some a)))
        ((w'.afterCreate policy o).hold c.target (c.held (some a'))) := by
  obtain ⟨x, hx, hheld, hheld'⟩ := c.exists_held a a'
  have hpeers := (h.afterCreate policy o).hold c.target (c.held (some a)) (c.held (some a'))
  rw [hheld, hheld'] at hpeers ⊢
  have hcell : ∀ {w : World} {y : Variable} {b : Address}, w.system.Unarmed →
      (w.system.askMemory policy o).1 = some b → y.address? = some b →
      ((w.afterCreate policy o).assigned c.target y).system.cell? b = some (.fresh o) := by
    intro w y b hunarmed hb hy
    refine (World.cell?_displaced ..).trans ((if_neg fun hne => hne.2 hy).trans ?_)
    exact (System.cell?_after_create policy o hunarmed b).trans (if_pos hb)
  have hfirst := hcell h.unarmed hr hx
  have hsecond := hcell h.unarmed' hr' (x.address?_movedTo a')
  refine ⟨Option.isSome_iff_exists.mpr ⟨_, hfirst⟩, hpeers, hsecond.trans hfirst.symm, ?_, ?_⟩
  · intro u y hy hya
    by_cases hu : u = c.target
    · subst hu
      cases (World.get?_assigned_self ..).symm.trans hy
      exact World.get?_assigned_self ..
    · exact absurd hya ((hw.unused hr).2 u y ((World.get?_assigned_of_ne _ x hu).symm.trans hy))
  · intro u hu
    by_cases hne : u = c.target
    · subst hne
      have hmoved := (World.get?_assigned_self ..).symm.trans hu
      refine (World.get?_assigned_self ..).trans ?_
      rcases x with ⟨b⟩ | k
      · cases hx
        rfl
      · cases hmoved
    · exact absurd rfl
        ((hw'.unused hr').2 u _ ((World.get?_assigned_of_ne _ _ hne).symm.trans hu))

end Makes

end Script

end AutoReset
