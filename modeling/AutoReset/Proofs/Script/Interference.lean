import AutoReset.Proofs.Script.Shadow
import AutoReset.Proofs.Script.Space
/-!
# Events do not interfere

Take any script and one of the events that it creates, and leave out every step that reads a
variable of another event, or of none (`AutoReset.Script.sift`). Of the steps that are kept, those
that create nothing have the same answer, and leave the same of the event
(`AutoReset.Script.Matches`). And two steps on different events can change places
(`AutoReset.Script.reports_swap`).

The script with steps left out is another one: the event stands at another address, other events
live longer in it, and variables that the steps left out would have overwritten still hold what
they held. The worlds that the two scripts have come to have the event in common all the while
(`AutoReset.Script.Sight.Joins`), from the step that creates it until it is gone.

The events that stay take up memory, so where little is left an event may be refused in one of the
scripts and not in the other. It has to be said that it is not (`AutoReset.Script.CreatesAlike`),
and it cannot be left out (`AutoReset.Script.interference`). Nothing else of one event is seen by
the steps on another, but for its address, which differs and shows in texts
(`AutoReset.Script.Answer.hidden`).
-/

namespace AutoReset

namespace Script

/-! ### Scripts with steps left out -/

/-- The event that the step creates. -/
def Step.made? (policy : Placement) (w : World) (s : Step) : Option Address :=
  s.creation?.bind fun c =>
    (w.origin? c.memory).bind fun o => (w.system.askMemory policy o).1

/-- What has become of the event that a script is looked through for. -/
inductive Sight where
  /-- The step after so many others is to create it. -/
  | awaited (n : Nat)
  /-- It is here. -/
  | seen (a : Address)
  /-- It is gone, or there was no memory for it. -/
  | gone

namespace Sight

/-- Is a step kept? A step that reads no variable is, and so is one that is about the event. -/
def keeps (w : World) (s : Step) : Sight → Bool
  | seen a => s.operands.isEmpty || s.isAbout w a
  | _ => s.operands.isEmpty

/-- What has become of the event after a step from one world to another. -/
def after (policy : Placement) (s : Step) (w w' : World) : Sight → Sight
  | awaited 0 =>
    match s.made? policy w with
    | some a => seen a
    | none => gone
  | awaited (n + 1) => awaited n
  | seen a => if (w'.system.cell? a).isSome then seen a else gone
  | gone => gone

end Sight

/-- **The steps of a script, and which of them are kept.** -/
def sift (setting : Setting) : Sight → List Step → World → List (Bool × Step)
  | _, [], _ => []
  | sight, s :: steps, w =>
    (sight.keeps w s, s) ::
      match s.run setting w with
      | .ok r => sift setting (sight.after setting.policy s w r.2) steps r.2
      | .error _ => []

/-- The steps that are kept. -/
def kept (marked : List (Bool × Step)) : List Step := (marked.filter Prod.fst).map Prod.snd

/-- **The steps that are kept report the same**, but for those that create something: the same
answer, if addresses are left out of it, flag, counters and number of sleepers. -/
inductive Matches : List (Bool × Step) → List Report → List Report → Prop
  /-- No step is left. -/
  | nil : Matches [] [] []
  /-- A step that creates something is kept. -/
  | makes {s : Step} {r r' : Report} {marked : List (Bool × Step)} {rs rs' : List Report}
    (h : s.makes = true) (hs : Matches marked rs rs') :
    Matches ((true, s) :: marked) (r :: rs) (r' :: rs')
  /-- A step that creates nothing is kept. -/
  | keeps {s : Step} {r r' : Report} {marked : List (Bool × Step)} {rs rs' : List Report}
    (answer : r.answer.hidden = r'.answer.hidden) (view : r.view = r'.view)
    (hs : Matches marked rs rs') :
    Matches ((true, s) :: marked) (r :: rs) (r' :: rs')
  /-- A step is left out. -/
  | drops {s : Step} {r : Report} {marked : List (Bool × Step)} {rs rs' : List Report}
    (hs : Matches marked rs rs') : Matches ((false, s) :: marked) (r :: rs) rs'

/-- **Every creation comes out alike** in the script and where steps are left out: there is memory
for the event in both, or in neither. -/
def CreatesAlike (setting : Setting) : Sight → List Step → World → World → Prop
  | _, [], _, _ => True
  | sight, s :: steps, w, w' =>
    (s.made? setting.policy w).isSome = (s.made? setting.policy w').isSome ∧
      ∀ r ∈ (s.run setting w).toOption,
        match sight.keeps w s with
        | true => ∀ r' ∈ (s.run setting w').toOption,
          CreatesAlike setting (sight.after setting.policy s w r.2) steps r.2 r'.2
        | false => CreatesAlike setting (sight.after setting.policy s w r.2) steps r.2 w'

instance decidableCreatesAlike (setting : Setting) :
    (sight : Sight) → (steps : List Step) → (w w' : World) →
      Decidable (CreatesAlike setting sight steps w w')
  | _, [], _, _ => .isTrue trivial
  | sight, s :: steps, w, w' =>
    haveI : DecidablePred fun r : Answer × World =>
        match sight.keeps w s with
        | true => ∀ r' ∈ (s.run setting w').toOption,
          CreatesAlike setting (sight.after setting.policy s w r.2) steps r.2 r'.2
        | false =>
          CreatesAlike setting (sight.after setting.policy s w r.2) steps r.2 w' := fun r =>
      match sight.keeps w s with
      | true =>
        haveI : DecidablePred fun r' : Answer × World =>
            CreatesAlike setting (sight.after setting.policy s w r.2) steps r.2 r'.2 :=
          fun r' => decidableCreatesAlike setting _ steps r.2 r'.2
        inferInstanceAs (Decidable (∀ r' ∈ (s.run setting w').toOption,
          CreatesAlike setting (sight.after setting.policy s w r.2) steps r.2 r'.2))
      | false => decidableCreatesAlike setting _ steps r.2 w'
    inferInstanceAs (Decidable (_ ∧ ∀ r ∈ (s.run setting w).toOption, _))

/-- **As long as there is space**, a creation comes out alike in both worlds. -/
theorem Peers.isSome_made? {policy : Placement} {w w' : World} {s : Step} (h : Peers w w')
    (hroom : s.creation?.isSome →
      (policy.place w.system.heap.past w.system.heap.live Cell.layout).isSome)
    (hroom' : s.creation?.isSome →
      (policy.place w'.system.heap.past w'.system.heap.live Cell.layout).isSome) :
    (s.made? policy w).isSome = (s.made? policy w').isSome := by
  unfold Step.made?
  cases hc : s.creation? with
  | none => rfl
  | some c =>
    rw [hc] at hroom hroom'
    rw [Option.bind_some, Option.bind_some, h.origin?_eq]
    cases w.origin? c.memory with
    | none => rfl
    | some o => exact h.isSome_askMemory o (hroom rfl) (hroom' rfl)

theorem length_kept_sift_le (setting : Setting) (sight : Sight) (steps : List Step) (w : World) :
    (kept (sift setting sight steps w)).length ≤ steps.length := by
  have hmarked : (sift setting sight steps w).length ≤ steps.length := by
    induction steps generalizing sight w with
    | nil => exact Nat.le_refl _
    | cons s steps ih =>
      rw [sift, List.length_cons, List.length_cons]
      refine Nat.succ_le_succ ?_
      split
      · exact ih ..
      · exact Nat.zero_le _
  unfold kept
  rw [List.length_map]
  exact (List.length_filter_le ..).trans hmarked

/-! ### Whole scripts -/

namespace Sight

variable {setting : Setting} {w w' w₁ w₁' : World} {s : Step} {answer : Answer}
  {sight : Sight} {ds ds' : List Deed}

/-- **What the two worlds have in common** as long as the event is in sight. -/
def Joins (w w' : World) : Sight → Prop
  | seen a => (w.system.cell? a).isSome ∧ ∃ a', Shadow a a' w w'
  | _ => Peers w w'

theorem Joins.peers (h : sight.Joins w w') : Peers w w' := by
  cases sight with
  | seen a =>
    obtain ⟨-, a', h⟩ := h
    exact h.toPeers
  | awaited n | gone => exact h

/-- The event stays in sight as long as it is there. -/
theorem joins_after {policy : Placement} (hpeers : Peers w₁ w₁')
    (hseen : ∀ a, sight = .seen a → (w₁.system.cell? a).isSome → ∃ a', Shadow a a' w₁ w₁')
    (hmade : ∀ a, s.made? policy w = some a →
      (w₁.system.cell? a).isSome ∧ ∃ a', Shadow a a' w₁ w₁') :
    (sight.after policy s w w₁).Joins w₁ w₁' := by
  rcases sight with (_ | n) | a | _
  · cases hm : s.made? policy w with
    | none =>
      rw [after, hm]
      exact hpeers
    | some a =>
      rw [after, hm]
      exact hmade a hm
  · exact hpeers
  · rw [after]
    split
    · next halive => exact ⟨halive, hseen a rfl halive⟩
    · exact hpeers
  · exact hpeers

theorem made?_of_makes {policy : Placement} (hs : s.makes = false) : s.made? policy w = none := by
  cases s <;> first | rfl | cases hs

/-- A step that is left out creates nothing. -/
theorem makes_of_not_keeps (hs : sight.keeps w s = false) : s.makes = false ∧ s ≠ .armLog := by
  refine Step.makes_of_operands fun hops => ?_
  cases sight <;> simp [keeps, hops] at hs

/-- **A step that is left out** leaves what is in common. -/
theorem Joins.drops (h : sight.Joins w w') (hw : w.Keeps ds) (hs : sight.keeps w s = false)
    (hrun : s.run setting w = .ok (answer, w₁)) :
    (sight.after setting.policy s w w₁).Joins w₁ w' := by
  obtain ⟨hmakes, harm⟩ := makes_of_not_keeps hs
  have hpeers := h.peers.drops hmakes harm hrun
  refine joins_after hpeers (fun a ha halive => ?_) fun a ha => ?_
  · subst ha
    obtain ⟨-, a', hshadow⟩ := h
    have habout : s.isAbout w a = false := (Bool.or_eq_false_iff.mp hs).2
    have hchange := Step.change_of_run hmakes harm hrun
    exact ⟨a', hshadow.of_spares hpeers (hchange.spares hw.distinct habout (Or.inr halive))⟩
  · cases (made?_of_makes hmakes).symm.trans ha

/-- An allocator that is set up in both worlds. -/
theorem Joins.allocator (h : sight.Joins w w') (name : String) (plan : FailurePlan) :
    (sight.after setting.policy (.allocator name plan) w (w.withAllocator name plan)).Joins
      (w.withAllocator name plan) (w'.withAllocator name plan) := by
  have hpeers := h.peers.withAllocator name plan
  refine joins_after hpeers (fun a ha _ => ?_) fun a ha => ?_
  · subst ha
    obtain ⟨-, a', hshadow⟩ := h
    exact ⟨a', hpeers, hshadow.cell, hshadow.held, hshadow.owned⟩
  · cases ha

/-- **An event that is created in both worlds**: it may be the one that is awaited, and does not
stand where the one in sight does. -/
theorem Joins.creates (h : sight.Joins w w') (hw : w.Keeps ds) (hw' : w'.Keeps ds')
    {c : Creation} {o : Origin} (hc : s.creation? = some c) (ho : w.origin? c.memory = some o)
    (hsome : (w.system.askMemory setting.policy o).1.isSome =
      (w'.system.askMemory setting.policy o).1.isSome)
    (hrun : s.run setting w = .ok (answer, w₁)) :
    ∃ answer' w₁', s.run setting w' = .ok (answer', w₁') ∧
      (sight.after setting.policy s w w₁).Joins w₁ w₁' := by
  have ho' := (h.peers.origin?_eq c.memory).trans ho
  cases (Step.run_creation_of_unarmed hc ho h.peers.unarmed).symm.trans hrun
  refine ⟨_, _, Step.run_creation_of_unarmed hc ho' h.peers.unarmed',
    joins_after ((h.peers.afterCreate _ o).hold _ _ _) (fun a ha _ => ?_) fun a ha => ?_⟩
  · subst ha
    obtain ⟨halive, a', hshadow⟩ := h
    obtain ⟨e, he⟩ := Option.isSome_iff_exists.mp halive
    have hr : (w.system.askMemory setting.policy o).1 ≠ some a := fun hr => by
      cases (hw.unused hr).1.symm.trans he
    have hr' : (w'.system.askMemory setting.policy o).1 ≠ some a' := fun hr' => by
      cases (hw'.unused hr').1.symm.trans (hshadow.cell.trans he)
    exact ⟨a', (hshadow.afterCreate _ o hr hr').hold c.target (c.isSome_held_congr hsome)
      (fun y hy => Creation.address?_of_held hy ▸ hr)
      fun y hy => Creation.address?_of_held hy ▸ hr'⟩
  · have hr : (w.system.askMemory setting.policy o).1 = some a := by
      simpa [Step.made?, hc, ho] using ha
    rw [hr] at hsome ⊢
    obtain ⟨a', hr'⟩ := Option.isSome_iff_exists.mp hsome.symm
    rw [hr']
    obtain ⟨halive, hshadow⟩ := h.peers.created hw hw' hr hr'
    exact ⟨halive, a', hshadow⟩

/-- **A step that creates something** does so in both worlds. -/
theorem Joins.makes (h : sight.Joins w w') (hw : w.Keeps ds) (hw' : w'.Keeps ds')
    (hs : s.makes = true)
    (halike : (s.made? setting.policy w).isSome = (s.made? setting.policy w').isSome)
    (hrun : s.run setting w = .ok (answer, w₁)) :
    ∃ answer' w₁', s.run setting w' = .ok (answer', w₁') ∧
      (sight.after setting.policy s w w₁).Joins w₁ w₁' := by
  rcases Step.of_makes hs with ⟨name, plan, rfl⟩ | ⟨c, hc⟩
  · cases hrun
    exact ⟨_, _, Step.run_allocator name plan, h.allocator name plan⟩
  · obtain ⟨o, ho⟩ := Step.exists_origin hc hrun
    have ho' := (h.peers.origin?_eq c.memory).trans ho
    refine h.creates hw hw' hc ho ?_ hrun
    simpa [Step.made?, hc, ho, ho'] using halike

/-- A null handle that is taken in both worlds. -/
theorem Joins.null (h : sight.Joins w w') {v : String} {source : NullSource} :
    (sight.after setting.policy (.null v source) w (w.assigned v (.handle .null))).Joins
      (w.assigned v (.handle .null)) (w'.assigned v (.handle .null)) := by
  refine joins_after (h.peers.hold v (some _) (some _)) (fun a ha _ => ?_) nofun
  subst ha
  obtain ⟨-, a', hshadow⟩ := h
  have hnull : ∀ {b : Address}, ∀ y ∈ some (Variable.handle .null), y.address? ≠ some b := by
    rintro b _ ⟨⟩
    exact nofun
  exact ⟨a', hshadow.hold v rfl hnull hnull⟩

/-- **A step that is kept** is made in both worlds, with the same answer and the same view of the
event, unless it creates something. -/
theorem Joins.keeps (h : sight.Joins w w') (hw : w.Keeps ds) (hw' : w'.Keeps ds')
    (hs : sight.keeps w s = true) (hmakes : s.makes = false) (harm : s ≠ .armLog)
    (hrun : s.run setting w = .ok (answer, w₁)) :
    ∃ answer' w₁', s.run setting w' = .ok (answer', w₁') ∧ answer'.hidden = answer.hidden ∧
      (sight.after setting.policy s w w₁).Joins w₁ w₁' ∧
      s.subject?.bind w₁'.cell? = s.subject?.bind w₁.cell? := by
  by_cases hops : s.operands = []
  · cases s with
    | null v source =>
      cases (Step.run_null source).symm.trans hrun
      have hcell : ∀ w : World, (w.assigned v (.handle .null)).cell? v = none := fun w =>
        World.cell?_of_address?_eq_none (World.address?_eq (w.get?_assigned_self ..))
      exact ⟨_, _, Step.run_null source, rfl, h.null, (hcell w').trans (hcell w).symm⟩
    | armLog => exact absurd rfl harm
    | allocator _ _ | new _ _ | create _ _ | createForeign _ => cases hmakes
    | _ => cases hops
  · have hempty : s.operands.isEmpty = false := by simpa using hops
    rcases sight with n | a | _
    · cases hempty.symm.trans hs
    · obtain ⟨-, a', hshadow⟩ := h
      have habout : s.isAbout w a = true :=
        (Bool.or_eq_true_iff.mp hs).resolve_left (by simp [hempty])
      obtain ⟨answer', w₁', hrun', hanswer, -, hjoined, hview⟩ :=
        hshadow.keeps hw.distinct hw'.distinct habout hrun
      refine ⟨answer', w₁', hrun', hanswer,
        joins_after hjoined.toPeers (fun b hb _ => ?_) fun b hb => ?_, hview⟩
      · cases hb
        exact ⟨a', hjoined⟩
      · cases (made?_of_makes hmakes).symm.trans hb
    · cases hempty.symm.trans hs

/-- **A step that is kept** leaves what is in common. -/
theorem Joins.step {r r' : Answer × World} (h : sight.Joins w w') (hw : w.Keeps ds)
    (hw' : w'.Keeps ds') (hs : sight.keeps w s = true) (harm : s ≠ .armLog)
    (halike : (s.made? setting.policy w).isSome = (s.made? setting.policy w').isSome)
    (hrun : s.run setting w = .ok r) (hrun' : s.run setting w' = .ok r') :
    (sight.after setting.policy s w r.2).Joins r.2 r'.2 := by
  cases hmakes : s.makes with
  | true =>
    obtain ⟨answer', w₁', hsecond, hjoins⟩ := h.makes hw hw' hmakes halike hrun
    cases hrun'.symm.trans hsecond
    exact hjoins
  | false =>
    obtain ⟨answer', w₁', hsecond, -, hjoins, -⟩ := h.keeps hw hw' hs hmakes harm hrun
    cases hrun'.symm.trans hsecond
    exact hjoins

/-- **The steps that are kept report the same** as they do in the whole script. -/
theorem Joins.run {steps : List Step} (h : sight.Joins w w') (hw : w.Keeps ds)
    (hw' : w'.Keeps ds') (hsteps : .armLog ∉ steps) (hs : Sensible setting steps w)
    (halike : CreatesAlike setting sight steps w w') :
    ∃ rs w₁ rs' w₁', reports setting steps w = .ok (rs, w₁) ∧
      reports setting (kept (sift setting sight steps w)) w' = .ok (rs', w₁') ∧
      Matches (sift setting sight steps w) rs rs' := by
  induction steps generalizing sight w w' ds ds' with
  | nil => exact ⟨[], w, [], w', rfl, rfl, .nil⟩
  | cons s steps ih =>
    obtain ⟨hmeets, hrest⟩ := hs
    obtain ⟨harm, hsteps⟩ := List.ne_and_not_mem_of_not_mem_cons hsteps
    obtain ⟨⟨answer, w₁⟩, hrun⟩ := (Step.misuse?_eq_none_iff setting).mp hmeets
    have hsift : sift setting sight (s :: steps) w = (sight.keeps w s, s) ::
        sift setting (sight.after setting.policy s w w₁) steps w₁ := by
      rw [sift, hrun]
    rw [hsift]
    have hsensible : Sensible setting steps w₁ := hrest _ (by rw [hrun]; rfl)
    obtain ⟨hmade, halike⟩ := halike
    replace halike := halike (answer, w₁) (by rw [hrun]; rfl)
    cases hk : sight.keeps w s with
    | false =>
      rw [hk] at halike
      obtain ⟨rs, w₂, rs', w₂', hreports, hreports', hmatches⟩ :=
        ih (h.drops hw hk hrun) (hw.step hrun) hw' hsteps hsensible halike
      exact ⟨_, w₂, rs', w₂', reports_cons hrun hreports, hreports', .drops hmatches⟩
    | true =>
      rw [hk] at halike
      cases hmakes : s.makes with
      | true =>
        obtain ⟨answer', w₁', hrun', hjoins⟩ := h.makes hw hw' hmakes hmade hrun
        obtain ⟨rs, w₂, rs', w₂', hreports, hreports', hmatches⟩ :=
          ih hjoins (hw.step hrun) (hw'.step hrun') hsteps hsensible
            (halike (answer', w₁') (by rw [hrun']; rfl))
        exact ⟨_, w₂, _, w₂', reports_cons hrun hreports, reports_cons hrun' hreports',
          .makes hmakes hmatches⟩
      | false =>
        obtain ⟨answer', w₁', hrun', hanswer, hjoins, hview⟩ :=
          h.keeps hw hw' hk hmakes harm.symm hrun
        obtain ⟨rs, w₂, rs', w₂', hreports, hreports', hmatches⟩ :=
          ih hjoins (hw.step hrun) (hw'.step hrun') hsteps hsensible
            (halike (answer', w₁') (by rw [hrun']; rfl))
        exact ⟨_, w₂, _, w₂', reports_cons hrun hreports, reports_cons hrun' hreports',
          .keeps hanswer.symm (congrArg (Option.map View.ofCell) hview.symm) hmatches⟩

/-- **Where there is space for every event** in both scripts, every creation comes out alike. -/
theorem Joins.createsAlike {steps : List Step} (h : sight.Joins w w') (hw : w.Keeps ds)
    (hw' : w'.Keeps ds') (hsteps : .armLog ∉ steps) (hroom : Roomy setting steps w)
    (hroom' : Roomy setting (kept (sift setting sight steps w)) w') :
    CreatesAlike setting sight steps w w' := by
  -- along the whole script; what the worlds have in common is what each step hands on
  induction steps generalizing sight w w' ds ds' with
  | nil => trivial
  | cons s steps ih =>
    obtain ⟨harm, hsteps⟩ := List.ne_and_not_mem_of_not_mem_cons hsteps
    obtain ⟨hspace, hroom⟩ := hroom
    cases hk : sight.keeps w s with
    | false =>
      have hmakes := makes_of_not_keeps hk
      refine ⟨by rw [made?_of_makes hmakes.1, made?_of_makes hmakes.1], fun r hr => ?_⟩
      have hrun := Step.run_of_mem_toOption hr
      rw [sift, hrun, hk] at hroom'
      rw [hk]
      exact ih (h.drops hw hk hrun) (hw.step hrun) hw' hsteps (hroom r hr) hroom'
    | true =>
      rw [sift, hk] at hroom'
      obtain ⟨hspace', hroom'⟩ := hroom'
      have hmade := h.peers.isSome_made? hspace hspace'
      refine ⟨hmade, fun r hr => ?_⟩
      have hrun := Step.run_of_mem_toOption hr
      rw [hk]
      intro r' hr'
      have hrun' := Step.run_of_mem_toOption hr'
      have hjoins := h.step hw hw' hk harm.symm hmade hrun hrun'
      replace hroom' := hroom' r' hr'
      rw [hrun] at hroom'
      exact ih hjoins (hw.step hrun) (hw'.step hrun') hsteps (hroom r hr) hroom'

end Sight

/-! ### Two steps on different events -/

section Swap

variable {setting : Setting} {a b : Address} {w w₁ w₂ : World} {s s₁ s₂ : Step}
  {answer answer₁ answer₂ : Answer} {ds : List Deed}

theorem Step.isAbout_of_ne (h : s.isAbout w a = true) (hab : a ≠ b) : s.isAbout w b = false := by
  obtain ⟨hops, hall⟩ := Step.of_isAbout h
  obtain ⟨v, hv⟩ := List.exists_mem_of_ne_nil _ hops
  refine decide_eq_false fun hb => hab ?_
  exact Option.some.inj ((hall v hv).symm.trans (hb.2 v hv))

/-- **A step on another event** leaves this one to whoever had it. -/
theorem Shadow.of_other (hunarmed : w.system.Unarmed) (hw : w.Distinct) (hab : a ≠ b)
    (hs : s.isAbout w b = true) (htarget : s.target? = none)
    (hrun : s.run setting w = .ok (answer, w₁)) : Shadow a a w w₁ := by
  obtain ⟨hops, hall⟩ := Step.of_isAbout hs
  obtain ⟨hmakes, harm⟩ := Step.makes_of_operands hops
  have hspares := (Step.change_of_run hmakes harm hrun).spares hw
    (Step.isAbout_of_ne hs hab.symm) (Or.inl htarget)
  refine ⟨((Shadow.refl hunarmed a).toPeers.drops hmakes harm hrun).symm, hspares.cell, ?_,
    fun v hv => hspares.held v _ hv rfl⟩
  intro v x hx ha
  have hne : ∀ {u}, u ∈ s.operands → ∀ c, w.address? u = some c → x.address? ≠ some c := by
    intro u hu c hc hxc
    have hbc := Option.some.inj ((hall u hu).symm.trans hc)
    exact hab (Option.some.inj (ha.symm.trans (hbc ▸ hxc)))
  rw [Variable.movedTo_self ha]
  refine Step.get?_of_run hw hrun hx (by rw [htarget]; exact nofun) (fun u hu => hne hu) ?_
  rintro rfl
  exact hne List.mem_cons_self a ((World.address?_eq hx).trans ha) ha

/-- **A step can be made before or after one on another event**: the answer is the same, so is
what it leaves of its own event, and it leaves every other event as the other step did. -/
theorem Step.exists_run_after (hunarmed : w.system.Unarmed) (hw : w.Keeps ds) (hab : a ≠ b)
    (hs₁ : s₁.isAbout w a = true) (hs₂ : s₂.isAbout w b = true) (ht₁ : s₁.target? = none)
    (ht₂ : s₂.target? = none) (hrun₁ : s₁.run setting w = .ok (answer₁, w₁))
    (hrun₂ : s₂.run setting w = .ok (answer₂, w₂)) :
    ∃ u, s₁.run setting w₂ = .ok (answer₁, u) ∧
      s₁.subject?.bind u.cell? = s₁.subject?.bind w₁.cell? ∧
      u.system.cell? a = w₁.system.cell? a ∧
      ∀ c, c ≠ a → u.system.cell? c = w₂.system.cell? c := by
  have hother := Shadow.of_other hunarmed hw.distinct hab hs₂ ht₂ hrun₂
  have hw₂ := (hw.step hrun₂).distinct
  obtain ⟨answer, u, hrun, -, hanswer, hjoined, hview⟩ :=
    hother.keeps hw.distinct hw₂ hs₁ hrun₁
  rw [hanswer rfl] at hrun
  refine ⟨u, hrun, hview, hjoined.cell, fun c hc => ?_⟩
  obtain ⟨hops, hall⟩ := Step.of_isAbout hs₁
  obtain ⟨hmakes, harm⟩ := Step.makes_of_operands hops
  have habout : s₁.isAbout w₂ a = true :=
    decide_eq_true ⟨hops, fun v hv => hother.address?_eq (hall v hv)⟩
  exact ((Step.change_of_run hmakes harm hrun).spares hw₂
    (Step.isAbout_of_ne habout (Ne.symm hc)) (Or.inl ht₁)).cell

/-- **Two steps on different events can change places.** -/
theorem reports_swap (hunarmed : w.system.Unarmed) (hw : w.Keeps ds) (hab : a ≠ b)
    (hs₁ : s₁.isAbout w a = true) (hs₂ : s₂.isAbout w b = true) (ht₁ : s₁.target? = none)
    (ht₂ : s₂.target? = none) (hm₁ : s₁.misuse? w = none) (hm₂ : s₂.misuse? w = none) :
    ∃ r₁ r₂ u r₁' r₂' u', reports setting [s₁, s₂] w = .ok ([r₁, r₂], u) ∧
      reports setting [s₂, s₁] w = .ok ([r₂', r₁'], u') ∧
      r₁'.answer = r₁.answer ∧ r₁'.view = r₁.view ∧ r₂'.answer = r₂.answer ∧
      r₂'.view = r₂.view ∧ u'.system.cell? = u.system.cell? := by
  obtain ⟨⟨answer₁, w₁⟩, hrun₁⟩ := (Step.misuse?_eq_none_iff setting).mp hm₁
  obtain ⟨⟨answer₂, w₂⟩, hrun₂⟩ := (Step.misuse?_eq_none_iff setting).mp hm₂
  obtain ⟨u', hrun₁', hview₁, ha, hrest'⟩ :=
    Step.exists_run_after hunarmed hw hab hs₁ hs₂ ht₁ ht₂ hrun₁ hrun₂
  obtain ⟨u, hrun₂', hview₂, hb, hrest⟩ :=
    Step.exists_run_after hunarmed hw hab.symm hs₂ hs₁ ht₂ ht₁ hrun₂ hrun₁
  have hend : ∀ w, reports setting [] w = .ok ([], w) := fun _ => rfl
  refine ⟨_, _, u, _, _, u', reports_cons hrun₁ (reports_cons hrun₂' (hend u)),
    reports_cons hrun₂ (reports_cons hrun₁' (hend u')), rfl, congrArg (Option.map _) hview₁, rfl,
    congrArg (Option.map _) hview₂.symm, ?_⟩
  funext c
  by_cases hca : c = a
  · rw [hca, ha, hrest a hab]
  · by_cases hcb : c = b
    · rw [hcb, hrest' b hab.symm, hb]
    · -- neither step touches it
      have hfirst := Shadow.of_other hunarmed hw.distinct hca hs₁ ht₁ hrun₁
      have hsecond := Shadow.of_other hunarmed hw.distinct hcb hs₂ ht₂ hrun₂
      rw [hrest' c hca, hrest c hcb, hfirst.cell, hsecond.cell]

end Swap

/-! ### Any script -/

/-- **Where each event takes the first place at which it fits**, every creation in a script of up
to `2 ^ 40` steps comes out alike. -/
theorem createsAlike_of_length_le {setting : Setting} (hpolicy : setting.policy = .firstFit)
    (limit : Option Level) {steps : List Step} (harm : .armLog ∉ steps) (n : Nat)
    (h : steps.length ≤ 2 ^ 40) :
    CreatesAlike setting (.awaited n) steps (World.start limit) (World.start limit) := by
  have hjoins : (Sight.awaited n).Joins (World.start limit) (World.start limit) :=
    ⟨rfl, rfl, rfl, rfl⟩
  have hkeeps := World.keeps_start limit
  exact hjoins.createsAlike hkeeps hkeeps harm (roomy_of_length_le hpolicy limit h)
    (roomy_of_length_le hpolicy limit ((length_kept_sift_le ..).trans h))

/-- **Events do not interfere.** A script that makes sense, and in which the log sink is not
armed, runs to its end. The steps that are about one of its events report the same without all
the other steps, the creations apart, if every creation comes out alike
(`AutoReset.Script.createsAlike_of_length_le`). And whatever two steps come next, on different
events and without filling a variable, they can change places: each has the same answer and leaves
its event as it does in the other order, and in the end all events are the same. -/
theorem no_interference (setting : Setting) {limit : Option Level} {steps : List Step}
    (h : Sensible setting steps (World.start limit)) (harm : .armLog ∉ steps) :
    ∃ rs w, reports setting steps (World.start limit) = .ok (rs, w) ∧
      -- without the other steps
      (∀ n, CreatesAlike setting (.awaited n) steps (World.start limit) (World.start limit) →
        ∃ rs' w', reports setting (kept (sift setting (.awaited n) steps (World.start limit)))
            (World.start limit) = .ok (rs', w') ∧
          Matches (sift setting (.awaited n) steps (World.start limit)) rs rs') ∧
      -- in the other order
      (∀ a b s₁ s₂, a ≠ b → s₁.isAbout w a = true → s₂.isAbout w b = true →
        s₁.target? = none → s₂.target? = none → s₁.misuse? w = none → s₂.misuse? w = none →
        ∃ r₁ r₂ u r₁' r₂' u', reports setting [s₁, s₂] w = .ok ([r₁, r₂], u) ∧
          reports setting [s₂, s₁] w = .ok ([r₂', r₁'], u') ∧
          r₁'.answer = r₁.answer ∧ r₁'.view = r₁.view ∧ r₂'.answer = r₂.answer ∧
          r₂'.view = r₂.view ∧ u'.system.cell? = u.system.cell?) := by
  have hstart : (World.start limit).system.Unarmed := rfl
  obtain ⟨rs, w, hrun⟩ := h.exists_reports
  refine ⟨rs, w, hrun, fun n halike => ?_, ?_⟩
  · have hjoins : (Sight.awaited n).Joins (World.start limit) (World.start limit) :=
      ⟨rfl, rfl, hstart, hstart⟩
    have hkeeps := World.keeps_start limit
    obtain ⟨rs₁, w₁, rs', w', hrun₁, hrun', hmatches⟩ :=
      hjoins.run hkeeps hkeeps harm h halike
    cases hrun.symm.trans hrun₁
    exact ⟨rs', w', hrun', hmatches⟩
  · intro a b s₁ s₂ hab hs₁ hs₂ ht₁ ht₂ hm₁ hm₂
    exact reports_swap (unarmed_of_reports hstart harm hrun) ((World.keeps_start limit).run hrun)
      hab hs₁ hs₂ ht₁ ht₂ hm₁ hm₂

/-- Three events, one of which goes and leaves its place to another. An owner turns into a handle
that is copied and turns into an owner again, and an allocator refuses a request. -/
def busyScript : List Step :=
  [.allocator "pool" (.only [2]), .create "h" .system, .new "a" (.named "pool"),
    .signal "h" .foreign, .signal "a" .handle, .new "b" (.named "pool"), .intoHandle "a",
    .copy "c" "a" .raw, .wait "h" .handle, .wait "c" .handle, .delete "h" .foreign,
    .createForeign "f", .create "d" (.named "pool"), .wait "d" .foreign, .compare "a" "c",
    .copy "d" "f" .value, .wait "b" .handle, .tryWait "c", .null "f" .raw, .signal "a" .foreign,
    .intoOwner "c", .isSignaled "c"]

theorem no_interference_busy :
    Sensible {} busyScript (World.start none) ∧
    (sift {} (.awaited 2) busyScript (World.start none)).map Prod.fst =
      [true, true, true, false, true, true, true, true, false, true, false, true, true, false, true,
        false, false, true, true, true, true, true] ∧
    ∃ rs w rs' w', reports {} busyScript (World.start none) = .ok (rs, w) ∧
      reports {} (kept (sift {} (.awaited 2) busyScript (World.start none))) (World.start none) =
        .ok (rs', w') ∧
      Matches (sift {} (.awaited 2) busyScript (World.start none)) rs rs' ∧
      ∃ r₁ r₂ u r₁' r₂' u',
        reports {} [.tryWait "c", .delete "b" .handle] w = .ok ([r₁, r₂], u) ∧
        reports {} [.delete "b" .handle, .tryWait "c"] w = .ok ([r₂', r₁'], u') ∧
        r₁'.answer = r₁.answer ∧ r₂'.answer = r₂.answer ∧
        u'.system.cell? = u.system.cell? := by
  have hsensible : Sensible {} busyScript (World.start none) := by decide +kernel
  have hswap : ∀ p ∈ (reports {} busyScript (World.start none)).toOption,
      (Step.tryWait "c").isAbout p.2 ⟨4168, by decide⟩ = true ∧
      (Step.delete "b" .handle).isAbout p.2 ⟨4240, by decide⟩ = true ∧
      (Step.tryWait "c").misuse? p.2 = none ∧ (Step.delete "b" .handle).misuse? p.2 = none := by
    decide +kernel
  have harm : .armLog ∉ busyScript := by simp [busyScript]
  obtain ⟨rs, w, hrun, hsift, hnext⟩ := no_interference {} hsensible harm
  obtain ⟨rs', w', hrun', hmatches⟩ :=
    hsift 2 (createsAlike_of_length_le rfl none harm 2 (by decide))
  obtain ⟨hfirst, hsecond, hmeets₁, hmeets₂⟩ := hswap (rs, w) (by rw [hrun]; rfl)
  obtain ⟨r₁, r₂, u, r₁', r₂', u', h₁, h₂, hanswer₁, -, hanswer₂, -, hcells⟩ :=
    hnext _ _ _ _ (by decide) hfirst hsecond rfl rfl hmeets₁ hmeets₂
  exact ⟨hsensible, by decide +kernel, rs, w, rs', w', hrun, hrun', hmatches, r₁, r₂, u, r₁', r₂',
    u', h₁, h₂, hanswer₁, hanswer₂, hcells⟩

end Script

/-! ### Why a creation has to come out alike, and a copy has to be kept -/

/-- A policy with room for one event at a time. -/
def Placement.single : Placement where
  place past live l := if live.isEmpty then Placement.firstFit.place past live l else none
  aligned h := by
    split at h
    · exact Placement.firstFit.aligned h
    · cases h
  apart h hb := by
    split at h
    · exact Placement.firstFit.apart h hb
    · cases h

namespace Script

/-- An event goes, and leaves its place to another one. -/
def narrowScript : List Step :=
  [.create "h" .system, .delete "h" .handle, .create "k" .system, .signal "k" .handle, .tryWait "k"]

/-- A variable refers to an event, and then is made to refer to another one. -/
def aliasScript : List Step :=
  [.create "h" .system, .create "k" .system, .copy "k" "h" .value, .signal "k" .handle,
    .tryWait "h"]

/-- **Two ways in which events do interfere.** With room for one event, the second one is refused
if the first one stays, so nothing can be taken where its deletion is left out. And a copy has two
variables: if it is left out because the one that it fills refers to another event until then, a
signal through that variable goes to the other event. -/
theorem interference :
    (Sensible { policy := .single } narrowScript (World.start none) ∧ .armLog ∉ narrowScript ∧
      (sift { policy := .single } (.awaited 2) narrowScript (World.start none)).map Prod.fst =
        [true, false, true, true, true] ∧
      ¬ CreatesAlike { policy := .single } (.awaited 2) narrowScript (World.start none)
        (World.start none) ∧
      truths { policy := .single } narrowScript = some [true] ∧
      truths { policy := .single }
        (kept (sift { policy := .single } (.awaited 2) narrowScript (World.start none))) =
          some [false]) ∧
    Sensible {} aliasScript (World.start none) ∧ .armLog ∉ aliasScript ∧
      ((reports {} (aliasScript.take 2) (World.start none)).toOption.map fun r =>
        (r.2.address? "h", r.2.address? "k")) =
          some (some ⟨4096, by decide⟩, some ⟨4168, by decide⟩) ∧
      truths {} aliasScript = some [true] ∧
      truths {} [.create "h" .system, .create "k" .system, .signal "k" .handle, .tryWait "h"] =
        some [false] :=
  ⟨⟨by decide +kernel, by simp [narrowScript], by decide +kernel, by decide +kernel,
    by decide +kernel, by decide +kernel⟩,
    by decide +kernel, by simp [aliasScript], by decide +kernel, by decide +kernel,
    by decide +kernel⟩

end Script

end AutoReset
