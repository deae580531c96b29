import AutoReset.Proofs.Event.Order
import AutoReset.Proofs.Script.Chronicle
/-!
# Which handles are the same

A handle is a number, and two handles are compared by their numbers. What they stand for is another
matter: the number of an event that was released can be that of a later one. So where a variable
comes from is followed through the script without a look at numbers (`AutoReset.Script.lineage`).
It descends from the event that a step created, or from no event, and every copy descends from what
its source does. What owner and handle turn into descends from what they did.

At every point of a script that makes sense, the events from which variables descend stand at
different places (`AutoReset.Script.Lineage.Traces`). So two handles in use are equal exactly if
they descend from the same event, or both from none, and then what is done through one of them is
seen through the other (`AutoReset.Script.handles_equal_iff`).
-/

namespace AutoReset.Script

/-! ### Where variables come from -/

/-- From what a variable descends. -/
inductive Descent where
  /-- From no event: it was null from the beginning, or there was no memory. -/
  | null
  /-- From the event that was created at this step. -/
  | event (n : Nat)
  deriving DecidableEq

/-- Where the event stands, by where the steps put theirs. -/
def Descent.address? (place : Nat → Address) : Descent → Option Address
  | null => none
  | event n => some (place n)

/-- From what each variable descends that is in use. -/
abbrev Lineage := String → Option Descent

namespace Lineage

/-- A variable descends from something else, or is out of use. -/
def set (L : Lineage) (v : String) (d : Option Descent) : Lineage :=
  fun u => if u = v then d else L u

/-- All variables of the event of `v` are out of use. Null handles are of no event. -/
def without (L : Lineage) (v : String) : Lineage :=
  fun u => if L u = L v ∧ L v ≠ some .null then none else L u

variable {L : Lineage} {v u : String} {d e : Descent}

theorem of_set {d? : Option Descent} (h : L.set v d? u = some e) : d? = some e ∨ L u = some e := by
  unfold set at h
  split at h
  · exact .inl h
  · exact .inr h

theorem of_without (h : L.without v u = some d) : L u = some d := by
  unfold without at h
  split at h
  · cases h
  · exact h

end Lineage

/-- What a variable descends from that a creation at step `n` is about: from the new event; or from
none, if there was no memory and a handle was asked for. After a fault nothing is put there. -/
def Creation.lineage (c : Creation) (n : Nat) (L : Lineage) :
    Except Fault (Option Address) → Lineage
  | .ok (some _) => L.set c.target (some (.event n))
  | .ok none => if c.owned then L else L.set c.target (some .null)
  | .error _ => L

/-- **What a step does to the descent of variables**, if it is step `n`. -/
def Step.lineage (setting : Setting) (w : World) (n : Nat) (L : Lineage) : Step → Lineage
  | .null v _ => L.set v (some .null)
  | .copy v source _ => L.set v (L source)
  | .delete v _ => L.without v
  | .intoOwner v =>
    if L v = some .null then L.set v none else (L.without v).set v (L v)
  | s =>
    match s.creation? with
    | some c =>
      match w.origin? c.memory with
      | some o => c.lineage n L ((System.create setting.policy o).outcome w.system)
      | none => L
    | none => L

/-- **From what each variable descends** after the steps, which are counted from `n` on. -/
def lineage (setting : Setting) : List Step → World → Nat → Lineage → Lineage
  | [], _, _, L => L
  | s :: steps, w, n, L =>
    match s.run setting w with
    | .ok (_, w') => lineage setting steps w' (n + 1) (s.lineage setting w n L)
    | .error _ => L

namespace Lineage

/-- **The descent of the variables fits what they refer to**: each event stands in one place, and
different events in different places. -/
structure Traces (L : Lineage) (n : Nat) (place : Nat → Address) (vars : Table Variable) :
    Prop where
  /-- A variable refers to the event from which it descends. -/
  held (v : String) : (vars.get? v).map Variable.address? = (L v).map (Descent.address? place)
  /-- No two events stand in one place. -/
  apart : ∀ v u i j, L v = some (.event i) → L u = some (.event j) → place i = place j → i = j
  /-- The events were created before. -/
  before : ∀ v i, L v = some (.event i) → i < n

theorem traces_empty (n : Nat) (place : Nat → Address) : Traces (fun _ => none) n place .empty :=
  ⟨fun _ => rfl, nofun, nofun⟩

namespace Traces

variable {L : Lineage} {n : Nat} {place : Nat → Address} {vars vars' : Table Variable}
  {v u : String} {x y : Variable} {d : Descent}

theorem mono (h : L.Traces n place vars) : L.Traces (n + 1) place vars :=
  ⟨h.held, h.apart, fun v i hi => Nat.lt_succ_of_lt (h.before v i hi)⟩

/-- All that counts of the variables is to what they refer. -/
theorem of_vars (h : L.Traces n place vars)
    (hvars : ∀ v, (vars'.get? v).map Variable.address? = (vars.get? v).map Variable.address?) :
    L.Traces n place vars' :=
  ⟨fun v => (hvars v).trans (h.held v), h.apart, h.before⟩

/-- A variable in use descends from what it refers to. -/
theorem exists_descent (h : L.Traces n place vars) (hx : vars.get? v = some x) :
    ∃ d, L v = some d ∧ d.address? place = x.address? := by
  have hheld := h.held v
  rw [hx, Option.map_some] at hheld
  exact Option.map_eq_some_iff.mp hheld.symm

/-- **Two variables refer to the same exactly if they descend from the same.** -/
theorem address?_eq_iff (h : L.Traces n place vars) (hx : vars.get? v = some x)
    (hy : vars.get? u = some y) : x.address? = y.address? ↔ L v = L u := by
  obtain ⟨d, hd, hdx⟩ := h.exists_descent hx
  obtain ⟨e, he, hey⟩ := h.exists_descent hy
  rw [← hdx, ← hey, hd, he]
  refine ⟨fun heq => ?_, fun heq => by rw [Option.some.inj heq]⟩
  cases d with
  | null =>
    cases e with
    | null => rfl
    | event j => cases heq
  | event i =>
    cases e with
    | null => cases heq
    | event j => rw [h.apart v u i j hd he (Option.some.inj heq)]

theorem address?_eq_none_iff (h : L.Traces n place vars) (hx : vars.get? v = some x) :
    x.address? = none ↔ L v = some .null := by
  obtain ⟨d, hd, hdx⟩ := h.exists_descent hx
  rw [← hdx, hd]
  cases d with
  | null => exact iff_of_true rfl rfl
  | event i => exact iff_of_false nofun nofun

/-- **Something is put into a variable**, of which it is said from what it descends. -/
theorem set (h : L.Traces n place vars) (hx : x.address? = d.address? place)
    (hd : ∀ i, d = .event i →
      i < n ∧ ∀ u j, L u = some (.event j) → place j = place i → j = i) :
    (L.set v (some d)).Traces n place (vars.set v x) := by
  have hcases : ∀ {u i}, L.set v (some d) u = some (.event i) →
      d = .event i ∨ L u = some (.event i) :=
    fun hi => (of_set hi).imp_left Option.some.inj
  refine ⟨fun u => ?_, fun u t i j hi hj hij => ?_, fun u i hi => ?_⟩
  · by_cases hu : u = v
    · rw [hu, Table.get?_set_self, Lineage.set, if_pos rfl, Option.map_some, Option.map_some, hx]
    · rw [Table.get?_set_of_ne _ _ hu, Lineage.set, if_neg hu]
      exact h.held u
  · rcases hcases hi with hi | hi
    · rcases hcases hj with hj | hj
      · exact Descent.event.inj (hi.symm.trans hj)
      · exact ((hd i hi).2 t j hj hij.symm).symm
    · rcases hcases hj with hj | hj
      · exact (hd j hj).2 u i hi hij
      · exact h.apart u t i j hi hj hij
  · rcases hcases hi with hi | hi
    · exact (hd i hi).1
    · exact h.before u i hi

/-- What is put there may be of an event that a variable is of, and other variables may have gone
out of use before. -/
theorem set_of_eq {L' : Lineage} (h : L.Traces n place vars) (h' : L'.Traces n place vars')
    (hsub : ∀ {t d}, L' t = some d → L t = some d) (hx : vars.get? u = some x)
    (hxy : y.address? = x.address?) : (L'.set v (L u)).Traces n place (vars'.set v y) := by
  obtain ⟨d, hd, hdx⟩ := h.exists_descent hx
  rw [hd]
  refine h'.set (hxy.trans hdx.symm) fun i hi => ?_
  subst hi
  exact ⟨h.before u i hd, fun t j hj hij => h.apart t u j i (hsub hj) hd hij⟩

/-- **Something is put into a variable that stands where no other event stands.** -/
theorem set_new (h : L.Traces n place vars) {a : Address} (hx : x.address? = some a)
    (hnew : ∀ v y, vars.get? v = some y → y.address? ≠ some a) :
    ∃ place, (L.set v (some (.event n))).Traces (n + 1) place (vars.set v x) := by
  have hother : ∀ {u i}, L u = some (.event i) → i ≠ n := fun hi =>
    Nat.ne_of_lt (h.before _ _ hi)
  let place' : Nat → Address := fun i => if i = n then a else place i
  have hold : ∀ u, (L u).map (Descent.address? place') = (L u).map (Descent.address? place) := by
    intro u
    cases hu : L u with
    | none => rfl
    | some d =>
      cases d with
      | null => rfl
      | event i =>
        show some (some (if i = n then a else place i)) = _
        rw [if_neg (hother hu)]
        rfl
  have h' : L.Traces (n + 1) place' vars := by
    refine ⟨fun u => (h.held u).trans (hold u).symm, fun u t i j hi hj hij => ?_, h.mono.before⟩
    simp only [place', if_neg (hother hi), if_neg (hother hj)] at hij
    exact h.apart u t i j hi hj hij
  refine ⟨place', h'.set (by rw [hx]; simp [Descent.address?, place']) fun i hi => ?_⟩
  cases hi
  refine ⟨Nat.lt_succ_self n, fun u j hj hplace => ?_⟩
  -- a variable of that event would refer to the place of the new one
  exfalso
  have hheld := h'.held u
  rw [hj, Option.map_some, Option.map_eq_some_iff] at hheld
  obtain ⟨y, hy, hya⟩ := hheld
  refine hnew u y hy (hya.trans ?_)
  show some (place' j) = some a
  rw [hplace]
  simp [place']

/-- A variable goes out of use. -/
theorem set_none (h : L.Traces n place vars) : (L.set v none).Traces n place (vars.erase v) := by
  have hcases : ∀ {u i}, L.set v none u = some (.event i) → L u = some (.event i) :=
    fun hi => (of_set hi).resolve_left nofun
  refine ⟨fun u => ?_, fun u t i j hi hj => h.apart u t i j (hcases hi) (hcases hj),
    fun u i hi => h.before u i (hcases hi)⟩
  by_cases hu : u = v
  · rw [hu, Table.get?_erase_self, Lineage.set, if_pos rfl]
    rfl
  · rw [Table.get?_erase_of_ne _ hu, Lineage.set, if_neg hu]
    exact h.held u

/-- **All variables of an event go out of use.** -/
theorem without (h : L.Traces n place vars) (hvars : vars.rows.Pairwise fun r s => r.1 ≠ s.1)
    {a : Address} (hx : vars.get? v = some x) (ha : x.address? = some a) :
    (L.without v).Traces n place (vars.keep fun y => y.address? ≠ some a) := by
  have hevent : L v ≠ some .null := fun hnull => by
    rw [(h.address?_eq_none_iff hx).mpr hnull] at ha
    cases ha
  refine ⟨fun u => ?_, fun u t i j hi hj => h.apart u t i j (of_without hi) (of_without hj),
    fun u i hi => h.before u i (of_without hi)⟩
  have hheld := h.held u
  rw [Table.get?_keep hvars]
  cases hu : vars.get? u with
  | none =>
    rw [hu, Option.map_none, eq_comm, Option.map_eq_none_iff] at hheld
    unfold Lineage.without
    rw [hheld, ite_self]
    rfl
  | some y =>
    have hiff : y.address? = some a ↔ L u = L v := ha ▸ h.address?_eq_iff hu hx
    by_cases hy : y.address? = some a
    · rw [Option.filter_some, if_neg (by simp [hy]), Lineage.without,
        if_pos ⟨hiff.mp hy, hevent⟩]
      rfl
    · rw [Option.filter_some, if_pos (by simp [hy]), Lineage.without,
        if_neg fun hboth => hy (hiff.mpr hboth.1), ← hu]
      exact hheld

end Traces

end Lineage

/-! ### One step -/

section Steps

variable {setting : Setting} {w w' : World} {ds : List Deed} {s : Step} {answer : Answer}
  {L : Lineage} {n : Nat} {place : Nat → Address} {v : String} {x : Variable}

theorem Step.lineage_of_creation {c : Creation} {o : Origin} (hc : s.creation? = some c)
    (ho : w.origin? c.memory = some o) :
    s.lineage setting w n L =
      c.lineage n L ((System.create setting.policy o).outcome w.system) := by
  cases s with
  | new v memory | create v memory | createForeign v =>
    cases hc
    simp only [Step.lineage, Step.creation?]
    rw [ho]
  | _ => cases hc

/-- Does a step only look at what there is, or call an event? -/
def Step.leavesVars : Step → Bool
  | .compare _ _ | .isNull _ | .text _ _ | .isSignaled _ | .signal _ _ | .wait _ _ | .tryWait _
  | .waitTimeout _ _ => true
  | _ => false

/-- Such a step leaves the variables as they are. -/
theorem Step.vars_of_run (hs : s.leavesVars = true) (hrun : s.run setting w = .ok (answer, w')) :
    w'.vars = w.vars := by
  have hmakes : s.makes = false := by
    cases s with
    | allocator _ _ | new _ _ | create _ _ | createForeign _ => cases hs
    | _ => rfl
  have harm : s ≠ .armLog := by
    rintro rfl
    cases hs
  cases Step.change_of_run hmakes harm hrun with
  | look | call _ _ _ => rfl
  | _ => cases hs

/-- **A creation fits the descent of its variable**: a new event stands where no variable
refers to. -/
theorem World.Keeps.traces_creation (h : w.Keeps ds) (hL : L.Traces n place w.vars) {c : Creation}
    (hc : s.creation? = some c) (hrun : s.run setting w = .ok (answer, w')) :
    ∃ place, (s.lineage setting w n L).Traces (n + 1) place w'.vars := by
  obtain ⟨o, ho⟩ := Step.exists_origin hc hrun
  have hstep := (Step.run_of_creation hc ho).symm.trans hrun
  rw [Step.lineage_of_creation hc ho]
  cases hout : (System.create setting.policy o).outcome w.system with
  | error f =>
    rw [hout] at hstep
    cases hstep
    exact ⟨place, hL.mono⟩
  | ok r =>
    rw [hout] at hstep
    cases hstep
    cases r with
    | none =>
      refine ⟨place, ?_⟩
      rw [Creation.lineage, Creation.held]
      cases c.owned with
      | true => exact hL.mono
      | false => exact hL.mono.set rfl (by simp)
    | some a =>
      have hnew : ∀ v y, w.vars.get? v = some y → y.address? ≠ some a := by
        intro v y hy hya
        have hcreate : System.create setting.policy o w.system =
            .ok (some a) ((System.create setting.policy o).after w.system) := by
          unfold Attempt.outcome at hout
          unfold Attempt.after
          cases hs : System.create setting.policy o w.system with
          | ok r s' =>
            rw [hs] at hout
            cases hout
            rfl
          | error f s' =>
            rw [hs] at hout
            cases hout
        have hfair := (h.create setting.policy ho).accounts.fair.1
        exact hfair a (System.Accounts.eq_of_create setting.policy hcreate).symm
          (h.address_mem hy hya)
      obtain ⟨x, hx⟩ : ∃ x, c.held (some a) = some x := ⟨_, rfl⟩
      rw [hx]
      exact hL.set_new (Creation.address?_of_held hx) hnew

/-- **Every step fits the descent of the variables.** -/
theorem World.Keeps.traces_step (h : w.Keeps ds) (hL : L.Traces n place w.vars)
    (hrun : s.run setting w = .ok (answer, w')) :
    ∃ place, (s.lineage setting w n L).Traces (n + 1) place w'.vars := by
  cases s with
  | new v memory | create v memory | createForeign v => exact h.traces_creation hL rfl hrun
  | allocator name plan | armLog =>
    cases hrun
    exact ⟨place, hL.mono⟩
  | null v source =>
    cases (Step.run_null source).symm.trans hrun
    exact ⟨place, hL.mono.set rfl (by simp)⟩
  | copy v source via =>
    obtain ⟨k, hk, rfl, rfl⟩ := Step.of_copy hrun
    exact ⟨place, hL.mono.set_of_eq hL.mono id hk rfl⟩
  | delete v via =>
    obtain ⟨x, hx⟩ := Need.exists_variable (Step.met_of_run hrun List.mem_cons_self)
    cases (Step.run_delete via hx).symm.trans hrun
    refine ⟨place, ?_⟩
    cases ha : x.address? with
    | none =>
      have hnull : L.without v = L := by
        funext u
        rw [Lineage.without, if_neg fun hboth => hboth.2 ((hL.address?_eq_none_iff hx).mp ha)]
      rw [Step.lineage, hnull]
      exact hL.mono
    | some a => exact hL.mono.without h.distinct hx ha
  | intoHandle v =>
    obtain ⟨o, ho⟩ := Need.exists_owner (Step.met_of_run hrun List.mem_cons_self)
    cases (Step.run_intoHandle ho).symm.trans hrun
    refine ⟨place, hL.mono.of_vars fun u => ?_⟩
    by_cases hu : u = v
    · rw [hu, Table.get?_set_self, ho, Option.map_some, Option.map_some]
      exact congrArg some (Handle.address?_ofAddress o.address)
    · rw [Table.get?_set_of_ne _ _ hu]
  | intoOwner v =>
    obtain ⟨k, hk⟩ := Need.exists_handle (Step.met_of_run hrun List.mem_cons_self)
    have hstep := (Step.run_intoOwner hk).symm.trans hrun
    refine ⟨place, ?_⟩
    have hnull : k.address? = none ↔ L v = some .null := hL.address?_eq_none_iff hk
    rw [Step.lineage]
    cases ha : k.address? with
    | none =>
      rw [ha] at hstep
      cases hstep
      rw [if_pos (hnull.mp ha)]
      exact hL.mono.set_none
    | some a =>
      rw [ha] at hstep
      cases hstep
      rw [if_neg fun hv => by cases (hnull.mpr hv).symm.trans ha]
      exact hL.mono.set_of_eq (hL.mono.without h.distinct hk ha) Lineage.of_without hk ha.symm
  | compare v u | isNull v | text v spec | isSignaled v | signal v via | wait v via | tryWait v
  | waitTimeout v timeout =>
    refine ⟨place, ?_⟩
    rw [Step.vars_of_run rfl hrun]
    exact hL.mono

/-! ### Events in order -/

theorem Step.inOrder_call? {y : Attempt System Answer} (hy : s.call? setting x = some y) :
    Attempt.Keeps System.InOrder y := by
  cases s with
  | isSignaled v =>
    rcases x with o | k <;> cases hy
    exact (System.keeps_run _ _).map _
  | signal v via | wait v via | tryWait v =>
    cases hy
    exact (System.keeps_run _ _).map _
  | waitTimeout v timeout =>
    rcases x with o | k <;> cases hy
    exact (System.keeps_waitPatiently _ _ _ _).map _
  | _ => cases hy

theorem World.inOrder_assigned (h : w.system.InOrder) (v : String) (x : Variable) :
    (w.assigned v x).system.InOrder :=
  h.of_cells fun _ _ hc => of_cell?_displaced hc

theorem inOrder_releaseAt {t : System} (h : t.InOrder) (a : Option Address) :
    ((System.releaseAt a).after t).InOrder := by
  cases a with
  | none => exact h
  | some a =>
    refine h.of_cells fun b c hc => ?_
    have hcell : ((System.release a).after t).cell? b = some c := hc
    rw [System.cell?_after_release] at hcell
    split at hcell
    · cases hcell
    · exact hcell

/-- **Every step leaves the events in order.** -/
theorem Step.inOrder_of_run (h : w.system.InOrder) (hrun : s.run setting w = .ok (answer, w')) :
    w'.system.InOrder := by
  by_cases hs : s.makes = true
  · rcases Step.of_makes hs with ⟨name, plan, rfl⟩ | ⟨c, hc⟩
    · cases hrun
      exact h
    · obtain ⟨o, ho⟩ := Step.exists_origin hc hrun
      have hstep := (Step.run_of_creation hc ho).symm.trans hrun
      have hcreate : (w.afterCreate setting.policy o).system.InOrder :=
        System.keeps_create setting.policy o _ h
      cases hout : (System.create setting.policy o).outcome w.system with
      | error f =>
        rw [hout] at hstep
        cases hstep
        exact hcreate
      | ok r =>
        rw [hout] at hstep
        cases hstep
        cases c.held r with
        | none => exact hcreate
        | some x => exact World.inOrder_assigned hcreate _ _
  · by_cases harm : s = .armLog
    · subst harm
      cases hrun
      exact h
    · cases Step.change_of_run ((Bool.not_eq_true _).mp hs) harm hrun with
      | look | intoHandle _ | intoOwner _ _ | intoNothing _ => exact h
      | call hv hx hy => exact Step.inOrder_call? hy _ h
      | null v source => exact World.inOrder_assigned h _ _
      | copy via hk => exact World.inOrder_assigned h _ _
      | @delete v x via hx =>
        have hsystem := inOrder_releaseAt h x.address?
        revert hsystem
        cases x.address? with
        | none => exact id
        | some a => exact id

end Steps

/-! ### Whole scripts -/

section Runs

variable {setting : Setting} {w w' : World} {ds : List Deed} {steps : List Step}
  {rs : List Report} {L : Lineage} {n : Nat} {place : Nat → Address}

theorem World.Keeps.traces_run (h : w.Keeps ds) (hL : L.Traces n place w.vars)
    (hrun : reports setting steps w = .ok (rs, w')) :
    ∃ place, (lineage setting steps w n L).Traces (n + steps.length) place w'.vars := by
  induction steps generalizing w ds rs n L place with
  | nil =>
    cases hrun
    exact ⟨place, hL⟩
  | cons s steps ih =>
    obtain ⟨answer, w₁, rs₁, hstep, hrest, rfl⟩ := exists_of_reports_cons hrun
    obtain ⟨place₁, hL₁⟩ := h.traces_step hL hstep
    rw [lineage, hstep, List.length_cons, Nat.add_comm steps.length, ← Nat.add_assoc]
    exact ih (h.step hstep) hL₁ hrest

theorem inOrder_of_reports (h : w.system.InOrder) (hrun : reports setting steps w = .ok (rs, w')) :
    w'.system.InOrder := by
  induction steps generalizing w rs with
  | nil =>
    cases hrun
    exact h
  | cons s steps ih =>
    obtain ⟨answer, w₁, rs₁, hstep, hrest, rfl⟩ := exists_of_reports_cons hrun
    exact ih (Step.inOrder_of_run h hstep) hrest

end Runs

/-! ### What is done through a handle -/

section Handles

variable {setting : Setting} {w w' : World} {v u : String} {k l : Handle} {c : Cell} {a : Address}

/-- The world with this event at an address. -/
def World.withCell (w : World) (a : Address) (c : Cell) : World :=
  { w with system := w.system.place a (some c) }

/-- What comes of a call, if it has an outcome. -/
theorem settle_of_ok {α : Type} {y : Attempt System α} {r : α} {s : System} (f : α → Answer)
    (h : y w.system = .ok r s) : settle (f <$> y) w = (f r, { w with system := s }) := by
  simp only [settle, Attempt.outcome, Attempt.after, Attempt.map_apply, h]

/-- **A signal through a handle**, if it can be counted: a sleeper consumes it, or it stays. -/
theorem Step.run_signal (setting : Setting) (hv : w.vars.get? v = some (.handle k))
    (ha : k.address? = some a) (hcell : w.system.cell? a = some c) (hc : c.InOrder)
    (hp : c.latch.stats.posts ≠ Counter.last) (via : Via) :
    (Step.signal v via).run setting w =
      .ok (match c.sleepers with
        | [] => (.released 0, w.withCell a { c with latch := c.latch.posted })
        | _ :: rest =>
          (.released 1,
            w.withCell a { c with latch := c.latch.posted.taken, sleepers := rest })) := by
  have henter := System.enter_signal hcell hc setting.now
  rw [if_neg hp] at henter
  have hrun : System.run setting.now ((Variable.handle k).signal via) w.system =
      System.enter setting.now a .signal w.system := by
    rw [Variable.signal_eq, Variable.address?, ha]
    rfl
  rw [henter] at hrun
  refine (Step.run_of_call rfl hv rfl).trans (congrArg Except.ok ?_)
  cases hs : c.sleepers with
  | nil =>
    rw [hs] at hrun
    exact settle_of_ok _ hrun
  | cons sleeper rest =>
    rw [hs] at hrun
    exact settle_of_ok _ hrun

/-- **An attempt through a handle consumes the signal that is there.** -/
theorem Step.run_tryWait (setting : Setting) (hu : w.vars.get? u = some (.handle l))
    (ha : l.address? = some a) (hcell : w.system.cell? a = some c) (hc : c.InOrder)
    (hs : c.latch.signaled = true) :
    (Step.tryWait u).run setting w =
      .ok (.truth true, w.withCell a { c with latch := c.latch.taken }) := by
  have hrun : System.run setting.now (Variable.handle l).tryWait w.system =
      System.enter setting.now a .tryWait w.system := by
    rw [Variable.tryWait_eq, Variable.address?, ha]
    rfl
  rw [System.enter_tryWait hcell hc hs] at hrun
  exact (Step.run_of_call rfl hu rfl).trans
    (congrArg Except.ok (settle_of_ok Answer.ofTruth hrun))

/-- Equal handles that are not null: whatever is signaled through one of them is there for whoever
tries through the other, unless a sleeper consumes it. -/
theorem Step.run_signal_tryWait (hv : w.vars.get? v = some (.handle k))
    (hu : w.vars.get? u = some (.handle k)) (ha : k.address? = some a)
    (hcell : w.system.cell? a = some c) (hc : c.InOrder) (hp : c.latch.stats.posts ≠ Counter.last)
    (via : Via) : ∃ answer w₁, (Step.signal v via).run setting w = .ok (answer, w₁) ∧
      (c.sleepers ≠ [] → answer = .released 1) ∧
      (c.sleepers = [] → answer = .released 0 ∧
        ∃ w₂, (Step.tryWait u).run setting w₁ = .ok (.truth true, w₂)) := by
  have hsignal := Step.run_signal setting hv ha hcell hc hp via
  cases hs : c.sleepers with
  | nil =>
    rw [hs] at hsignal
    let c₁ : Cell := { c with latch := c.latch.posted, sleepers := [] }
    have hc₁ : c₁.InOrder := ⟨hc.balanced.posted hp, List.forall_mem_nil _⟩
    have htry := Step.run_tryWait (w := w.withCell a c₁) setting hu ha
      (System.cell?_place_self ..) hc₁ rfl
    exact ⟨_, w.withCell a c₁, hsignal, fun hne => absurd rfl hne, fun _ => ⟨rfl, _, htry⟩⟩
  | cons sleeper rest =>
    rw [hs] at hsignal
    exact ⟨_, _, hsignal, fun _ => rfl, nofun⟩

/-- A call through a handle leaves the event of a handle that is not equal to it as it is. -/
theorem Step.cell?_of_call {b : Address} {s : Step} {y : Attempt System Answer}
    (hv : w.vars.get? v = some (.handle k)) (hu : w.vars.get? u = some (.handle l))
    (hb : l.address? = some b) (hne : k.address? ≠ some b) (hs : s.subject? = some v)
    (hy : s.call? setting (.handle k) = some y) :
    ∃ answer w', s.run setting w = .ok (answer, w') ∧ w'.cell? u = w.cell? u := by
  refine ⟨_, _, Step.run_of_call hs hv hy, ?_⟩
  have hcell : (y.after w.system).cell? b = w.system.cell? b :=
    Step.cell?_call? (x := .handle k) hne hy w.system
  have haddress : (w.vars.get? u).bind Variable.address? = some b := by
    rw [hu]
    exact hb
  show ((w.vars.get? u).bind Variable.address?).bind (y.after w.system).cell? = _
  rw [World.cell?, haddress, Option.bind_some, Option.bind_some, hcell]

end Handles

/-! ### Which handles are equal -/

/-- Does a comparison say that the handles of two variables are equal? -/
def World.Equal (setting : Setting) (w : World) (v u : String) : Prop :=
  ∃ ne raw hashes, (Step.compare v u).run setting w = .ok (.comparison true ne raw hashes, w)

theorem World.equal_iff {setting : Setting} {w : World} {v u : String} {k l : Handle}
    (hv : w.vars.get? v = some (.handle k)) (hu : w.vars.get? u = some (.handle l)) :
    w.Equal setting v u ↔ k = l := by
  unfold Equal
  rw [Step.run_compare hv hu]
  constructor
  · rintro ⟨ne, raw, hashes, heq⟩
    injection heq with heq
    injection heq with heq
    injection heq with heq
    exact of_decide_eq_true heq
  · rintro rfl
    exact ⟨_, _, _, by rw [decide_eq_true rfl]⟩

/-- **Comparing handles is an equivalence.** -/
theorem World.equivalence_equal (setting : Setting) (w : World) :
    Equivalence fun v u : { v // ∃ k, w.vars.get? v = some (.handle k) } =>
      w.Equal setting v u where
  refl := by
    rintro ⟨v, k, hv⟩
    exact (equal_iff hv hv).mpr rfl
  symm := by
    rintro ⟨v, k, hv⟩ ⟨u, l, hu⟩ h
    exact (equal_iff hu hv).mpr ((equal_iff hv hu).mp h).symm
  trans := by
    rintro ⟨v, k, hv⟩ ⟨u, l, hu⟩ ⟨t, m, ht⟩ h h'
    exact (equal_iff hv ht).mpr (((equal_iff hv hu).mp h).trans ((equal_iff hu ht).mp h'))

/-- From what each variable descends after a script. -/
def lineageOf (setting : Setting) (limit : Option Level) (steps : List Step) : Lineage :=
  lineage setting steps (World.start limit) 0 fun _ => none

/-- **Handles are equal exactly if they are of the same event, or both of none.** Take any point of
a script that makes sense. To be equal is an equivalence between the variables that hold a handle,
and for any two of them

* a comparison says whether the handles are equal, and whether their numbers and their hashes are;
* the handles are equal exactly if they descend from the same, exactly if their numbers are equal,
  and exactly if both are null or both refer to the same event, which is there; and equal handles
  have equal hashes;
* a handle is null exactly if it descends from a null handle or a creation without memory;
* a signal through one of two equal handles that are not null is consumed by a sleeper, or else by
  whoever tries through the other one, as long as there is room to count it;
* two handles that are neither equal nor null refer to two events, and a call through one of them
  leaves the event of the other one as it is. -/
theorem handles_equal_iff (setting : Setting) {limit : Option Level} {steps : List Step}
    (h : Sensible setting steps (World.start limit)) (n : Nat) :
    ∃ rs w, reports setting (steps.take n) (World.start limit) = .ok (rs, w) ∧
      (Equivalence fun v u : { v // ∃ k, w.vars.get? v = some (.handle k) } =>
        w.Equal setting v u) ∧
      ∀ v u k l, w.vars.get? v = some (.handle k) → w.vars.get? u = some (.handle l) →
        (Step.compare v u).run setting w =
          .ok (.comparison (k = l) (k ≠ l) (k.raw = l.raw) (hash k = hash l), w) ∧
        (k = l ↔ lineageOf setting limit (steps.take n) v =
          lineageOf setting limit (steps.take n) u) ∧
        (k = l ↔ k.raw = l.raw) ∧
        (k = l ↔ (k.address? = none ∧ l.address? = none) ∨
          ∃ a, k.address? = some a ∧ l.address? = some a ∧ (w.system.cell? a).isSome) ∧
        (k = l → hash k = hash l) ∧
        (Step.isNull v).run setting w = .ok (.truth k.isNull, w) ∧
        (k.isNull = true ↔ lineageOf setting limit (steps.take n) v = some .null) ∧
        (k = l → k.isNull = false → ∃ c, w.cell? v = some c ∧ w.cell? u = some c ∧
          ∀ via, c.latch.stats.posts ≠ Counter.last →
            ∃ answer w₁, (Step.signal v via).run setting w = .ok (answer, w₁) ∧
              (c.sleepers ≠ [] → answer = .released 1) ∧
              (c.sleepers = [] → answer = .released 0 ∧
                ∃ w₂, (Step.tryWait u).run setting w₁ = .ok (.truth true, w₂))) ∧
        (k ≠ l → k.isNull = false → l.isNull = false → ∃ a b, a ≠ b ∧
          k.address? = some a ∧ (w.system.cell? a).isSome ∧
          l.address? = some b ∧ (w.system.cell? b).isSome ∧
          ∀ (s : Step) y, s.subject? = some v → s.call? setting (.handle k) = some y →
            ∃ answer w', s.run setting w = .ok (answer, w') ∧ w'.cell? u = w.cell? u) := by
  obtain ⟨rs, w, hrun⟩ := (h.take n).exists_reports
  have hkeeps := (World.keeps_start limit).run hrun
  have horder : w.system.InOrder :=
    inOrder_of_reports (System.inOrder_empty.of_cells fun _ _ hc => hc) hrun
  obtain ⟨place, htraces⟩ := (World.keeps_start limit).traces_run
    (Lineage.traces_empty 0 fun _ => ⟨1, Nat.one_pos⟩) hrun
  have hnull : ∀ {k : Handle}, k.isNull = true ↔ k.address? = none := by
    intro k
    rw [Handle.address?_eq_none_iff, Handle.isNull, decide_eq_true_iff]
    exact ⟨fun hraw => congrArg Handle.mk hraw, congrArg Handle.raw⟩
  have hlive : ∀ {k : Handle}, k.isNull = false → ∃ a, k.address? = some a := by
    intro k hk
    refine Option.ne_none_iff_exists'.mp fun hnone => ?_
    rw [hnull.mpr hnone] at hk
    cases hk
  refine ⟨rs, w, hrun, w.equivalence_equal setting, fun v u k l hv hu => ?_⟩
  have hlineage : k = l ↔ lineageOf setting limit (steps.take n) v =
      lineageOf setting limit (steps.take n) u := by
    rw [lineageOf, ← htraces.address?_eq_iff hv hu]
    exact ⟨fun heq => by rw [heq], Handle.eq_of_address?⟩
  have hthere : ∀ {v} {k : Handle} {a}, w.vars.get? v = some (.handle k) → k.address? = some a →
      (w.system.cell? a).isSome := fun hv ha => hkeeps.isSome_cell? hv ha
  refine ⟨Step.run_compare hv hu, hlineage, ⟨congrArg Handle.raw, congrArg Handle.mk⟩, ?_,
    congrArg hash, Step.run_isNull hv, ?_, ?_, ?_⟩
  · constructor
    · rintro rfl
      cases ha : k.address? with
      | none => exact .inl ⟨rfl, rfl⟩
      | some a => exact .inr ⟨a, rfl, rfl, hthere hv ha⟩
    · rintro (⟨hk, hl⟩ | ⟨a, hk, hl, -⟩)
      · exact Handle.eq_of_address? (hk.trans hl.symm)
      · exact Handle.eq_of_address? (hk.trans hl.symm)
  · exact hnull.trans (htraces.address?_eq_none_iff hv)
  · rintro rfl hk
    obtain ⟨a, ha⟩ := hlive hk
    obtain ⟨c, hcell⟩ := Option.isSome_iff_exists.mp (hthere hv ha)
    have hcell? : ∀ {t}, w.vars.get? t = some (.handle k) → w.cell? t = some c := by
      intro t ht
      rw [World.cell?, ht, Option.bind_some, Variable.address?, ha, Option.bind_some, hcell]
    exact ⟨c, hcell? hv, hcell? hu, fun via hp =>
      Step.run_signal_tryWait hv hu ha hcell (horder a c hcell) hp via⟩
  · intro hne hk hl
    obtain ⟨a, ha⟩ := hlive hk
    obtain ⟨b, hb⟩ := hlive hl
    have hab : k.address? ≠ some b := fun hkb => hne (Handle.eq_of_address? (hkb.trans hb.symm))
    exact ⟨a, b, fun heq => hab (heq ▸ ha), ha, hthere hv ha, hb, hthere hu hb,
      fun s y hs hy => Step.cell?_of_call hv hu hb hab hs hy⟩

/-- An event that is released, and another one that stands where it stood; a handle that came of no
memory, and copies. -/
def reusedScript : List Step :=
  [.allocator "empty" .always, .new "a" .system, .intoHandle "a", .copy "b" "a" .raw,
    .delete "a" .handle, .createForeign "c", .copy "d" "c" .value, .create "e" (.named "empty"),
    .null "f" .default]

theorem handles_equal_iff_reused :
    Sensible {} reusedScript (World.start none) ∧
    lineageOf {} none (reusedScript.take 4) "b" = some (.event 1) ∧
    lineageOf {} none (reusedScript.take 9) "b" = none ∧
    lineageOf {} none (reusedScript.take 9) "d" = some (.event 5) ∧
    ∃ rs w k l, reports {} (reusedScript.take 9) (World.start none) = .ok (rs, w) ∧
      w.vars.get? "c" = some (.handle k) ∧ w.vars.get? "e" = some (.handle l) ∧
      k ≠ l ∧ k.isNull = false ∧ l.isNull = true := by
  have hsensible : Sensible {} reusedScript (World.start none) := by decide +kernel
  have hc : lineageOf {} none (reusedScript.take 9) "c" = some (.event 5) := by decide +kernel
  have he : lineageOf {} none (reusedScript.take 9) "e" = some .null := by decide +kernel
  have hvars : (reports {} (reusedScript.take 9) (World.start none)).toOption.map
      (fun p => (p.2.vars.get? "c", p.2.vars.get? "e")) =
        some (some (.handle ⟨4096⟩), some (.handle ⟨0⟩)) := by decide +kernel
  obtain ⟨rs, w, hrun, -, hequal⟩ := handles_equal_iff {} hsensible 9
  rw [hrun] at hvars
  obtain ⟨hk, hl⟩ := Prod.mk.inj (Option.some.inj hvars)
  obtain ⟨-, hsame, -, -, -, -, hnull, -⟩ := hequal "c" "e" _ _ hk hl
  obtain ⟨-, -, -, -, -, -, hnull', -⟩ := hequal "e" "e" _ _ hl hl
  refine ⟨hsensible, by decide +kernel, by decide +kernel, by decide +kernel, rs, w, _, _, hrun,
    hk, hl, ?_, ?_, hnull'.mpr he⟩
  · rw [ne_eq, hsame, hc, he]
    exact nofun
  · rw [Bool.eq_false_iff, ne_eq, hnull, hc]
    exact nofun

end AutoReset.Script
