import AutoReset.Proofs.Script.Act
/-!
# Which scripts make sense

A step needs something of the variables and the allocators that it names
(`AutoReset.Script.Step.needs`): a variable may have to hold an owner, or a handle, or
anything at all, and an allocator may have to be there. That is the whole contract. A step
runs if its needs are met, and if not it is refused for the first one that is not
(`AutoReset.Script.Step.run_eq_error_iff`); in particular no fault stops a script, whatever
the log sink, the memory or a counter does.

A variable whose event was released, or taken over by an owner, is out of use. So a script
that makes sense (`AutoReset.Script.Sensible`) uses no event after its end, and lets it have
one owner. Those scripts, and no others, run to their end (`AutoReset.Script.sensible_iff`).
-/

namespace AutoReset.Script

/-! ### Needs -/

/-- What a step needs of the names in it. -/
inductive Need where
  /-- The variable holds something. -/
  | variable (v : String)
  /-- The variable holds an owner. -/
  | owner (v : String)
  /-- The variable holds a handle. -/
  | handle (v : String)
  /-- Memory can be had from there. -/
  | source (memory : Source)

/-- What is wrong with a need, if it is not met. -/
def Need.misuse? (w : World) : Need → Option Misuse
  | .variable v =>
    match w.vars.get? v with
    | some _ => none
    | none => some (.undefinedVariable v)
  | .owner v =>
    match w.vars.get? v with
    | some (.owner _) => none
    | some (.handle _) => some (.notAnOwner v)
    | none => some (.undefinedVariable v)
  | .handle v =>
    match w.vars.get? v with
    | some (.handle _) => none
    | some (.owner _) => some (.notAHandle v)
    | none => some (.undefinedVariable v)
  | .source .system => none
  | .source (.named name) =>
    match w.allocators.get? name with
    | some _ => none
    | none => some (.undefinedAllocator name)

/-- **The contract of each step**, in the order in which it is looked at. -/
def Step.needs : Step → List Need
  | .allocator _ _ | .armLog | .createForeign _ | .null _ _ => []
  | .new _ memory | .create _ memory => [.source memory]
  | .copy _ source _ => [.handle source]
  | .compare v w => [.handle v, .handle w]
  | .isNull v | .intoOwner v => [.handle v]
  | .isSignaled v | .waitTimeout v _ | .intoHandle v => [.owner v]
  | .text v _ | .signal v _ | .wait v _ | .tryWait v | .delete v _ => [.variable v]

/-- What is wrong with a step, if anything is. -/
def Step.misuse? (w : World) (s : Step) : Option Misuse :=
  s.needs.findSome? (Need.misuse? w)

namespace Act

variable {α β : Type} {n : Need} {ns : List Need}

/-! ### Parts that always make sense -/

/-- Does a part of a script make sense in every world? -/
def Total (x : Act α) : Prop := ∀ w, ∃ r, x w = .ok r

theorem Total.pure (a : α) : Total (pure a : Act α) := fun w => ⟨(a, w), rfl⟩

theorem Total.get : Total (get : Act World) := fun w => ⟨(w, w), rfl⟩

theorem Total.modify (f : World → World) : Total (modify f : Act Unit) :=
  fun w => ⟨((), f w), rfl⟩

theorem Total.bind {x : Act α} {f : α → Act β} (hx : Total x) (hf : ∀ a, Total (f a)) :
    Total (x >>= f) := by
  intro w
  obtain ⟨⟨a, w₁⟩, ha⟩ := hx w
  obtain ⟨r, hr⟩ := hf a w₁
  exact ⟨r, bind_eq_ok.mpr ⟨a, w₁, ha, hr⟩⟩

theorem total_perform (x : Attempt System α) : Total (perform x) :=
  fun w => ⟨_, perform_apply x w⟩

theorem total_assign (v : String) (x : Variable) : Total (assign v x) := by
  refine Total.get.bind fun w => (Total.modify _).bind fun _ => ?_
  rcases w.vars.get? v with _ | o | k
  · exact .pure _
  · dsimp only
    split
    · exact (total_perform _).bind fun _ => .pure _
    · exact .pure _
  · exact .pure _

end Act

theorem total_answering {α : Type} (x : Attempt System α) {k : α → Act Answer}
    (hk : ∀ a, Act.Total (k a)) : Act.Total (answering x k) := by
  refine (Act.total_perform x).bind fun outcome => ?_
  cases outcome with
  | ok a => exact hk a
  | error f => exact .pure _

theorem total_holdHandle (v : String) (h : Handle) : Act.Total (holdHandle v h) :=
  (Act.total_assign v _).bind fun _ => .pure _

/-! ### Parts with needs -/

namespace Act

variable {α β : Type} {n : Need} {ns : List Need}

theorem get_bind (f : World → Act β) (w : World) : (get >>= f) w = f w w := rfl

theorem bind_of_ok {x : Act α} {f : α → Act β} {w w₁ : World} {a : α} (h : x w = .ok (a, w₁)) :
    (x >>= f) w = f a w₁ := by
  show (x w >>= fun r => f r.1 r.2) = _
  rw [h]
  rfl

theorem bind_of_error {x : Act α} {f : α → Act β} {w : World} {m : Misuse}
    (h : x w = .error m) : (x >>= f) w = .error m := by
  show (x w >>= fun r => f r.1 r.2) = _
  rw [h]
  rfl

/-- Does a part of a script look up what is needed, and change nothing? If it is not there,
that is what is wrong. -/
def Asks (n : Need) (x : Act α) : Prop :=
  ∀ w, (n.misuse? w = none ∧ ∃ a, x w = .ok (a, w)) ∨ ∃ m, n.misuse? w = some m ∧ x w = .error m

/-- Does a part of a script run if these needs are met? If one is not, that is what is wrong,
and the first such is told. -/
def Meets (ns : List Need) (x : Act α) : Prop :=
  ∀ w, (ns.findSome? (Need.misuse? w) = none ∧ ∃ r, x w = .ok r) ∨
    ∃ m, ns.findSome? (Need.misuse? w) = some m ∧ x w = .error m

theorem Total.meets {x : Act α} (h : Total x) : Meets [] x := fun w => Or.inl ⟨rfl, h w⟩

theorem Asks.meets {x : Act α} {f : α → Act β} (hx : Asks n x) (hf : ∀ a, Meets ns (f a)) :
    Meets (n :: ns) (x >>= f) := by
  intro w
  rw [List.findSome?_cons]
  rcases hx w with ⟨hn, a, ha⟩ | ⟨m, hn, hm⟩
  · rw [hn, bind_of_ok ha]
    exact hf a w
  · rw [hn, bind_of_error hm]
    exact Or.inr ⟨m, rfl, rfl⟩

/-- A part with one need, whatever is done with what is found. -/
theorem Asks.total {x : Act α} {f : α → Act β} (hx : Asks n x) (hf : ∀ a, Total (f a)) :
    Meets [n] (x >>= f) :=
  hx.meets fun a => (hf a).meets

theorem lookup_of_some {v : String} {x : Variable} {w : World} (h : w.vars.get? v = some x) :
    lookup v w = .ok (x, w) := by
  rw [lookup, get_bind, h]
  rfl

theorem lookup_of_none {v : String} {w : World} (h : w.vars.get? v = none) :
    lookup v w = .error (.undefinedVariable v) := by
  rw [lookup, get_bind, h]
  rfl

theorem asks_lookup (v : String) : Asks (.variable v) (lookup v) := by
  intro w
  rw [Need.misuse?]
  cases hv : w.vars.get? v with
  | none => exact Or.inr ⟨_, rfl, lookup_of_none hv⟩
  | some x => exact Or.inl ⟨rfl, x, lookup_of_some hv⟩

theorem asks_owner (v : String) : Asks (.owner v) (owner v) := by
  intro w
  rw [owner, Need.misuse?]
  cases hv : w.vars.get? v with
  | none => exact Or.inr ⟨_, rfl, bind_of_error (lookup_of_none hv)⟩
  | some x =>
    rw [bind_of_ok (lookup_of_some hv)]
    cases x with
    | owner o => exact Or.inl ⟨rfl, o, rfl⟩
    | handle k => exact Or.inr ⟨_, rfl, rfl⟩

theorem asks_handle (v : String) : Asks (.handle v) (handle v) := by
  intro w
  rw [handle, Need.misuse?]
  cases hv : w.vars.get? v with
  | none => exact Or.inr ⟨_, rfl, bind_of_error (lookup_of_none hv)⟩
  | some x =>
    rw [bind_of_ok (lookup_of_some hv)]
    cases x with
    | owner o => exact Or.inr ⟨_, rfl, rfl⟩
    | handle k => exact Or.inl ⟨rfl, k, rfl⟩

theorem asks_origin (memory : Source) : Asks (.source memory) (origin memory) := by
  intro w
  cases memory with
  | system => exact Or.inl ⟨rfl, .system, rfl⟩
  | named name =>
    rw [origin, get_bind, Need.misuse?]
    cases w.allocators.get? name with
    | none => exact Or.inr ⟨_, rfl, rfl⟩
    | some number => exact Or.inl ⟨rfl, .ledger number, rfl⟩

end Act

/-! ### Steps -/

section Steps

variable {setting : Setting} {w : World} {s : Step}

/-- A deletion runs, whatever its variable holds and however the release ends. -/
theorem total_deletion (via : Via) (x : Variable) : Act.Total (do
    let outcome ← Act.perform (x.delete via)
    match x.address? with
    | some a => modify fun w => w.forget a
    | none => pure ()
    match outcome with
    | .ok () => return .nothing
    | .error f => return Answer.fault f) := by
  refine (Act.total_perform _).bind fun outcome => ?_
  have hanswer : Act.Total (match outcome with
      | .ok () => return Answer.nothing
      | .error f => return Answer.fault f) := by
    cases outcome <;> exact .pure _
  cases x.address? with
  | some a => exact (Act.Total.modify _).bind fun _ => hanswer
  | none => exact (Act.Total.pure ()).bind fun _ => hanswer

/-- **Each step meets its contract.** -/
theorem Step.meets (setting : Setting) (s : Step) : Act.Meets s.needs (s.run setting) := by
  cases s with
  | allocator name plan =>
    exact (total_answering _ fun number => (Act.Total.modify _).bind fun _ => .pure _).meets
  | armLog => exact ((Act.Total.modify _).bind fun _ => .pure _).meets
  | new v memory =>
    refine (Act.asks_origin memory).total fun o => total_answering _ fun r => ?_
    cases r with
    | ok o => exact (Act.total_assign v _).bind fun _ => .pure _
    | error e => exact .pure _
  | create v memory =>
    exact (Act.asks_origin memory).total fun o => total_answering _ (total_holdHandle v)
  | createForeign v => exact (total_answering _ fun raw => total_holdHandle v _).meets
  | null v source => exact (total_holdHandle v _).meets
  | copy v source via => exact (Act.asks_handle source).total fun k => total_holdHandle v _
  | compare v u =>
    exact (Act.asks_handle v).meets fun a => (Act.asks_handle u).total fun b => .pure _
  | isNull v => exact (Act.asks_handle v).total fun k => .pure _
  | isSignaled v =>
    exact (Act.asks_owner v).total fun o => total_answering _ fun p => .pure _
  | text v spec =>
    exact (Act.asks_lookup v).total fun x => Act.Total.get.bind fun w => .pure _
  | signal v via | wait v via | tryWait v =>
    exact (Act.asks_lookup v).total fun x => total_answering _ fun p => .pure _
  | waitTimeout v timeout =>
    exact (Act.asks_owner v).total fun o => total_answering _ fun p => .pure _
  | delete v via => exact (Act.asks_lookup v).total (total_deletion via)
  | intoHandle v =>
    exact (Act.asks_owner v).total fun o => (Act.Total.modify _).bind fun _ => .pure _
  | intoOwner v =>
    refine (Act.asks_handle v).total fun k => ?_
    cases k.intoOwner? with
    | some o =>
      exact (Act.Total.modify _).bind fun _ => (Act.Total.modify _).bind fun _ => .pure _
    | none => exact (Act.Total.modify _).bind fun _ => .pure _

/-- **A step is refused for what is wrong with it, and for nothing else.** -/
theorem Step.run_eq_error_iff {m : Misuse} :
    s.run setting w = .error m ↔ s.misuse? w = some m := by
  rcases s.meets setting w with ⟨hnone, r, hr⟩ | ⟨m', hsome, herror⟩
  · rw [hr, Step.misuse?, hnone]
    simp only [reduceCtorEq]
  · rw [herror, Step.misuse?, hsome, Except.error.injEq, Option.some.injEq]

theorem Step.misuse?_eq_none_iff (setting : Setting) :
    s.misuse? w = none ↔ ∃ r, s.run setting w = .ok r := by
  rcases s.meets setting w with ⟨hnone, hr⟩ | ⟨m, hsome, herror⟩
  · exact iff_of_true hnone hr
  · simp [Step.misuse?, hsome, herror]

theorem Step.exists_report (setting : Setting) (h : s.misuse? w = none) :
    ∃ answer w', s.run setting w = .ok (answer, w') ∧ ∃ r, s.report setting w = .ok (r, w') := by
  obtain ⟨⟨answer, w'⟩, hrun⟩ := (Step.misuse?_eq_none_iff setting).mp h
  exact ⟨answer, w', hrun, _,
    Act.bind_eq_ok.mpr ⟨w, w, rfl, Act.bind_eq_ok.mpr ⟨answer, w', hrun, rfl⟩⟩⟩

end Steps

/-! ### Scripts -/

/-- **Does a script make sense?** Nothing is wrong with its first step, and the rest makes
sense in the world that this step makes. -/
def Sensible (setting : Setting) : List Step → World → Prop
  | [], _ => True
  | s :: steps, w =>
    s.misuse? w = none ∧ ∀ r ∈ (s.run setting w).toOption, Sensible setting steps r.2

section Scripts

variable {setting : Setting} {steps : List Step} {s : Step} {w : World}

theorem Step.run_of_mem_toOption {r : Answer × World} (h : r ∈ (s.run setting w).toOption) :
    s.run setting w = .ok r := by
  cases hs : s.run setting w with
  | ok r' =>
    rw [hs] at h
    exact congrArg Except.ok (Option.some.inj h)
  | error m =>
    rw [hs] at h
    cases h

instance decidableSensible (setting : Setting) :
    (steps : List Step) → (w : World) → Decidable (Sensible setting steps w)
  | [], _ => .isTrue trivial
  | s :: steps, w =>
    haveI : DecidablePred fun r : Answer × World => Sensible setting steps r.2 :=
      fun r => decidableSensible setting steps r.2
    inferInstanceAs (Decidable (s.misuse? w = none ∧
      ∀ r ∈ (s.run setting w).toOption, Sensible setting steps r.2))

/-- Wherever a script that makes sense is cut off, it makes sense up to there. -/
theorem Sensible.take (h : Sensible setting steps w) (n : Nat) :
    Sensible setting (steps.take n) w := by
  induction steps generalizing w n with
  | nil =>
    rw [List.take_nil]
    exact h
  | cons s steps ih =>
    cases n with
    | zero => trivial
    | succ n => exact ⟨h.1, fun r hr => ih (h.2 r hr) n⟩

/-- **A script that makes sense runs to its end**, past every fault. -/
theorem Sensible.exists_reports (h : Sensible setting steps w) :
    ∃ rs w', reports setting steps w = .ok (rs, w') := by
  induction steps generalizing w with
  | nil => exact ⟨[], w, rfl⟩
  | cons s steps ih =>
    obtain ⟨hs, hsteps⟩ := h
    obtain ⟨answer, w₁, hrun, r, hreport⟩ := s.exists_report setting hs
    obtain ⟨rs, w', hrest⟩ := ih (hsteps (answer, w₁) (by rw [hrun]; exact rfl))
    refine ⟨r :: rs, w', ?_⟩
    rw [reports, Act.bind_of_ok hreport, Act.bind_of_ok hrest]
    rfl

/-- **The scripts that make sense are those that run to their end.** -/
theorem sensible_iff : Sensible setting steps w ↔ ∃ rs w', reports setting steps w = .ok (rs, w') := by
  refine ⟨Sensible.exists_reports, ?_⟩
  rintro ⟨rs, w', hrun⟩
  induction steps generalizing w rs with
  | nil => trivial
  | cons s steps ih =>
    obtain ⟨r, w₁, hreport, hrest⟩ := Act.bind_eq_ok.mp hrun
    obtain ⟨rs', w₂, hsteps, hok⟩ := Act.bind_eq_ok.mp hrest
    cases hok
    have hs := of_report hreport
    refine ⟨(Step.misuse?_eq_none_iff setting).mpr ⟨_, hs⟩, fun p hp => ?_⟩
    rw [hs] at hp
    cases hp
    exact ih rs' hsteps

end Scripts

/-! ### Answers that say yes or no -/

/-- What an answer says, if it is yes or no. -/
def Answer.truth? : Answer → Option Bool
  | .truth b => some b
  | _ => none

/-- What the steps of a script answer that say yes or no. -/
def truths (setting : Setting) (steps : List Step) : Option (List Bool) :=
  (reports setting steps (World.start none)).toOption.map fun r =>
    r.1.filterMap fun report => report.answer.truth?

end AutoReset.Script
