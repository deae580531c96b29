import AutoReset.Proofs.Script.Ownership
/-!
# What each step does, as one equation

A step whose needs are met does not fail, and here is said what it comes to: the answer, and
the world afterwards. Most steps are calls, and a call changes nothing but the system
(`AutoReset.Script.Step.run_of_call`). Which way an event is held makes no difference to
what is called: an operation is a function of the event that its variable refers to
(`AutoReset.Script.Variable.signal_eq` and its kin).

The three steps that create an event are one, up to the form in which the event is to be held
(`AutoReset.Script.Step.run_of_creation`). Without memory there is an error for whoever asked
for an owner, and the variable keeps what it held; whoever asked for a handle has the null
handle.

A step that creates nothing, and does not arm the log sink, makes one of a few changes to the
world (`AutoReset.Script.Step.Change`), and what is said of all such steps goes by these. What
a step leaves in the variables is said here: a variable is read back as it was set, and goes out of
use with its event (`AutoReset.Script.World.get?_forget`), and a step leaves the variables of other
events as they are (`AutoReset.Script.Step.get?_of_run`).
-/

namespace AutoReset

namespace Table

variable {α : Type} {t : Table α}

/-- Where no name stands twice, a value is kept if it passes the test. -/
theorem get?_keep (h : t.rows.Pairwise fun r s => r.1 ≠ s.1) (p : α → Bool) (name : String) :
    (t.keep p).get? name = (t.get? name).filter p := by
  obtain ⟨rows⟩ := t
  simp only [get?, keep]
  induction rows with
  | nil => rfl
  | cons row rows ih =>
    obtain ⟨hrow, hrows⟩ := List.pairwise_cons.mp h
    have hrest := ih hrows
    obtain ⟨key, a⟩ := row
    by_cases hname : name = key
    · subst hname
      have hnone : rows.lookup name = none := by
        rw [List.lookup_eq_none_iff]
        exact fun s hs => by simpa using hrow s hs
      rw [hnone] at hrest
      cases hp : p a with
      | true => simp [hp, Option.filter]
      | false =>
        simp only [List.filter_cons, hp, Bool.false_eq_true, if_false, hrest]
        simp [hp, Option.filter]
    · have hne : (name == key) = false := by simpa using hname
      cases hp : p a <;> simpa [List.filter_cons, List.lookup_cons, hp, hne] using hrest

end Table

/-- A call on an event; without an event, the answer given here. -/
def Entry.reach (a : Option Address) (c : Call) (otherwise : Reply) : Entry :=
  match a with
  | some a => .call a c
  | none => .skip otherwise

/-- The event is released, if there is one. -/
def System.releaseAt : Option Address → Attempt System Unit
  | some a => release a
  | none => pure ()

theorem Handle.ofResult_address? (k : Handle) : ofResult k.address? = k := by
  obtain ⟨raw⟩ := k
  unfold address?
  split
  · rfl
  · next h =>
    cases Nat.eq_zero_of_not_pos h
    rfl

/-- A handle is known by what it refers to. -/
theorem Handle.eq_of_address? {k l : Handle} (h : k.address? = l.address?) : k = l := by
  rw [← k.ofResult_address?, ← l.ofResult_address?, h]

namespace Script

/-! ### What is reached through a variable -/

namespace Variable

variable (x : Variable) (via : Via)

theorem signal_eq : x.signal via = .reach x.address? .signal .done := by
  cases x with
  | owner o => rfl
  | handle h => cases via <;> rfl

theorem wait_eq : x.wait via = .reach x.address? .wait .done := by
  cases x with
  | owner o => rfl
  | handle h => cases via <;> rfl

theorem tryWait_eq : x.tryWait = .reach x.address? .tryWait (.flag false) := by
  cases x <;> rfl

theorem delete_eq : x.delete via = System.releaseAt x.address? := by
  cases h : x.address? with
  | some a => exact delete_of_some via h
  | none => exact delete_of_none via h

end Variable

theorem CopyVia.copy_eq (via : CopyVia) (h : Handle) : via.copy h = h := by
  cases via <;> rfl

theorem NullSource.handle_eq (source : NullSource) : source.handle = .null := by
  cases source <;> rfl

/-! ### What is put into a variable -/

namespace World

/-- The event that the variable refers to. -/
def address? (w : World) (v : String) : Option Address := (w.vars.get? v).bind Variable.address?

theorem address?_eq {w : World} {v : String} {x : Variable} (h : w.vars.get? v = some x) :
    w.address? v = x.address? := by
  rw [address?, h]
  rfl

theorem cell?_of_address?_eq_none {w : World} {v : String} (h : w.address? v = none) :
    w.cell? v = none :=
  congrArg (Option.bind · w.system.cell?) h

/-- The event that the variable owns. -/
def owned? (w : World) (v : String) : Option Address := (w.vars.get? v).bind Variable.owned?

/-- The system after an owner in the variable has made way for what is put there. Its event is
released, if that is not what is put there. -/
def displaced (w : World) (v : String) (x : Variable) : System :=
  match w.owned? v with
  | some a => if x.address? ≠ some a then (System.release a).after w.system else w.system
  | none => w.system

theorem displaced_of_owned?_eq_none {w : World} {v : String} (h : w.owned? v = none)
    (x : Variable) : w.displaced v x = w.system := by
  rw [displaced, h]

/-- The world after something was put into the variable. -/
def assigned (w : World) (v : String) (x : Variable) : World :=
  { w with system := w.displaced v x, vars := w.vars.set v x }

end World

theorem Act.assign_apply (v : String) (x : Variable) (w : World) :
    assign v x w = .ok ((), w.assigned v x) := by
  have hset : (modify fun w => { w with vars := w.vars.set v x } : Act Unit) w =
      .ok ((), { w with vars := w.vars.set v x }) := rfl
  rw [assign, get_bind]
  refine (bind_of_ok hset).trans ?_
  simp only [World.assigned, World.displaced, World.owned?]
  rcases w.vars.get? v with _ | o | k
  · rfl
  · simp only [Option.bind_some, Variable.owned?]
    split
    · rw [bind_of_ok (perform_apply ..)]
      rfl
    · rfl
  · rfl

/-- What a variable holds is known by what it refers to and by its form. -/
theorem Variable.eq_of_address? {x y : Variable} (h : x.address? = y.address?)
    (howned : x.owned?.isSome = y.owned?.isSome) : x = y := by
  rcases x with ⟨⟨a⟩⟩ | k <;> rcases y with ⟨⟨b⟩⟩ | l
  · have hab : a = b := Option.some.inj h
    rw [hab]
  · cases howned
  · cases howned
  · exact congrArg handle (Handle.eq_of_address? h)

/-! ### Calls -/

/-- The world after an attempt on the system, and the answer that came of it, be it that of a
fault. -/
def settle (y : Attempt System Answer) (w : World) : Answer × World :=
  (match y.outcome w.system with
    | .ok answer => answer
    | .error f => .fault f,
    { w with system := y.after w.system })

theorem answering_pure {α : Type} (y : Attempt System α) (k : α → Answer) (w : World) :
    answering y (fun a => pure (k a)) w = .ok (settle (k <$> y) w) := by
  rw [answering, Act.bind_of_ok (Act.perform_apply y w)]
  simp only [settle, Attempt.outcome, Attempt.after_map, Attempt.map_apply]
  cases y w.system <;> rfl

/-- **What a step calls**, by what its variable holds, if the step is a call. -/
def Step.call? (setting : Setting) : Step → Variable → Option (Attempt System Answer)
  | .isSignaled _, .owner o => some (Answer.ofTruth <$> System.run setting.now o.isSignaled)
  | .signal _ via, x => some (Answer.ofSignal <$> System.run setting.now (x.signal via))
  | .wait _ via, x => some (Answer.ofWait <$> System.run setting.now (x.wait via))
  | .tryWait _, x => some (Answer.ofTruth <$> System.run setting.now x.tryWait)
  | .waitTimeout _ timeout, .owner o =>
    some ((fun r : Passage × Instant => Answer.ofBoundedWait timeout setting.now r.2 r.1) <$>
      System.waitPatiently setting.patience setting.now o.address timeout)
  | _, _ => none

section Steps

variable {setting : Setting} {w : World} {s : Step} {v : String} {x : Variable}

theorem Act.owner_of_some {o : Owner} (h : w.vars.get? v = some (.owner o)) :
    owner v w = .ok (o, w) := by
  rw [owner, bind_of_ok (lookup_of_some h)]
  rfl

theorem Act.handle_of_some {k : Handle} (h : w.vars.get? v = some (.handle k)) :
    handle v w = .ok (k, w) := by
  rw [handle, bind_of_ok (lookup_of_some h)]
  rfl

theorem Act.origin_of_some {memory : Source} {o : Origin} (h : w.origin? memory = some o) :
    origin memory w = .ok (o, w) := by
  cases memory with
  | system =>
    cases h
    rfl
  | named name =>
    obtain ⟨number, hnumber, rfl⟩ := Option.map_eq_some_iff.mp h
    rw [origin, get_bind, hnumber]
    rfl

/-- **A call changes nothing but the system.** -/
theorem Step.run_of_call {y : Attempt System Answer} (hv : s.subject? = some v)
    (hx : w.vars.get? v = some x) (hy : s.call? setting x = some y) :
    s.run setting w = .ok (settle y w) := by
  cases s <;> cases hv <;> rcases x with o | k <;> cases hy
  case isSignaled.refl.owner =>
    exact (Act.bind_of_ok (Act.owner_of_some hx)).trans (answering_pure _ _ w)
  case waitTimeout.refl.owner =>
    exact (Act.bind_of_ok (Act.owner_of_some hx)).trans (answering_pure _ _ w)
  all_goals exact (Act.bind_of_ok (Act.lookup_of_some hx)).trans (answering_pure _ _ w)

/-! ### What a step that runs has found -/

/-- The needs of a step that runs are met. -/
theorem Step.met_of_run {r : Answer × World} (h : s.run setting w = .ok r) {n : Need}
    (hn : n ∈ s.needs) : n.misuse? w = none := by
  have hnone := (Step.misuse?_eq_none_iff setting).mpr ⟨r, h⟩
  rw [Step.misuse?, List.findSome?_eq_none_iff] at hnone
  exact hnone n hn

theorem Need.exists_variable (h : (Need.variable v).misuse? w = none) :
    ∃ x, w.vars.get? v = some x := by
  rw [misuse?] at h
  split at h
  · next x hx => exact ⟨x, hx⟩
  · cases h

theorem Need.exists_owner (h : (Need.owner v).misuse? w = none) :
    ∃ o, w.vars.get? v = some (.owner o) := by
  rw [misuse?] at h
  split at h
  · next o ho => exact ⟨o, ho⟩
  · cases h
  · cases h

theorem Need.exists_handle (h : (Need.handle v).misuse? w = none) :
    ∃ k, w.vars.get? v = some (.handle k) := by
  rw [misuse?] at h
  split at h
  · next k hk => exact ⟨k, hk⟩
  · cases h
  · cases h

theorem Need.exists_origin {memory : Source} (h : (Need.source memory).misuse? w = none) :
    ∃ o, w.origin? memory = some o := by
  cases memory with
  | system => exact ⟨.system, rfl⟩
  | named name =>
    rw [misuse?] at h
    split at h
    · next number hnumber => exact ⟨.ledger number, by rw [World.origin?, hnumber]; rfl⟩
    · cases h

/-! ### Creations -/

/-- A step that creates an event: for which variable, with memory from where, and in which
form it is to be held. -/
structure Creation where
  /-- The variable. -/
  target : String
  /-- Where the memory comes from. -/
  memory : Source
  /-- Is it to be held by an owner? -/
  owned : Bool
  deriving DecidableEq

/-- The creation that a step is, if it is one. -/
def Step.creation? : Step → Option Creation
  | .new v memory => some ⟨v, memory, true⟩
  | .create v memory => some ⟨v, memory, false⟩
  | .createForeign v => some ⟨v, .system, false⟩
  | _ => none

theorem Step.exists_origin {c : Creation} {r : Answer × World} (hs : s.creation? = some c)
    (h : s.run setting w = .ok r) : ∃ o, w.origin? c.memory = some o := by
  cases s with
  | new v memory | create v memory =>
    cases hs
    exact Need.exists_origin (Step.met_of_run h (List.mem_singleton.mpr rfl))
  | createForeign v =>
    cases hs
    exact ⟨.system, rfl⟩
  | _ => cases hs

namespace Creation

variable (c : Creation)

/-- What the variable is to hold, with an event or without one; an owner without an event is
nothing. -/
def held : Option Address → Option Variable
  | some a => some (if c.owned then .owner ⟨a⟩ else .handle (.ofAddress a))
  | none => if c.owned then none else some (.handle .null)

/-- The answer, with an event or without one. -/
def answer : Option Address → Answer
  | some _ => if c.owned then .ok else .handle false
  | none => if c.owned then .failed .allocationFailure else .handle true

/-- The answer says whether the variable holds something. -/
theorem holds_answer (r : Option Address) : (c.answer r).holds = (c.held r).isSome := by
  unfold answer held
  cases r <;> cases c.owned <;> rfl

variable {c} {r : Option Address}

/-- What a variable holds refers to the event that was created, if there is one. -/
theorem address?_of_held {x : Variable} (h : c.held r = some x) : x.address? = r := by
  unfold held at h
  cases r with
  | none =>
    cases hc : c.owned <;> rw [hc] at h <;> cases h
    rfl
  | some a =>
    cases hc : c.owned <;> rw [hc] at h <;> cases h
    · exact Handle.address?_ofAddress a
    · rfl

end Creation

/-- The world after the variable got what it is to hold, if anything. -/
def World.hold (w : World) (v : String) : Option Variable → World
  | some x => w.assigned v x
  | none => w

/-- The world after a creation in it, and before a variable holds the event. -/
def World.afterCreate (w : World) (policy : Placement) (o : Origin) : World :=
  { w with system := (System.create policy o).after w.system }

theorem holdHandle_apply (v : String) (k : Handle) (w : World) :
    holdHandle v k w = .ok (.handle k.isNull, w.assigned v (.handle k)) :=
  Act.bind_of_ok (Act.assign_apply v (.handle k) w)

theorem isNull_ofAddress (a : Address) : (Handle.ofAddress a).isNull = false := by
  simp [Handle.isNull, Handle.ofAddress, Nat.ne_of_gt a.pos]

/-- What comes of a creation, by the way in which its event is to be held. -/
theorem answering_create {β : Type} {policy : Placement} {o : Origin} {c : Creation}
    {g : Option Address → β} {k : β → Act Answer}
    (hk : ∀ r w, k (g r) w = .ok (c.answer r, w.hold c.target (c.held r))) (w : World) :
    answering (g <$> System.create policy o) k w =
      .ok (match (System.create policy o).outcome w.system with
        | .ok r => (c.answer r, (w.afterCreate policy o).hold c.target (c.held r))
        | .error f => (.fault f, w.afterCreate policy o)) := by
  rw [answering, Act.bind_of_ok (Act.perform_apply _ w), Attempt.after_map]
  simp only [Attempt.outcome, Attempt.map_apply]
  cases System.create policy o w.system with
  | ok r s => exact hk r _
  | error f s => rfl

/-- **A creation in one equation**, whatever form it is in. -/
theorem Step.run_of_creation {c : Creation} {o : Origin} (hs : s.creation? = some c)
    (ho : w.origin? c.memory = some o) :
    s.run setting w =
      .ok (match (System.create setting.policy o).outcome w.system with
        | .ok r => (c.answer r, (w.afterCreate setting.policy o).hold c.target (c.held r))
        | .error f => (.fault f, w.afterCreate setting.policy o)) := by
  cases s with
  | new v memory =>
    cases hs
    refine (Act.bind_of_ok (Act.origin_of_some ho)).trans ?_
    rw [Owner.create_eq_map]
    refine answering_create (c := ⟨v, memory, true⟩) (fun r w => ?_) w
    cases r with
    | none => rfl
    | some a => exact Act.bind_of_ok (Act.assign_apply ..)
  | create v memory =>
    cases hs
    refine (Act.bind_of_ok (Act.origin_of_some ho)).trans ?_
    rw [Handle.create_eq_map]
    refine answering_create (c := ⟨v, memory, false⟩) (fun r w => ?_) w
    rw [holdHandle_apply]
    cases r with
    | none => rfl
    | some a => rw [Handle.ofResult, isNull_ofAddress]; rfl
  | createForeign v =>
    cases hs
    cases ho
    show answering (Foreign.create setting.policy) (fun raw => holdHandle v (.ofRaw raw)) w = _
    rw [Foreign.create_eq_map, Handle.create_eq_map, ← comp_map]
    refine answering_create (c := ⟨v, .system, false⟩) (fun r w => ?_) w
    refine (holdHandle_apply v (Handle.ofResult r) w).trans ?_
    cases r with
    | none => rfl
    | some a => rw [Handle.ofResult, isNull_ofAddress]; rfl
  | _ => cases hs

/-! ### The other steps -/

/-- The world with one allocator more, under a name. -/
def World.withAllocator (w : World) (name : String) (plan : FailurePlan) : World :=
  { w with
    system.ledgers := w.system.ledgers ++ [{ plan }]
    allocators := w.allocators.set name w.system.ledgers.length }

theorem Step.run_allocator (name : String) (plan : FailurePlan) :
    (Step.allocator name plan).run setting w = .ok (.nothing, w.withAllocator name plan) := rfl

theorem Step.run_null (source : NullSource) :
    (Step.null v source).run setting w = .ok (.handle true, w.assigned v (.handle .null)) := by
  refine (holdHandle_apply v source.handle w).trans ?_
  rw [NullSource.handle_eq]
  rfl

theorem Step.run_copy {source : String} {k : Handle} (via : CopyVia)
    (h : w.vars.get? source = some (.handle k)) :
    (Step.copy v source via).run setting w =
      .ok (.handle k.isNull, w.assigned v (.handle k)) := by
  refine (Act.bind_of_ok (Act.handle_of_some h)).trans ?_
  rw [holdHandle_apply, CopyVia.copy_eq]

theorem Step.of_copy {source : String} {via : CopyVia} {answer : Answer} {w' : World}
    (h : (Step.copy v source via).run setting w = .ok (answer, w')) :
    ∃ k, w.vars.get? source = some (.handle k) ∧ answer = .handle k.isNull ∧
      w' = w.assigned v (.handle k) := by
  obtain ⟨k, hk⟩ := Need.exists_handle (Step.met_of_run h (List.mem_singleton.mpr rfl))
  cases (Step.run_copy via hk).symm.trans h
  exact ⟨k, hk, rfl, rfl⟩

theorem Step.run_compare {u : String} {k l : Handle} (hv : w.vars.get? v = some (.handle k))
    (hu : w.vars.get? u = some (.handle l)) :
    (Step.compare v u).run setting w =
      .ok (.comparison (k = l) (k ≠ l) (k.raw = l.raw) (hash k = hash l), w) :=
  (Act.bind_of_ok (Act.handle_of_some hv)).trans (Act.bind_of_ok (Act.handle_of_some hu))

theorem Step.run_isNull {k : Handle} (hv : w.vars.get? v = some (.handle k)) :
    (Step.isNull v).run setting w = .ok (.truth k.isNull, w) :=
  Act.bind_of_ok (Act.handle_of_some hv)

theorem Step.run_text (spec : Text.Spec) (hv : w.vars.get? v = some x) :
    (Step.text v spec).run setting w = .ok (.text ⟨x.tree (w.cell? v), spec⟩, w) :=
  Act.bind_of_ok (Act.lookup_of_some hv)

/-- The variables of an event go out of use, if there is an event. -/
def World.forgetAt (w : World) : Option Address → World
  | some a => w.forget a
  | none => w

theorem Step.run_delete (via : Via) (hv : w.vars.get? v = some x) :
    (Step.delete v via).run setting w =
      .ok (match (System.releaseAt x.address?).outcome w.system with
          | .ok () => .nothing
          | .error f => .fault f,
        ({ w with system := (System.releaseAt x.address?).after w.system }).forgetAt
          x.address?) := by
  refine (Act.bind_of_ok (Act.lookup_of_some hv)).trans ?_
  rw [Act.bind_of_ok (Act.perform_apply (x.delete via) w), Variable.delete_eq]
  rcases x.address? with _ | a
  · rfl
  · cases (System.releaseAt (some a)).outcome w.system <;> rfl

theorem Step.run_intoHandle {o : Owner} (hv : w.vars.get? v = some (.owner o)) :
    (Step.intoHandle v).run setting w =
      .ok (.handle false, { w with vars := w.vars.set v (.handle (.ofAddress o.address)) }) := by
  refine (Act.bind_of_ok (Act.owner_of_some hv)).trans ?_
  rw [← isNull_ofAddress o.address]
  rfl

theorem Step.run_intoOwner {k : Handle} (hv : w.vars.get? v = some (.handle k)) :
    (Step.intoOwner v).run setting w =
      .ok (match k.address? with
        | some a => (.owner, { w.forget a with vars := (w.forget a).vars.set v (.owner ⟨a⟩) })
        | none => (.noOwner, { w with vars := w.vars.erase v })) := by
  refine (Act.bind_of_ok (Act.handle_of_some hv)).trans ?_
  rw [Handle.intoOwner?]
  cases k.address? <;> rfl

end Steps

/-! ### What a step reads and fills -/

namespace Step

/-- The variables that a step reads. -/
def operands : Step → List String
  | .allocator _ _ | .armLog | .new _ _ | .create _ _ | .createForeign _ | .null _ _ => []
  | .copy _ source _ => [source]
  | .compare v w => [v, w]
  | .isNull v | .isSignaled v | .text v _ | .signal v _ | .wait v _ | .tryWait v
  | .waitTimeout v _ | .delete v _ | .intoHandle v | .intoOwner v => [v]

/-- The variable into which a step puts something new. -/
def target? : Step → Option String
  | .new v _ | .create v _ | .createForeign v | .null v _ | .copy v _ _ => some v
  | _ => none

/-- A creation fills the variable that it is about. -/
theorem target?_of_creation? {s : Step} {c : Creation} (h : s.creation? = some c) :
    s.target? = some c.target ∧ s.subject? = some c.target := by
  cases s with
  | new v memory | create v memory | createForeign v =>
    cases h
    exact ⟨rfl, rfl⟩
  | _ => cases h

end Step

/-! ### Steps that create nothing -/

/-- Is this a step that creates an event or sets up an allocator? -/
def Step.makes : Step → Bool
  | .allocator _ _ | .new _ _ | .create _ _ | .createForeign _ => true
  | _ => false

/-- **What a step does that creates nothing**, to the world that it is made in. -/
inductive Step.Change (setting : Setting) (w : World) : Step → World → Prop
  /-- It only looks. -/
  | look (s : Step) : Change setting w s w
  /-- It calls the event that a variable refers to. -/
  | call {s : Step} {v : String} {x : Variable} {y : Attempt System Answer}
    (hv : s.operands = [v]) (hx : w.vars.get? v = some x) (hy : s.call? setting x = some y) :
    Change setting w s { w with system := y.after w.system }
  /-- It takes a null handle. -/
  | null (v : String) (source : NullSource) :
    Change setting w (.null v source) (w.assigned v (.handle .null))
  /-- It copies a handle. -/
  | copy {v source : String} {k : Handle} (via : CopyVia)
    (hk : w.vars.get? source = some (.handle k)) :
    Change setting w (.copy v source via) (w.assigned v (.handle k))
  /-- It releases an event, if there is one. -/
  | delete {v : String} {x : Variable} (via : Via) (hx : w.vars.get? v = some x) :
    Change setting w (.delete v via)
      (({ w with system := (System.releaseAt x.address?).after w.system }).forgetAt x.address?)
  /-- It turns an owner into a handle. -/
  | intoHandle {v : String} {o : Owner} (ho : w.vars.get? v = some (.owner o)) :
    Change setting w (.intoHandle v)
      { w with vars := w.vars.set v (.handle (.ofAddress o.address)) }
  /-- It turns a handle into the owner. -/
  | intoOwner {v : String} {k : Handle} {a : Address} (hk : w.vars.get? v = some (.handle k))
    (ha : k.address? = some a) :
    Change setting w (.intoOwner v)
      { w.forget a with vars := (w.forget a).vars.set v (.owner ⟨a⟩) }
  /-- It turns the null handle into nothing. -/
  | intoNothing {v : String} (hk : w.vars.get? v = some (.handle .null)) :
    Change setting w (.intoOwner v) { w with vars := w.vars.erase v }

section Change

variable {setting : Setting} {w w' : World} {s : Step} {answer : Answer}

/-- A step that creates something sets up an allocator or creates an event. -/
theorem Step.of_makes (h : s.makes = true) :
    (∃ name plan, s = .allocator name plan) ∨ ∃ c, s.creation? = some c := by
  cases s with
  | allocator name plan => exact Or.inl ⟨name, plan, rfl⟩
  | new v memory | create v memory | createForeign v => exact Or.inr ⟨_, rfl⟩
  | _ => cases h

/-- **A step that creates nothing does one of these things.** -/
theorem Step.change_of_run (hs : s.makes = false) (harm : s ≠ .armLog)
    (hrun : s.run setting w = .ok (answer, w')) : s.Change setting w w' := by
  cases s with
  | allocator name plan | new v m | create v m | createForeign v => cases hs
  | armLog => exact absurd rfl harm
  | null v source =>
    cases (Step.run_null source).symm.trans hrun
    exact .null v source
  | copy v source via =>
    obtain ⟨k, hk, rfl, rfl⟩ := Step.of_copy hrun
    exact .copy via hk
  | compare v u =>
    obtain ⟨k, hk⟩ := Need.exists_handle (Step.met_of_run hrun List.mem_cons_self)
    obtain ⟨l, hl⟩ := Need.exists_handle
      (Step.met_of_run hrun (List.mem_cons_of_mem _ List.mem_cons_self))
    cases (Step.run_compare hk hl).symm.trans hrun
    exact .look _
  | isNull v =>
    obtain ⟨k, hk⟩ := Need.exists_handle (Step.met_of_run hrun List.mem_cons_self)
    cases (Step.run_isNull hk).symm.trans hrun
    exact .look _
  | text v spec =>
    obtain ⟨x, hx⟩ := Need.exists_variable (Step.met_of_run hrun List.mem_cons_self)
    cases (Step.run_text spec hx).symm.trans hrun
    exact .look _
  | isSignaled v | waitTimeout v timeout =>
    obtain ⟨o, ho⟩ := Need.exists_owner (Step.met_of_run hrun List.mem_cons_self)
    cases (Step.run_of_call rfl ho rfl).symm.trans hrun
    exact .call rfl ho rfl
  | signal v via | wait v via | tryWait v =>
    obtain ⟨x, hx⟩ := Need.exists_variable (Step.met_of_run hrun List.mem_cons_self)
    cases (Step.run_of_call rfl hx rfl).symm.trans hrun
    exact .call rfl hx rfl
  | delete v via =>
    obtain ⟨x, hx⟩ := Need.exists_variable (Step.met_of_run hrun List.mem_cons_self)
    cases (Step.run_delete via hx).symm.trans hrun
    exact .delete via hx
  | intoHandle v =>
    obtain ⟨o, ho⟩ := Need.exists_owner (Step.met_of_run hrun List.mem_cons_self)
    cases (Step.run_intoHandle ho).symm.trans hrun
    exact .intoHandle ho
  | intoOwner v =>
    obtain ⟨k, hk⟩ := Need.exists_handle (Step.met_of_run hrun List.mem_cons_self)
    have hstep := (Step.run_intoOwner hk).symm.trans hrun
    cases ha : k.address? with
    | none =>
      rw [ha] at hstep
      cases hstep
      rw [Handle.address?_eq_none_iff.mp ha] at hk
      exact .intoNothing hk
    | some a =>
      rw [ha] at hstep
      cases hstep
      exact .intoOwner hk ha

end Change

/-! ### Reading variables back -/

/-- A world in which each variable stands for one event at a time. -/
def World.Distinct (w : World) : Prop := w.vars.rows.Pairwise fun r s => r.1 ≠ s.1

theorem World.Keeps.distinct {w : World} {ds : List Deed} (h : w.Keeps ds) : w.Distinct :=
  h.apart.imp fun hrs => hrs.1

namespace World

variable (w : World) {v u : String} {x : Variable}

@[simp] theorem get?_assigned_self (v : String) (x : Variable) :
    (w.assigned v x).vars.get? v = some x :=
  Table.get?_set_self ..

theorem get?_assigned_of_ne (x : Variable) (h : u ≠ v) :
    (w.assigned v x).vars.get? u = w.vars.get? u :=
  Table.get?_set_of_ne _ _ h

@[simp] theorem allocators_hold (v : String) (x : Option Variable) :
    (w.hold v x).allocators = w.allocators := by
  cases x <;> rfl

variable {w}

/-- A variable is what it was if nothing was put there. -/
theorem get?_hold_of_unfilled {x : Option Variable} (h : (x.map fun _ => v) ≠ some u) :
    (w.hold v x).vars.get? u = w.vars.get? u := by
  cases x with
  | none => rfl
  | some x => exact w.get?_assigned_of_ne x fun hu => h (congrArg some hu.symm)

/-- A variable into which something was put refers to the event that was created. -/
theorem address?_hold {c : Creation} {r : Option Address} (h : (c.held r).isSome) :
    (w.hold c.target (c.held r)).address? c.target = r := by
  obtain ⟨x, hx⟩ := Option.isSome_iff_exists.mp h
  rw [hx]
  exact (address?_eq (w.get?_assigned_self ..)).trans (Creation.address?_of_held hx)

theorem system_hold_of_owned?_eq_none (h : w.owned? v = none) (x : Option Variable) :
    (w.hold v x).system = w.system := by
  cases x with
  | none => rfl
  | some x => exact displaced_of_owned?_eq_none h x

/-- A variable is in use after an event was forgotten if it refers to another event, or to
none. -/
theorem get?_forget (h : w.Distinct) (a : Address) (v : String) :
    (w.forget a).vars.get? v = (w.vars.get? v).filter fun x => x.address? ≠ some a :=
  Table.get?_keep h _ v

/-- A variable refers to nothing any more when its event is forgotten. -/
theorem address?_forgetAt (h : w.Distinct) (hx : w.vars.get? v = some x) {s : System} :
    (({ w with system := s } : World).forgetAt x.address?).address? v = none := by
  cases ha : x.address? with
  | none => exact (address?_eq hx).trans ha
  | some a =>
    have hgone : (w.forget a).vars.get? v = none := by
      rw [get?_forget h, hx, Option.filter_some, ha]
      simp
    exact congrArg (Option.bind · Variable.address?) hgone

/-- What is still in use is what was in use before. -/
theorem of_get?_forget (h : w.Distinct) {a : Address} (hx : (w.forget a).vars.get? v = some x) :
    w.vars.get? v = some x := by
  rw [get?_forget h] at hx
  exact (Option.filter_eq_some_iff.mp hx).1

/-- What is still in use refers to another event, or to none. -/
theorem ne_of_get?_forget (h : w.Distinct) {a : Address}
    (hx : (w.forget a).vars.get? v = some x) : x.address? ≠ some a := by
  rw [get?_forget h] at hx
  exact of_decide_eq_true (Option.filter_eq_some_iff.mp hx).2

/-- What refers to another event, or to none, stays in use. -/
theorem get?_forgetAt_of_ne (h : w.Distinct) (hx : w.vars.get? v = some x) {s : System}
    {b : Option Address} (hne : ∀ a, b = some a → x.address? ≠ some a) :
    (({ w with system := s } : World).forgetAt b).vars.get? v = some x := by
  cases b with
  | none => exact hx
  | some a =>
    show (w.forget a).vars.get? v = _
    rw [get?_forget h, hx, Option.filter_some, if_pos (by simpa using hne a rfl)]

end World

section Frame

variable {setting : Setting} {w w' : World} {s : Step} {answer : Answer} {v : String}
  {x : Variable}

/-- **A step leaves a variable as it is** that it does not fill and that refers to another event
than those it reads; unless it takes the null handle out of use. -/
theorem Step.get?_of_run (hw : w.Distinct) (hrun : s.run setting w = .ok (answer, w'))
    (hx : w.vars.get? v = some x) (htarget : s.target? ≠ some v)
    (hother : ∀ u ∈ s.operands, ∀ a, w.address? u = some a → x.address? ≠ some a)
    (howner : s ≠ .intoOwner v) : w'.vars.get? v = some x := by
  have hassigned : ∀ {u y}, s.target? = some u → (w.assigned u y).vars.get? v = some x := by
    intro u y hu
    have hne : v ≠ u := fun hvu => htarget (hu.trans (congrArg some hvu.symm))
    exact (w.get?_assigned_of_ne y hne).trans hx
  by_cases hs : s.makes = true
  · rcases Step.of_makes hs with ⟨name, plan, rfl⟩ | ⟨c, hc⟩
    · cases hrun
      exact hx
    · obtain ⟨o, ho⟩ := Step.exists_origin hc hrun
      have hstep := (Step.run_of_creation hc ho).symm.trans hrun
      rw [(target?_of_creation? hc).1] at htarget
      cases hout : (System.create setting.policy o).outcome w.system with
      | ok r =>
        rw [hout] at hstep
        cases hstep
        have hunfilled : ((c.held r).map fun _ => c.target) ≠ some v := by
          cases c.held r with
          | none => exact nofun
          | some y => exact htarget
        exact (World.get?_hold_of_unfilled hunfilled).trans hx
      | error f =>
        rw [hout] at hstep
        cases hstep
        exact hx
  · by_cases harm : s = .armLog
    · subst harm
      cases hrun
      exact hx
    · cases Step.change_of_run ((Bool.not_eq_true _).mp hs) harm hrun with
      | look | call _ _ _ => exact hx
      | null u source => exact hassigned rfl
      | copy via hk => exact hassigned rfl
      | delete via hy =>
        exact World.get?_forgetAt_of_ne hw hx fun a ha =>
          hother _ List.mem_cons_self a ((World.address?_eq hy).trans ha)
      | @intoHandle u o ho =>
        have hne : v ≠ u := by
          rintro rfl
          cases ho.symm.trans hx
          exact hother v List.mem_cons_self o.address (World.address?_eq ho) rfl
        exact (Table.get?_set_of_ne _ _ hne).trans hx
      | @intoOwner u k a hk ha =>
        have hne : v ≠ u := fun h => howner (congrArg Step.intoOwner h.symm)
        have hkept : (w.forget a).vars.get? v = some x :=
          World.get?_forgetAt_of_ne (s := w.system) (b := some a) hw hx fun b hb =>
            hother u List.mem_cons_self b ((World.address?_eq hk).trans (ha.trans hb))
        exact (Table.get?_set_of_ne _ _ hne).trans hkept
      | @intoNothing u hk =>
        have hne : v ≠ u := fun h => howner (congrArg Step.intoOwner h.symm)
        exact (Table.get?_erase_of_ne _ hne).trans hx

end Frame

/-! ### Reports -/

/-- What is reported of a step with this answer that led from one world to another. -/
def Report.between (s : Step) (answer : Answer) (w w' : World) : Report where
  answer
  view := (s.subject?.bind w'.cell?).map View.ofCell
  ledgers := w'.ledgers
  log := w'.system.logger.records.drop w.system.logger.records.length

section Reports

variable {setting : Setting} {w w' : World} {s : Step} {steps : List Step} {answer : Answer}

theorem Step.report_of_run (h : s.run setting w = .ok (answer, w')) :
    s.report setting w = .ok (.between s answer w w', w') := by
  rw [Step.report, Act.get_bind, Act.bind_of_ok h]
  rfl

theorem reports_cons (h : s.run setting w = .ok (answer, w')) {rs : List Report} {w'' : World}
    (hrest : reports setting steps w' = .ok (rs, w'')) :
    reports setting (s :: steps) w = .ok (.between s answer w w' :: rs, w'') := by
  rw [reports, Act.bind_of_ok (Step.report_of_run h), Act.bind_of_ok hrest]
  rfl

/-- A script that ran to its end made its first step, and then the others. -/
theorem exists_of_reports_cons {rs : List Report} {w'' : World}
    (h : reports setting (s :: steps) w = .ok (rs, w'')) :
    ∃ answer w' rs', s.run setting w = .ok (answer, w') ∧
      reports setting steps w' = .ok (rs', w'') ∧ rs = .between s answer w w' :: rs' := by
  obtain ⟨r, w₁, hreport, hrest⟩ := Act.bind_eq_ok.mp h
  obtain ⟨rs', w₂, hsteps, hok⟩ := Act.bind_eq_ok.mp hrest
  cases hok
  have hrun := of_report hreport
  obtain ⟨hr, -⟩ := Prod.mk.inj (Except.ok.inj (hreport.symm.trans (Step.report_of_run hrun)))
  exact ⟨r.answer, w₁, rs', hrun, hsteps, by rw [← hr]⟩

/-- A script that ran to its end can be cut in two. -/
theorem exists_of_reports_append {before : List Step} {rs : List Report} {w'' : World}
    (h : reports setting (before ++ steps) w = .ok (rs, w'')) :
    ∃ rs₁ w₁ rs₂, reports setting before w = .ok (rs₁, w₁) ∧
      reports setting steps w₁ = .ok (rs₂, w'') ∧ rs = rs₁ ++ rs₂ := by
  induction before generalizing w rs with
  | nil => exact ⟨[], w, rs, rfl, h, rfl⟩
  | cons s before ih =>
    obtain ⟨answer, w', rs', hrun, hrest, rfl⟩ := exists_of_reports_cons h
    obtain ⟨rs₁, w₁, rs₂, hbefore, hsteps, rfl⟩ := ih hrest
    exact ⟨_, w₁, rs₂, reports_cons hrun hbefore, hsteps, rfl⟩

end Reports

end Script

end AutoReset
