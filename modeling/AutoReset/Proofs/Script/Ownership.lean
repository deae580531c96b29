import AutoReset.Proofs.Event.Tenancy
import AutoReset.Proofs.Script.Contract
import Mathlib.Data.List.Pairwise
/-!
# Every event goes back once, to where it came from

What a script does about the memory of events is read off its steps: a creation asks the
origin that it names, a deletion releases an event, and so does whatever is put over an
owner (`AutoReset.Script.Step.deeds`). Copies and conversions do nothing. At the end of the
script the owners that are left release their events.

The system settles these deeds at every point of every script that makes sense
(`AutoReset.Script.released_once`), with any number of allocators, whichever of their
requests fail, and with a log sink that fails at any record. An event whose creation ends in
such a fault is nobody's, and stays.

The invariant over the steps is `AutoReset.Script.World.Keeps`. The system accounts for the
deeds, and names and events fit together: what a variable refers to is there, and nothing
else refers to the event of an owner. So nothing is released twice, and when a handle turns
into the owner or an event is deleted, no variable is left behind.
-/

namespace AutoReset

theorem Table.mem_of_get? {α : Type} {t : Table α} {name : String} {x : α}
    (h : t.get? name = some x) : (name, x) ∈ t.rows := by
  obtain ⟨l₁, l₂, hl, -⟩ := List.lookup_eq_some_iff.mp h
  rw [hl]
  exact List.mem_append_right _ List.mem_cons_self

namespace Script

/-! ### What the steps of a script do about memory -/

namespace World

/-- The event of an owner that the variable holds is released when something else is put
there. -/
def dropped (w : World) (v : String) : List Deed :=
  match w.vars.get? v with
  | some (.owner o) => [.released o.address]
  | _ => []

/-- The event that the variable refers to is released. -/
def deleted (w : World) (v : String) : List Deed :=
  (((w.vars.get? v).bind Variable.address?).map Deed.released).toList

/-- An event is created with memory from this source. -/
def sought (policy : Placement) (w : World) (memory : Source) : List Deed :=
  ((w.origin? memory).map fun o => .created o (w.system.askMemory policy o).1).toList

end World

/-- Was something put into the variable of the step? -/
def Answer.holds : Answer → Bool
  | .ok | .handle _ => true
  | _ => false

/-- **What a step does about memory**, newest deed first: a creation asks its origin, a
deletion releases the event of its variable, and whatever is put over an owner releases the
event of that one. All other steps do nothing, and a conversion does nothing either. -/
def Step.deeds (policy : Placement) (w : World) (answer : Answer) : Step → List Deed
  | .new v memory | .create v memory =>
    (if answer.holds then w.dropped v else []) ++ w.sought policy memory
  | .createForeign v => (if answer.holds then w.dropped v else []) ++ w.sought policy .system
  | .null v _ | .copy v _ _ => w.dropped v
  | .delete v _ => w.deleted v
  | _ => []

/-- What a script does about memory, newest deed first. -/
def deeds (setting : Setting) : List Step → World → List Deed
  | [], _ => []
  | s :: steps, w =>
    match s.run setting w with
    | .ok (answer, w') => deeds setting steps w' ++ s.deeds setting.policy w answer
    | .error _ => []

/-! ### Who refers to what -/

/-- The event that is released with the variable. -/
def Variable.owned? : Variable → Option Address
  | .owner o => some o.address
  | .handle _ => none

/-- Does neither of two variables own what the other refers to? -/
def Variable.Apart (x y : Variable) : Prop :=
  ∀ a, (x.owned? = some a → y.address? ≠ some a) ∧ (y.owned? = some a → x.address? ≠ some a)

namespace Variable

variable {x y : Variable} {a : Address}

theorem Apart.symm (h : x.Apart y) : y.Apart x := fun a => (h a).symm

theorem address?_of_owned? (h : x.owned? = some a) : x.address? = some a := by
  cases x with
  | owner o => exact h
  | handle k => cases h

/-- Two variables that refer to different events are apart. -/
theorem Apart.of_ne (h : ∀ a, x.address? = some a → y.address? ≠ some a) : x.Apart y :=
  fun a => ⟨fun hx => h a (address?_of_owned? hx), fun hy hx => h a hx (address?_of_owned? hy)⟩

end Variable

/-- Have two rows of variables different names, and is none the owner of what the other
refers to? -/
def RowsApart (r s : String × Variable) : Prop := r.1 ≠ s.1 ∧ r.2.Apart s.2

instance : Std.Symm RowsApart := ⟨fun _ _ h => ⟨h.1.symm, h.2.symm⟩⟩

/-- **A script keeps an account of its events**: the system accounts for its deeds, what a
variable refers to is there, and an owner has its event to itself. -/
structure World.Keeps (w : World) (ds : List Deed) : Prop where
  accounts : w.system.Accounts ds
  allocators : ∀ row ∈ w.allocators.rows, row.2 < w.system.ledgers.length
  present : ∀ row ∈ w.vars.rows, ∀ a, row.2.address? = some a →
    a ∈ (Deed.left ds).map Prod.snd
  apart : w.vars.rows.Pairwise RowsApart

namespace World.Keeps

variable {w w' : World} {ds : List Deed} {v : String} {x : Variable} {a : Address}

theorem address_mem (h : w.Keeps ds) (hx : w.vars.get? v = some x) (ha : x.address? = some a) :
    a ∈ (Deed.left ds).map Prod.snd :=
  h.present _ (Table.mem_of_get? hx) a ha

/-- A variable is apart from every other. -/
theorem rowsApart (h : w.Keeps ds) (hx : w.vars.get? v = some x) {row : String × Variable}
    (hrow : row ∈ w.vars.rows) (hne : row ≠ (v, x)) : RowsApart (v, x) row :=
  h.apart.forall (Table.mem_of_get? hx) hrow hne.symm

theorem apart_of_name (h : w.Keeps ds) (hx : w.vars.get? v = some x) {row : String × Variable}
    (hrow : row ∈ w.vars.rows) (hname : row.1 ≠ v) : x.Apart row.2 :=
  (h.rowsApart hx hrow fun hrows => hname (congrArg Prod.fst hrows)).2

/-- What leaves the tenants as they are leaves the account as it is. -/
theorem of_tenants (h : w.Keeps ds) {s : System} (hs : s.tenants = w.system.tenants) :
    ({ w with system := s } : World).Keeps ds where
  accounts := h.accounts.of_tenants hs
  allocators := by
    have hledgers : s.ledgers = w.system.ledgers := congrArg (fun t => t.2.1) hs
    rw [hledgers]
    exact h.allocators
  present := h.present
  apart := h.apart

/-- Variables can go out of use. -/
theorem of_sublist (h : w.Keeps ds) {vars : Table Variable}
    (hvars : vars.rows.Sublist w.vars.rows) : ({ w with vars } : World).Keeps ds where
  accounts := h.accounts
  allocators := h.allocators
  present := fun row hrow => h.present row (hvars.subset hrow)
  apart := h.apart.sublist hvars

/-- A variable can hold what refers to an event that is there and belongs to no other. -/
theorem set (h : w.Keeps ds) (hx : ∀ a, x.address? = some a → a ∈ (Deed.left ds).map Prod.snd)
    (hapart : ∀ row ∈ w.vars.rows, row.1 ≠ v → x.Apart row.2) :
    ({ w with vars := w.vars.set v x } : World).Keeps ds where
  accounts := h.accounts
  allocators := h.allocators
  present := by
    intro row hrow
    rcases List.mem_cons.mp hrow with rfl | hrow
    · exact hx
    · exact h.present row (List.mem_filter.mp hrow).1
  apart := by
    refine List.pairwise_cons.mpr ⟨fun row hrow => ?_, h.apart.sublist List.filter_sublist⟩
    obtain ⟨hrow, hne⟩ := List.mem_filter.mp hrow
    have hne : row.1 ≠ v := by simpa using hne
    exact ⟨hne.symm, hapart row hrow hne⟩

/-- An event that no variable refers to any more can be released. -/
theorem release (h : w.Keeps ds) (ha : a ∈ (Deed.left ds).map Prod.snd)
    (hfree : ∀ row ∈ w.vars.rows, row.2.address? ≠ some a) :
    ({ w with system := (System.release a).after w.system } : World).Keeps (.released a :: ds) := by
  constructor
  case accounts => exact h.accounts.release ha
  case allocators =>
    intro row hrow
    exact Nat.lt_of_lt_of_eq (h.allocators row hrow) (System.ledgerCount_release a w.system).symm
  case present =>
    intro row hrow b hb
    obtain ⟨e, he, rfl⟩ := List.mem_map.mp (h.present row hrow b hb)
    have hne : e.2 ≠ a := fun hea => hfree row hrow (hea ▸ hb)
    exact List.mem_map_of_mem (List.mem_filter.mpr ⟨he, decide_eq_true hne⟩)
  case apart => exact h.apart

/-- An allocator that has a name was set up. -/
theorem known (h : w.Keeps ds) {memory : Source} {o : Origin} (ho : w.origin? memory = some o) :
    ∀ k, o = .ledger k → k < w.system.ledgers.length := by
  rintro k rfl
  cases memory with
  | system => cases ho
  | named name =>
    obtain ⟨number, hnumber, hk⟩ := Option.map_eq_some_iff.mp ho
    cases hk
    exact h.allocators _ (Table.mem_of_get? hnumber)

/-- **An event can be created**, with memory from an origin that has a name. -/
theorem create (h : w.Keeps ds) (policy : Placement) {memory : Source} {o : Origin}
    (ho : w.origin? memory = some o) :
    ({ w with system := (System.create policy o).after w.system } : World).Keeps
      (.created o (w.system.askMemory policy o).1 :: ds) := by
  constructor
  case accounts => exact h.accounts.create policy (h.known ho)
  case allocators =>
    intro row hrow
    exact Nat.lt_of_lt_of_eq (h.allocators row hrow)
      (System.ledgerCount_create policy o w.system).symm
  case present =>
    intro row hrow b hb
    have hmem := h.present row hrow b hb
    simp only [Deed.left, List.map_append, List.mem_append]
    exact Or.inr hmem
  case apart => exact h.apart

/-- **What is put into a variable** takes the event of an owner that was there away, and of
nobody else. -/
theorem assign (h : w.Keeps ds) (hx : ∀ a, x.address? = some a → a ∈ (Deed.left ds).map Prod.snd)
    (hapart : ∀ row ∈ w.vars.rows, x.Apart row.2) (hrun : Act.assign v x w = .ok ((), w')) :
    w'.Keeps (w.dropped v ++ ds) := by
  have hset := h.set (v := v) hx fun row hrow _ => hapart row hrow
  obtain ⟨_, _, hget, hrun⟩ := Act.bind_eq_ok.mp hrun
  cases hget
  obtain ⟨_, _, hmodify, hrun⟩ := Act.bind_eq_ok.mp hrun
  cases hmodify
  cases hv : w.vars.get? v with
  | none =>
    rw [hv] at hrun
    cases hrun
    simpa [dropped, hv] using hset
  | some y =>
    rw [hv] at hrun
    cases y with
    | handle k =>
      cases hrun
      simpa [dropped, hv] using hset
    | owner o =>
      -- nothing that is put here refers to the event of the owner
      have hne : x.address? ≠ some o.address :=
        (hapart _ (Table.mem_of_get? hv) o.address).2 rfl
      have ho := h.address_mem hv rfl
      have hfree : ∀ row ∈ (w.vars.set v x).rows, row.2.address? ≠ some o.address := by
        intro row hrow
        rcases List.mem_cons.mp hrow with rfl | hrow
        · exact hne
        · obtain ⟨hrow, hname⟩ := List.mem_filter.mp hrow
          exact (h.apart_of_name hv hrow (by simpa using hname) o.address).1 rfl
      have hdropped : w.dropped v = [.released o.address] := by rw [dropped, hv]
      rw [hdropped]
      simp only [if_pos hne] at hrun
      obtain ⟨_, _, hdrop, hrun⟩ := Act.bind_eq_ok.mp hrun
      rw [Act.perform_apply] at hdrop
      cases hdrop
      cases hrun
      exact hset.release ho hfree

/-- **A creation is accounted for**, with what becomes of the event: if it is put into a
variable, an owner that was there goes away; after a fault nobody has it. -/
theorem of_creating {β : Type} (h : w.Keeps ds) {policy : Placement} {memory : Source}
    {o : Origin} (ho : w.origin? memory = some o) {f : Option Address → β}
    {k : β → Act Answer} {answer : Answer}
    (hrun : answering (f <$> System.create policy o) k w = .ok (answer, w'))
    (hk : ∀ r w₁, k (f r) w₁ = .ok (answer, w') →
      (answer.holds = true ∧ ∃ x : Variable, x.address? = r ∧ Act.assign v x w₁ = .ok ((), w')) ∨
      (answer.holds = false ∧ w' = w₁)) :
    w'.Keeps ((if answer.holds then w.dropped v else []) ++ w.sought policy memory ++ ds) := by
  have hcreate := h.create policy ho
  have hsought : w.sought policy memory = [.created o (w.system.askMemory policy o).1] := by
    simp [sought, ho]
  rw [hsought, List.append_assoc]
  rcases of_answering hrun with ⟨c, hc, hrest⟩ | ⟨e, -, rfl, rfl⟩
  · rw [Attempt.after_map] at hrest
    obtain ⟨r, hr, rfl⟩ := Attempt.of_outcome_map hc
    have hwhere := System.Accounts.eq_of_create policy hr
    rcases hk r _ hrest with ⟨hholds, x, hx, hassign⟩ | ⟨hholds, rfl⟩
    · rw [hholds, if_pos rfl]
      -- the event is new, so no variable refers to it
      refine hcreate.assign (fun a ha => ?_) (fun row hrow => .of_ne fun a ha hrowa => ?_) hassign
      · simp [Deed.left, ← hwhere, ← hx, ha]
      · exact hcreate.accounts.fair.1 a (hwhere ▸ hx ▸ ha) (h.present row hrow a hrowa)
    · rw [hholds]
      exact hcreate
  · rw [Attempt.after_map]
    exact hcreate

end World.Keeps

/-! ### Parts that leave every account as it is -/

/-- Does a part of a script leave every account as it is? -/
def Act.Neutral {α : Type} (x : Act α) : Prop :=
  ∀ ⦃w : World⦄ ⦃r : α⦄ ⦃w' : World⦄ ⦃ds : List Deed⦄, x w = .ok (r, w') → w.Keeps ds → w'.Keeps ds

namespace Act

variable {α β : Type}

theorem Neutral.pure (a : α) : Neutral (pure a : Act α) := by
  intro w r w' ds hrun h
  cases hrun
  exact h

theorem Neutral.get : Neutral (get : Act World) := by
  intro w r w' ds hrun h
  cases hrun
  exact h

theorem Neutral.bind {x : Act α} {f : α → Act β} (hx : Neutral x) (hf : ∀ a, Neutral (f a)) :
    Neutral (x >>= f) := by
  intro w r w' ds hrun h
  obtain ⟨a, w₁, hfirst, hrest⟩ := bind_eq_ok.mp hrun
  exact hf a hrest (hx hfirst h)

theorem neutral_lookup (v : String) : Neutral (lookup v) := by
  intro w r w' ds hrun h
  obtain ⟨rfl, -⟩ := of_lookup hrun
  exact h

theorem neutral_owner (v : String) : Neutral (owner v) := by
  intro w r w' ds hrun h
  obtain ⟨rfl, -⟩ := of_owner hrun
  exact h

theorem neutral_handle (v : String) : Neutral (handle v) := by
  intro w r w' ds hrun h
  obtain ⟨rfl, -⟩ := of_handle hrun
  exact h

end Act

/-- **Calls on events leave every account as it is.** -/
theorem neutral_answering {α : Type} {y : Attempt System α} (k : α → Answer)
    (hy : Attempt.Leaves System.tenants y) : Act.Neutral (answering y fun a => pure (k a)) := by
  intro w r w' ds hrun h
  rcases of_answering hrun with ⟨a, -, hk⟩ | ⟨f, -, -, rfl⟩
  · cases hk
    exact h.of_tenants (hy _)
  · exact h.of_tenants (hy _)

/-! ### One step -/

namespace World.Keeps

variable {w w' : World} {ds : List Deed} {v : String} {setting : Setting} {answer : Answer}

theorem of_allocator (h : w.Keeps ds) {name : String} {plan : FailurePlan}
    (hrun : Step.run setting (.allocator name plan) w = .ok (answer, w')) : w'.Keeps ds := by
  rcases of_answering hrun with ⟨number, hnumber, hset⟩ | ⟨f, hfault, -⟩
  · cases hnumber
    cases hset
    constructor
    case accounts => exact h.accounts.setUp plan
    case allocators =>
      intro row hrow
      show row.2 < (w.system.ledgers ++ [_]).length
      rw [List.length_append, List.length_singleton, Nat.lt_succ_iff]
      rcases List.mem_cons.mp hrow with rfl | hrow
      · exact Nat.le_refl _
      · exact Nat.le_of_lt (h.allocators row (List.mem_filter.mp hrow).1)
    case present => exact h.present
    case apart => exact h.apart
  · cases hfault

/-- A copy refers to the event of another handle, so no owner has it. -/
theorem of_copy (h : w.Keeps ds) {source : String} {via : CopyVia}
    (hrun : Step.run setting (.copy v source via) w = .ok (answer, w')) :
    w'.Keeps (w.dropped v ++ ds) := by
  obtain ⟨k, w₁, hsource, hcopy⟩ := Act.bind_eq_ok.mp hrun
  obtain ⟨rfl, hk⟩ := Act.of_handle hsource
  obtain ⟨-, hassign⟩ := of_holdHandle hcopy
  have hvia : via.copy k = k := by cases via <;> rfl
  rw [hvia] at hassign
  refine h.assign (fun a ha => h.address_mem hk ha) (fun row hrow => ?_) hassign
  by_cases hrows : row = (source, .handle k)
  · subst hrows
    exact fun a => ⟨nofun, nofun⟩
  · exact (h.rowsApart hk hrow hrows).2

/-- **A deletion** releases the event, and takes every variable that refers to it out of
use; it does so even if it ends in a fault. -/
theorem of_delete (h : w.Keeps ds) {via : Via}
    (hrun : Step.run setting (.delete v via) w = .ok (answer, w')) :
    w'.Keeps (w.deleted v ++ ds) := by
  obtain ⟨x, w₁, hv, hrest⟩ := Act.bind_eq_ok.mp hrun
  obtain ⟨rfl, hx⟩ := Act.of_lookup hv
  obtain ⟨outcome, w₂, hperform, hrest⟩ := Act.bind_eq_ok.mp hrest
  rw [Act.perform_apply] at hperform
  cases hperform
  -- the answer is all that depends on how the release ended
  cases ha : x.address? with
  | none =>
    rw [ha] at hrest
    have hw : w' = { w with system := (x.delete via).after w.system } := by
      cases hend : (x.delete via).outcome w.system <;> rw [hend] at hrest <;> cases hrest <;> rfl
    have hdeeds : w.deleted v = [] := by simp [deleted, hx, ha]
    rw [hw, hdeeds, Variable.delete_of_none via ha]
    exact h
  | some a =>
    rw [ha] at hrest
    obtain ⟨_, w₂, hforget, hout⟩ := Act.bind_eq_ok.mp hrest
    cases hforget
    have hw : w' = { w.forget a with system := (x.delete via).after w.system } := by
      cases hend : (x.delete via).outcome w.system <;> rw [hend] at hout <;> cases hout <;> rfl
    have hdeeds : w.deleted v = [.released a] := by simp [deleted, hx, ha]
    rw [hw, hdeeds, Variable.delete_of_some via ha]
    have hforgotten : (w.forget a).Keeps ds := h.of_sublist List.filter_sublist
    exact hforgotten.release (h.address_mem hx ha) fun row hrow =>
      of_decide_eq_true (List.mem_filter.mp hrow).2

/-- **An owner that turns into a handle** leaves its event where it is. -/
theorem of_intoHandle (h : w.Keeps ds)
    (hrun : Step.run setting (.intoHandle v) w = .ok (answer, w')) : w'.Keeps ds := by
  obtain ⟨o, w₁, hv, hrest⟩ := Act.bind_eq_ok.mp hrun
  obtain ⟨rfl, ho⟩ := Act.of_owner hv
  obtain ⟨_, w₂, hset, hok⟩ := Act.bind_eq_ok.mp hrest
  cases hset
  cases hok
  have haddress : (Variable.handle o.intoHandle).address? = some o.address :=
    Handle.address?_ofAddress o.address
  refine h.set (fun a ha => ?_) fun row hrow hname a => ⟨nofun, fun hrowa => ?_⟩
  · rw [haddress] at ha
    exact h.address_mem ho ha
  · rw [haddress]
    exact (h.apart_of_name ho hrow hname a).2 hrowa

/-- **A handle that turns into the owner** leaves its event where it is, and takes the other
handles of the event out of use. -/
theorem of_intoOwner (h : w.Keeps ds)
    (hrun : Step.run setting (.intoOwner v) w = .ok (answer, w')) : w'.Keeps ds := by
  obtain ⟨k, w₁, hv, hrest⟩ := Act.bind_eq_ok.mp hrun
  obtain ⟨rfl, hk⟩ := Act.of_handle hv
  cases ho : k.intoOwner? with
  | none =>
    rw [ho] at hrest
    cases hrest
    exact h.of_sublist List.filter_sublist
  | some o =>
    rw [ho] at hrest
    cases hrest
    obtain ⟨a, ha, rfl⟩ := Option.map_eq_some_iff.mp ho
    have hforgotten : (w.forget a).Keeps ds := h.of_sublist List.filter_sublist
    refine hforgotten.set (fun b hb => ?_) fun row hrow _ => .of_ne fun b hb hrowb => ?_
    · cases hb
      exact h.address_mem hk ha
    · -- no other variable refers to the event any more
      cases hb
      exact of_decide_eq_true (List.mem_filter.mp hrow).2 hrowb

/-- **The account is kept over one step.** -/
theorem step (h : w.Keeps ds) {s : Step} (hrun : s.run setting w = .ok (answer, w')) :
    w'.Keeps (s.deeds setting.policy w answer ++ ds) := by
  cases s with
  | allocator name plan => exact h.of_allocator hrun
  | armLog =>
    cases hrun
    exact h.of_tenants rfl
  | new v memory =>
    obtain ⟨o, w₁, horigin, hnew⟩ := Act.bind_eq_ok.mp hrun
    obtain ⟨rfl, ho⟩ := Act.of_origin horigin
    rw [Owner.create_eq_map] at hnew
    refine h.of_creating ho hnew fun r w₂ hrest => ?_
    rcases r with _ | a
    · cases hrest
      exact Or.inr ⟨rfl, rfl⟩
    · obtain ⟨_, w₃, hassign, hok⟩ := Act.bind_eq_ok.mp hrest
      cases hok
      exact Or.inl ⟨rfl, .owner ⟨a⟩, rfl, hassign⟩
  | create v memory =>
    obtain ⟨o, w₁, horigin, hnew⟩ := Act.bind_eq_ok.mp hrun
    obtain ⟨rfl, ho⟩ := Act.of_origin horigin
    rw [Handle.create_eq_map] at hnew
    refine h.of_creating ho hnew fun r w₂ hrest => ?_
    obtain ⟨rfl, hassign⟩ := of_holdHandle hrest
    exact Or.inl ⟨rfl, .handle (.ofResult r), Handle.address?_ofResult r, hassign⟩
  | createForeign v =>
    have hnew : answering (Foreign.create setting.policy)
      (fun raw => holdHandle v (.ofRaw raw)) w = .ok (answer, w') := hrun
    rw [Foreign.create_eq_map, Handle.create_eq_map, ← comp_map] at hnew
    have horigin : w.origin? .system = some .system := rfl
    refine h.of_creating horigin hnew fun r w₂ hrest => ?_
    obtain ⟨rfl, hassign⟩ := of_holdHandle hrest
    exact Or.inl ⟨rfl, .handle (.ofResult r), Handle.address?_ofResult r, hassign⟩
  | null v source =>
    obtain ⟨-, hassign⟩ := of_holdHandle hrun
    have hnull : (Variable.handle source.handle).address? = none := by cases source <;> rfl
    refine h.assign (fun a ha => ?_) (fun row _ => .of_ne fun a ha => ?_) hassign
    · rw [hnull] at ha
      cases ha
    · rw [hnull] at ha
      cases ha
  | copy v source via => exact h.of_copy hrun
  | compare v u =>
    exact (Act.neutral_handle v).bind (fun a => (Act.neutral_handle u).bind fun b => .pure _)
      hrun h
  | isNull v => exact (Act.neutral_handle v).bind (fun k => .pure _) hrun h
  | text v spec =>
    exact (Act.neutral_lookup v).bind (fun x => Act.Neutral.get.bind fun w => .pure _) hrun h
  | isSignaled v =>
    exact (Act.neutral_owner v).bind (fun o => neutral_answering _ (System.tenants_run _ _)) hrun h
  | signal v via | wait v via | tryWait v =>
    exact (Act.neutral_lookup v).bind (fun x => neutral_answering _ (System.tenants_run _ _))
      hrun h
  | waitTimeout v timeout =>
    exact (Act.neutral_owner v).bind
      (fun o => neutral_answering _ (System.tenants_waitPatiently _ _ _ _)) hrun h
  | delete v via => exact h.of_delete hrun
  | intoHandle v => exact h.of_intoHandle hrun
  | intoOwner v => exact h.of_intoOwner hrun

end World.Keeps

/-! ### Whole scripts -/

theorem World.keeps_start (limit : Option Level) : (World.start limit).Keeps [] where
  accounts := System.Accounts.of_empty.of_tenants rfl
  allocators := nofun
  present := nofun
  apart := List.Pairwise.nil

section Runs

variable {setting : Setting} {w w' : World} {ds : List Deed}

/-- **The account is kept over a whole script.** -/
theorem World.Keeps.run (h : w.Keeps ds) {steps : List Step} {rs : List Report}
    (hrun : reports setting steps w = .ok (rs, w')) :
    w'.Keeps (deeds setting steps w ++ ds) := by
  induction steps generalizing w ds rs with
  | nil =>
    cases hrun
    exact h
  | cons s steps ih =>
    obtain ⟨r, w₁, hreport, hrest⟩ := Act.bind_eq_ok.mp hrun
    obtain ⟨rs', w₂, hsteps, hok⟩ := Act.bind_eq_ok.mp hrest
    cases hok
    have hs := of_report hreport
    simp only [deeds, hs, List.append_assoc]
    exact ih (h.step hs) hsteps

/-- Owners that have their events to themselves can all release them. -/
theorem accounts_foldl_drop (os : List Owner) {s : System} (h : s.Accounts ds)
    (hos : (os.map Owner.address).Nodup)
    (hmem : ∀ o ∈ os, o.address ∈ (Deed.left ds).map Prod.snd) :
    (os.foldl (fun s o => o.drop.after s) s).Accounts
      ((os.map fun o => Deed.released o.address).reverse ++ ds) := by
  induction os generalizing s ds with
  | nil => exact h
  | cons o os ih =>
    obtain ⟨hnew, hos⟩ := List.nodup_cons.mp hos
    have hdrop : (o.drop.after s).Accounts (.released o.address :: ds) :=
      h.release (hmem o List.mem_cons_self)
    have hrest := ih hdrop hos fun o' ho' => ?_
    · simpa using hrest
    · obtain ⟨e, he, hea⟩ := List.mem_map.mp (hmem o' (List.mem_cons_of_mem _ ho'))
      have hne : e.2 ≠ o.address := by
        intro heo
        exact hnew (List.mem_map.mpr ⟨o', ho', hea ▸ heo⟩)
      exact List.mem_map.mpr ⟨e, List.mem_filter.mpr ⟨he, decide_eq_true hne⟩, hea⟩

theorem World.map_address_owners (w : World) :
    w.owners.map Owner.address = w.vars.rows.filterMap fun row => row.2.owned? := by
  rw [World.owners, Table.values, List.filterMap_map, List.map_filterMap]
  refine List.filterMap_congr fun row _ => ?_
  rcases row with ⟨name, o | k⟩ <;> rfl

theorem World.Keeps.nodup_owners (h : w.Keeps ds) : (w.owners.map Owner.address).Nodup := by
  rw [w.map_address_owners]
  refine List.Pairwise.filterMap _ (fun r s hrs a ha b hb hab => ?_) h.apart
  exact (hrs.2 a).1 ha (Variable.address?_of_owned? (hab ▸ hb))

theorem World.Keeps.owner_present (h : w.Keeps ds) {o : Owner} (ho : o ∈ w.owners) :
    o.address ∈ (Deed.left ds).map Prod.snd := by
  have hmem : o.address ∈ w.owners.map Owner.address := List.mem_map_of_mem ho
  rw [w.map_address_owners] at hmem
  obtain ⟨row, hrow, howned⟩ := List.mem_filterMap.mp hmem
  exact h.present row hrow _ (Variable.address?_of_owned? howned)

/-- At the end of a script the owners that are left go away one after the other. -/
theorem World.system_finish (w : World) :
    w.finish.system =
      w.owners.foldl (fun s o => o.drop.after s) { w.system with logger.limit := none } := by
  show List.foldl _ _ _ = _
  congr 1
  funext s o
  rw [Attempt.after]
  cases o.drop s <;> rfl

/-- **At the end of a script** the owners that are left release their events, and no more. -/
theorem World.Keeps.finish (h : w.Keeps ds) :
    w.finish.system.Accounts
      ((w.owners.map fun o => Deed.released o.address).reverse ++ ds) := by
  rw [w.system_finish]
  exact accounts_foldl_drop w.owners (h.accounts.of_tenants rfl) h.nodup_owners
    fun o ho => h.owner_present ho

end Runs

/-- **Every event goes back once, to where it came from.** A script that makes sense runs to
its end. Wherever it is cut off, the memory, the cells and the ledgers are those that its
creations and deletions make, and they still are when the owners that are left have gone
away. -/
theorem released_once (setting : Setting) {limit : Option Level} {steps : List Step}
    (h : Sensible setting steps (World.start limit)) (n : Nat) :
    ∃ rs w, reports setting (steps.take n) (World.start limit) = .ok (rs, w) ∧
      w.system.Settles (deeds setting (steps.take n) (World.start limit)) ∧
      w.finish.system.Settles ((w.owners.map fun o => Deed.released o.address).reverse ++
        deeds setting (steps.take n) (World.start limit)) := by
  obtain ⟨rs, w, hrun⟩ := (h.take n).exists_reports
  have hkeeps := (World.keeps_start limit).run hrun
  rw [List.append_nil] at hkeeps
  exact ⟨rs, w, hrun, hkeeps.accounts.settles, hkeeps.finish.settles⟩

/-- An allocator that refuses one request of four, and a log sink that fails at a creation and
at a release. The address of the first event is used three times. -/
def shakyScript : List Step :=
  [.allocator "pool" (.only [1]), .new "a" (.named "pool"), .new "b" (.named "pool"),
    .intoHandle "a", .copy "c" "a" .raw, .armLog, .create "d" (.named "pool"),
    .armLog, .delete "c" .handle, .new "e" (.named "pool"), .createForeign "f",
    .null "e" .raw, .new "g" .system]

theorem released_once_shaky :
    (deeds {} shakyScript (World.start (some .trace))) =
      [.created .system (some ⟨4096, by decide⟩), .released ⟨4096, by decide⟩,
        .created .system (some ⟨4240, by decide⟩), .created (.ledger 0) (some ⟨4096, by decide⟩),
        .released ⟨4096, by decide⟩, .created (.ledger 0) (some ⟨4168, by decide⟩),
        .created (.ledger 0) none, .created (.ledger 0) (some ⟨4096, by decide⟩)] ∧
    Sensible {} shakyScript (World.start (some .trace)) ∧
    ∃ rs w, reports {} (shakyScript.take 9) (World.start (some .trace)) = .ok (rs, w) ∧
      w.system.Settles (deeds {} (shakyScript.take 9) (World.start (some .trace))) ∧
      w.finish.system.Settles ((w.owners.map fun o => Deed.released o.address).reverse ++
        deeds {} (shakyScript.take 9) (World.start (some .trace))) := by
  have hsensible : Sensible {} shakyScript (World.start (some .trace)) := by decide +kernel
  exact ⟨by decide +kernel, hsensible, released_once {} hsensible 9⟩

end Script

end AutoReset
