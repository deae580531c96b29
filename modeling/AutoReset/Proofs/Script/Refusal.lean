import AutoReset.Proofs.Script.Likeness
import Mathlib.Data.List.Forall2
/-!
# A refused creation is a null handle

Where there is no memory for an event, whoever asked for an owner is told so, and whoever asked
for a handle has the null handle. The allocator has been asked once more, there is one more
record if the logger takes it in, and that is all
(`AutoReset.System.Refuses`).

What follows is what would have followed if nobody had been asked, and the null handle had been
taken instead. There is one difference, and it is a matter of counting: an allocator of one's
own refuses requests by their numbers, and the request that was refused had one. With the same
plan the next request would be refused in its place (`AutoReset.Script.refusal_counts`). So the
other script is run with an allocator whose plan leaves that number out
(`AutoReset.Script.World.spared`). The two systems are then told apart by nothing but the account
of that allocator and the records of before (`AutoReset.System.Charged`), which no step looks at.

A null handle can be copied and handed around. Whatever is done with one, or with a copy of it,
has its answer at once and changes nothing (`AutoReset.Script.Step.run_onNull`).
-/

namespace AutoReset

/-! ### Plans and ledgers with one request less -/

namespace FailurePlan

/-- The plan in which the request with this number is left out, and those after it come one
earlier. -/
def without (n : Nat) : FailurePlan → FailurePlan
  | always => always
  | only numbers => only ((numbers.filter (· ≠ n)).map fun m => if m < n then m else m - 1)

/-- From the number that was left out on, every request is answered one earlier. -/
theorem fails_without (plan : FailurePlan) (n i : Nat) :
    (plan.without n).fails (n + i) = plan.fails (n + 1 + i) := by
  cases plan with
  | always => rfl
  | only numbers =>
    rw [Bool.eq_iff_iff]
    simp only [without, fails, List.contains_iff_mem, List.mem_map, List.mem_filter,
      decide_eq_true_eq]
    constructor
    · rintro ⟨m, ⟨hm, hne⟩, hmi⟩
      split at hmi
      · omega
      · have heq : m = n + 1 + i := by omega
        exact heq ▸ hm
    · intro hm
      exact ⟨n + 1 + i, ⟨hm, by omega⟩, by rw [if_neg (by omega)]; omega⟩

end FailurePlan

namespace Ledger

/-- The ledger after a request that was refused. -/
def asked (l : Ledger) : Ledger := { l with attempts := l.attempts + 1 }

/-- The ledger of an allocator that leaves its next request out of its plan. -/
def spared (l : Ledger) : Ledger := { l with plan := l.plan.without l.attempts }

/-- **Two accounts, of which the first one counts one request more**: no memory was found for
it, and from now on the same requests fail. -/
structure Charged (l l' : Ledger) : Prop where
  attempts : l.attempts = l'.attempts + 1
  total : l.total = l'.total
  mismatched : l.mismatched = l'.mismatched
  outstanding : l.outstanding = l'.outstanding
  fails : ∀ i, l.plan.fails (l.attempts + i) = l'.plan.fails (l'.attempts + i)

theorem charged_asked (l : Ledger) : l.asked.Charged l.spared :=
  ⟨rfl, rfl, rfl, rfl, fun i => (l.plan.fails_without l.attempts i).symm⟩

namespace Charged

variable {l l' : Ledger}

/-- Another request has the same answer. -/
theorem alloc (h : l.Charged l') (policy : Placement) (layout : Layout) (heap : Heap) :
    (l.alloc policy layout heap).1 = (l'.alloc policy layout heap).1 ∧
      (l.alloc policy layout heap).2.2 = (l'.alloc policy layout heap).2.2 ∧
      (l.alloc policy layout heap).2.1.Charged (l'.alloc policy layout heap).2.1 := by
  have hfails : l.plan.fails l.attempts = l'.plan.fails l'.attempts := h.fails 0
  have hnext : ∀ i, l.plan.fails (l.attempts + 1 + i) = l'.plan.fails (l'.attempts + 1 + i) := by
    intro i
    rw [Nat.add_assoc, Nat.add_assoc]
    exact h.fails (1 + i)
  have hattempts : l.attempts + 1 = l'.attempts + 1 + 1 := congrArg (· + 1) h.attempts
  simp only [Ledger.alloc, hfails]
  split
  · exact ⟨rfl, rfl, hattempts, h.total, h.mismatched, h.outstanding, hnext⟩
  · cases heap.alloc policy layout with
    | mk r heap' =>
      cases r with
      | none => exact ⟨rfl, rfl, hattempts, h.total, h.mismatched, h.outstanding, hnext⟩
      | some a =>
        exact ⟨rfl, rfl, hattempts, congrArg (· + 1) h.total, h.mismatched,
          congrArg (⟨a, layout⟩ :: ·) h.outstanding, hnext⟩

/-- Memory is given back alike. -/
theorem dealloc (h : l.Charged l') (a : Address) (layout : Layout) (heap : Heap) :
    (l.dealloc a layout heap).2 = (l'.dealloc a layout heap).2 ∧
      (l.dealloc a layout heap).1.Charged (l'.dealloc a layout heap).1 := by
  simp only [Ledger.dealloc, h.outstanding]
  cases l'.outstanding.find? fun b => b.address = a with
  | none =>
    exact ⟨rfl, h.attempts, h.total, congrArg (· + 1) h.mismatched, rfl, h.fails⟩
  | some b =>
    refine ⟨rfl, h.attempts, h.total, ?_, rfl, h.fails⟩
    simp only [h.mismatched]

end Charged

end Ledger

theorem Heap.alloc_of_none {policy : Placement} {layout : Layout} {heap : Heap}
    (h : (heap.alloc policy layout).1 = none) : heap.alloc policy layout = (none, heap) := by
  unfold Heap.alloc at h ⊢
  split at h
  · rfl
  · cases h

theorem Ledger.alloc_of_none {policy : Placement} {l : Ledger} {layout : Layout} {heap : Heap}
    (h : (l.alloc policy layout heap).1 = none) :
    l.alloc policy layout heap = (none, l.asked, heap) := by
  by_cases hfails : l.plan.fails l.attempts = true
  · simp only [Ledger.alloc, if_pos hfails]
    rfl
  · simp only [Ledger.alloc, if_neg hfails] at h ⊢
    cases halloc : heap.alloc policy layout with
    | mk r heap' =>
      rw [halloc] at h
      cases r with
      | none =>
        cases halloc.symm.trans (Heap.alloc_of_none (congrArg Prod.fst halloc))
        rfl
      | some a => cases h

/-! ### Systems that differ in one request -/

/-- Two accounts of the allocator with this number: they are the same, unless it is the one that
was asked once more. -/
def Origin.Charges (o : Origin) (k : Nat) (l l' : Ledger) : Prop :=
  if o = .ledger k then l.Charged l' else l = l'

namespace Origin.Charges

variable {o : Origin} {k : Nat} {l l' : Ledger}

theorem refl (h : o ≠ .ledger k) (l : Ledger) : o.Charges k l l := by
  rw [Charges, if_neg h]

theorem alloc (h : o.Charges k l l') (policy : Placement) (layout : Layout) (heap : Heap) :
    (l.alloc policy layout heap).1 = (l'.alloc policy layout heap).1 ∧
      (l.alloc policy layout heap).2.2 = (l'.alloc policy layout heap).2.2 ∧
      o.Charges k (l.alloc policy layout heap).2.1 (l'.alloc policy layout heap).2.1 := by
  unfold Charges at h ⊢
  split at h
  · next hk =>
    simp only [if_pos hk]
    exact h.alloc policy layout heap
  · next hk =>
    subst h
    simp only [if_neg hk, and_self]

theorem dealloc (h : o.Charges k l l') (a : Address) (layout : Layout) (heap : Heap) :
    (l.dealloc a layout heap).2 = (l'.dealloc a layout heap).2 ∧
      o.Charges k (l.dealloc a layout heap).1 (l'.dealloc a layout heap).1 := by
  unfold Charges at h ⊢
  split at h
  · next hk =>
    simp only [if_pos hk]
    exact h.dealloc a layout heap
  · next hk =>
    subst h
    simp only [if_neg hk, and_self]

end Origin.Charges

namespace System

open Attempt

/-- **Two systems, of which the first one has refused a request that the other one never got.**
The events and the memory are the same, and so is what has been put on record since. -/
structure Charged (o : Origin) (before before' : List Record) (s s' : System) : Prop where
  heap : s'.heap = s.heap
  cells : s'.cells = s.cells
  count : s'.ledgers.length = s.ledgers.length
  known : ∀ k, o = .ledger k → k < s.ledgers.length
  ledgers : ∀ k l l', s.ledgers[k]? = some l → s'.ledgers[k]? = some l' → o.Charges k l l'
  limit : s'.logger.limit = s.logger.limit
  unarmed : s.Unarmed
  unarmed' : s'.Unarmed
  records : ∃ since, s.logger.records = before ++ since ∧ s'.logger.records = before' ++ since

namespace Charged

variable {o : Origin} {before before' : List Record} {s s' : System}

/-- One account can be brought up to date in both. -/
theorem set (h : Charged o before before' s s') {k : Nat} {l l' : Ledger}
    (hl : o.Charges k l l') (heap : Heap) :
    Charged o before before' { s with heap, ledgers := s.ledgers.set k l }
      { s' with heap, ledgers := s'.ledgers.set k l' } where
  heap := rfl
  cells := h.cells
  count := by simp only [List.length_set, h.count]
  known := by simpa only [List.length_set] using h.known
  ledgers := by
    intro j m m' hm hm'
    rw [List.getElem?_set] at hm hm'
    by_cases hj : k = j
    · subst hj
      rw [if_pos rfl] at hm hm'
      split at hm
      · next hlt =>
        rw [if_pos (h.count ▸ hlt)] at hm'
        cases hm
        cases hm'
        exact hl
      · cases hm
    · rw [if_neg hj] at hm hm'
      exact h.ledgers j m m' hm hm'
  limit := h.limit
  unarmed := h.unarmed
  unarmed' := h.unarmed'
  records := h.records

/-- The same allocators are there. -/
theorem ledger?_cases (h : Charged o before before' s s') (k : Nat) :
    (s.ledger? k = none ∧ s'.ledger? k = none) ∨
      ∃ l l', s.ledger? k = some l ∧ s'.ledger? k = some l' ∧ o.Charges k l l' := by
  cases hl : s.ledger? k with
  | none =>
    refine Or.inl ⟨rfl, ?_⟩
    have hlen := List.getElem?_eq_none_iff.mp hl
    exact List.getElem?_eq_none_iff.mpr (h.count ▸ hlen)
  | some l =>
    obtain ⟨hlt, -⟩ := List.getElem?_eq_some_iff.mp hl
    have hlt' : k < s'.ledgers.length := h.count ▸ hlt
    exact Or.inr ⟨l, _, rfl, List.getElem?_eq_getElem hlt',
      h.ledgers k l _ hl (List.getElem?_eq_getElem hlt')⟩

/-- The same allocator can be set up in both. -/
theorem setUp (h : Charged o before before' s s') (l : Ledger) :
    Charged o before before' { s with ledgers := s.ledgers ++ [l] }
      { s' with ledgers := s'.ledgers ++ [l] } where
  heap := h.heap
  cells := h.cells
  count := by simp only [List.length_append, h.count]
  known := by
    intro k hk
    have hlt := h.known k hk
    simp only [List.length_append]
    omega
  ledgers := by
    intro k m m' hm hm'
    rw [List.getElem?_append] at hm hm'
    rw [h.count] at hm'
    split at hm
    · next hlt =>
      rw [if_pos hlt] at hm'
      exact h.ledgers k m m' hm hm'
    · next hge =>
      rw [if_neg hge] at hm'
      cases hm.symm.trans hm'
      exact .refl (fun hk => hge (h.known k hk)) m
  limit := h.limit
  unarmed := h.unarmed
  unarmed' := h.unarmed'
  records := h.records

theorem noted (h : Charged o before before' s s') (r : Record) :
    Charged o before before' (s.noted r) (s'.noted r) := by
  have hadmits : s'.logger.admits r.level = s.logger.admits r.level := by
    rw [Logger.admits, Logger.admits, h.limit]
  refine ⟨h.heap, h.cells, h.count, h.known, h.ledgers, ?_, unarmed_noted h.unarmed r,
    unarmed_noted h.unarmed' r, ?_⟩
  · simp only [System.noted, Logger.noted, hadmits]
    split <;> exact h.limit
  · obtain ⟨since, hs, hs'⟩ := h.records
    simp only [System.noted, Logger.noted, hadmits]
    split
    · exact ⟨since ++ [r], by rw [hs, List.append_assoc], by rw [hs', List.append_assoc]⟩
    · exact ⟨since, hs, hs'⟩

end Charged

/-- **A request more or less is not seen** by any operation. -/
theorem congruence_charged (policy : Placement) (o : Origin) (before before' : List Record) :
    Congruence policy (Charged o before before') where
  cell := fun h a => congrFun h.cells a
  place := by
    intro s s' h a c
    exact { h with cells := by simp only [place, h.cells] }
  log := by
    intro r s s' h
    simp only [outcome, after, log_of_unarmed h.unarmed, log_of_unarmed h.unarmed']
    exact ⟨trivial, h.noted r⟩
  ask := by
    intro s s' h o'
    cases o' with
    | system =>
      simp only [askMemory, h.heap]
      exact ⟨trivial, { h with heap := rfl }⟩
    | ledger k =>
      rcases h.ledger?_cases k with ⟨hl, hl'⟩ | ⟨l, l', hl, hl', hcharges⟩
      · simp only [askMemory, hl, hl']
        exact ⟨trivial, h⟩
      · obtain ⟨hr, hheap, hnext⟩ := hcharges.alloc policy Cell.layout s.heap
        simp only [askMemory, hl, hl', h.heap, hr, hheap]
        exact ⟨trivial, h.set hnext _⟩
  giveBack := by
    intro s s' h o' a
    cases o' with
    | system =>
      simp only [giveBack, h.heap]
      exact { h with heap := rfl }
    | ledger k =>
      rcases h.ledger?_cases k with ⟨hl, hl'⟩ | ⟨l, l', hl, hl', hcharges⟩
      · simp only [giveBack, hl, hl']
        exact h
      · obtain ⟨hheap, hnext⟩ := hcharges.dealloc a Cell.layout s.heap
        simp only [giveBack, hl, hl', h.heap, hheap]
        exact h.set hnext _
  setUp := by
    intro plan s s' h
    refine ⟨congrArg Except.ok h.count, h.setUp { plan }⟩

/-! ### A request that is refused -/

variable {policy : Placement} {o : Origin} {s : System}

/-- The system after a request for the memory of an event was refused. -/
def refused (o : Origin) (s : System) : System :=
  ({ s with ledgers := o.onLedger Ledger.asked s.ledgers }).noted
    (.allocationFailed Cell.layout.size)

/-- A request that is refused leaves the memory as it is, and is entered in the ledger of its
origin. -/
theorem askMemory_of_none (h : (s.askMemory policy o).1 = none) :
    s.askMemory policy o = (none, { s with ledgers := o.onLedger Ledger.asked s.ledgers }) := by
  cases o with
  | system =>
    simp only [askMemory] at h ⊢
    rw [Heap.alloc_of_none h]
    rfl
  | ledger k =>
    cases hl : s.ledger? k with
    | none =>
      simp only [askMemory, hl, Origin.onLedger_ledger_of_none hl]
    | some l =>
      simp only [askMemory, hl] at h ⊢
      rw [Ledger.alloc_of_none h, Origin.onLedger_ledger_of_some hl]

/-- **What a refusal is to whoever asked, and what it leaves behind**: nothing but the request
in the account of the allocator, and one record. -/
structure Refuses (policy : Placement) (o : Origin) (s : System) : Prop where
  /-- Whoever asked for an owner is refused. -/
  owner : Owner.create policy o s = .ok (.error .allocationFailure) (s.refused o)
  /-- Whoever asked for a handle has the null handle. -/
  handle : Handle.create policy o s = .ok .null (s.refused o)
  /-- Whoever asked for a number has zero. -/
  foreign : o = .system → Foreign.create policy s = .ok 0 (s.refused o)
  /-- The events are as they were. -/
  events : ∀ a, (s.refused o).cell? a = s.cell? a
  /-- The memory is as it was. -/
  memory : (s.refused o).heap = s.heap
  /-- One allocator was asked once more, and the others were not. -/
  accounts : ∀ k l, s.ledger? k = some l →
    (s.refused o).ledger? k = some (if o = .ledger k then l.asked else l)
  /-- There is one record, if the logger takes in warnings. -/
  records : (s.refused o).logger.records = s.logger.records ++
    if s.logger.admits .warn then [.allocationFailed Cell.layout.size] else []

theorem create_of_none (hs : s.Unarmed) (h : (s.askMemory policy o).1 = none) :
    create policy o s = .ok none (s.refused o) := by
  rw [create_of_unarmed hs, h, askMemory_of_none h]
  rfl

theorem refuses_of_none (hs : s.Unarmed) (h : (s.askMemory policy o).1 = none) :
    s.Refuses policy o := by
  have hcreate := create_of_none hs h
  constructor
  case owner => rw [Owner.create_eq_map, map_apply, hcreate]
  case handle =>
    rw [Handle.create_eq_map, map_apply, hcreate]
    rfl
  case foreign =>
    rintro rfl
    rw [Foreign.create_eq_map, Handle.create_eq_map, map_apply, map_apply, hcreate]
    rfl
  case events => exact fun _ => rfl
  case memory => rfl
  case accounts =>
    intro k l hl
    show (o.onLedger Ledger.asked s.ledgers)[k]? = _
    rw [Origin.getElem?_onLedger]
    rw [show s.ledgers[k]? = some l from hl]
    split <;> rfl
  case records =>
    show ((s.logger.noted _).records) = _
    unfold Logger.noted
    show (if s.logger.admits .warn then _ else _ : Logger).records = _
    split <;> simp

end System

namespace Script

/-! ### What is done with a null handle -/

namespace Step

/-- The answer that a step on the null handle has at once. -/
def onNull? : Step → Option Answer
  | .copy _ _ _ => some (.handle true)
  | .isNull _ => some (.truth true)
  | .signal _ _ => some (.released 0)
  | .wait _ _ => some .returned
  | .tryWait _ => some (.truth false)
  | .delete _ _ => some .nothing
  | .intoOwner _ => some .noOwner
  | _ => none

section Null

variable {setting : Setting} {w : World} {s : Step} {v : String} {answer : Answer}

/-- **Whatever is done with the null handle** has its answer at once, and changes no event, no
allocator and no record. A copy of it is the null handle. -/
theorem run_onNull (hs : s.onNull? = some answer) (hv : s.operands = [v])
    (hx : w.vars.get? v = some (.handle .null))
    (hroom : ∀ u, s.target? = some u → w.owned? u = none) :
    ∃ w', s.run setting w = .ok (answer, w') ∧ w'.system = w.system ∧
      w'.allocators = w.allocators ∧ s.subject?.bind w'.cell? = none := by
  have hnone : ∀ {w : World} {v : String}, w.vars.get? v = some (.handle .null) →
      w.cell? v = none := fun hv => World.cell?_of_address?_eq_none (World.address?_eq hv)
  cases s with
  | copy u source via =>
    cases hs
    cases hv
    exact ⟨w.assigned u (.handle .null), Step.run_copy via hx,
      World.displaced_of_owned?_eq_none (hroom u rfl) _, rfl, hnone (w.get?_assigned_self ..)⟩
  | isNull u =>
    cases hs
    cases hv
    exact ⟨w, Step.run_isNull hx, rfl, rfl, hnone hx⟩
  | signal u via | wait u via =>
    cases hs
    cases hv
    refine ⟨w, (Step.run_of_call rfl hx rfl).trans ?_, rfl, rfl, hnone hx⟩
    cases via <;> rfl
  | tryWait u =>
    cases hs
    cases hv
    exact ⟨w, (Step.run_of_call rfl hx rfl).trans rfl, rfl, rfl, hnone hx⟩
  | delete u via =>
    cases hs
    cases hv
    exact ⟨w, Step.run_delete via hx, rfl, rfl, hnone hx⟩
  | intoOwner u =>
    cases hs
    cases hv
    refine ⟨{ w with vars := w.vars.erase v }, Step.run_intoOwner hx, rfl, rfl, ?_⟩
    refine World.cell?_of_address?_eq_none ?_
    rw [World.address?, Table.get?_erase_self]
    rfl
  | _ => cases hs

/-- The names of a null handle after a step: a copy of it has one more, and what is filled with
something else, or turned into nothing, is no name of it any more. -/
def nullNames (names : List String) : Step → List String
  | .copy u source _ => if source ∈ names then u :: names else names.filter (· ≠ u)
  | .intoOwner v => names.filter (· ≠ v)
  | s => names.filter fun v => s.target? ≠ some v

/-- **A null handle stays one**, and so does every copy. -/
theorem null_of_run {names : List String} {w' : World} (hw : w.Distinct)
    (hnull : ∀ v ∈ names, w.vars.get? v = some (.handle .null))
    (hrun : s.run setting w = .ok (answer, w')) :
    ∀ v ∈ s.nullNames names, w'.vars.get? v = some (.handle .null) := by
  intro v hv
  have hstays : v ∈ names → s.target? ≠ some v → s ≠ .intoOwner v →
      w'.vars.get? v = some (.handle .null) := fun hmem htarget howner =>
    Step.get?_of_run hw hrun (hnull v hmem) htarget (fun _ _ _ _ => nofun) howner
  cases s with
  | copy u source via =>
    obtain ⟨k, hk, rfl, rfl⟩ := Step.of_copy hrun
    simp only [nullNames] at hv
    by_cases hvu : v = u
    · subst hvu
      split at hv
      · next hsource =>
        cases hk.symm.trans (hnull source hsource)
        exact w.get?_assigned_self ..
      · simp at hv
    · have hmem : v ∈ names := by
        split at hv
        · simpa [hvu] using hv
        · exact (List.mem_filter.mp hv).1
      exact hstays hmem (fun h => hvu (Option.some.inj h).symm) nofun
  | intoOwner u =>
    obtain ⟨hmem, hne⟩ := List.mem_filter.mp hv
    have hvu : v ≠ u := by simpa using hne
    exact hstays hmem nofun fun h => hvu (Step.intoOwner.inj h).symm
  | _ =>
    obtain ⟨hmem, hne⟩ := List.mem_filter.mp hv
    exact hstays hmem (by simpa using hne) nofun

end Null

end Step

/-- Over a part of a script a null handle stays one under all the names that it has. -/
theorem null_of_reports {setting : Setting} {steps : List Step} {w w' : World} {ds : List Deed}
    {rs : List Report} {names : List String} (hw : w.Keeps ds)
    (hnull : ∀ v ∈ names, w.vars.get? v = some (.handle .null))
    (hrun : reports setting steps w = .ok (rs, w')) :
    ∀ v ∈ steps.foldl Step.nullNames names, w'.vars.get? v = some (.handle .null) := by
  induction steps generalizing w ds rs names with
  | nil =>
    cases hrun
    exact hnull
  | cons s steps ih =>
    obtain ⟨answer, w₁, rs₁, hstep, hrest, rfl⟩ := exists_of_reports_cons hrun
    exact ih (hw.step hstep) (Step.null_of_run hw.distinct hnull hstep) hrest

/-! ### The rest of the script -/

/-- **Two reports that say the same**, but for one request more in one of the accounts. -/
structure Report.Charged (r r' : Report) : Prop where
  /-- The answers are equal. -/
  answer : r.answer = r'.answer
  /-- The flag, the counters and the number of sleepers are equal. -/
  view : r.view = r'.view
  /-- The accounts are equal, but for one request more in one of them. -/
  ledgers : List.Forall₂
    (fun row row' => row.1 = row'.1 ∧ (row.2 = row'.2 ∨ row.2.Charged row'.2))
    r.ledgers.rows r'.ledgers.rows
  /-- The records are equal. -/
  log : r.log = r'.log

namespace World

variable {w w' w₁ w₁' : World} {o : Origin} {before before' : List Record}

/-- Is there no memory for an event from this source? -/
def Refuses (policy : Placement) (w : World) (memory : Source) : Prop :=
  ∀ o ∈ w.origin? memory, (w.system.askMemory policy o).1 = none

instance (policy : Placement) (w : World) (memory : Source) :
    Decidable (w.Refuses policy memory) :=
  inferInstanceAs (Decidable (∀ o ∈ w.origin? memory, (w.system.askMemory policy o).1 = none))

/-- The world in which the allocator leaves its next request out of its plan. -/
def spared (o : Origin) (w : World) : World :=
  { w with system.ledgers := o.onLedger Ledger.spared w.system.ledgers }

/-- The world after a request was refused. -/
def refused (o : Origin) (w : World) : World := { w with system := w.system.refused o }

/-- **A request that was refused** is the one that the other world leaves out. -/
theorem like_spared (hs : w.system.Unarmed)
    (hknown : ∀ k, o = .ledger k → k < w.system.ledgers.length) :
    (w.refused o).Like
      (System.Charged o (w.refused o).system.logger.records w.system.logger.records)
      (w.spared o) where
  system := by
    have hlength : ∀ f : Ledger → Ledger,
        (o.onLedger f w.system.ledgers).length = w.system.ledgers.length :=
      fun f => Origin.length_onLedger f w.system.ledgers o
    constructor
    case heap => rfl
    case cells => rfl
    case count => exact (hlength _).trans (hlength _).symm
    case known => exact fun k hk => Nat.lt_of_lt_of_eq (hknown k hk) (hlength _).symm
    case ledgers =>
      intro k l l' hl hl'
      replace hl : (o.onLedger Ledger.asked w.system.ledgers)[k]? = some l := hl
      replace hl' : (o.onLedger Ledger.spared w.system.ledgers)[k]? = some l' := hl'
      rw [Origin.getElem?_onLedger] at hl hl'
      unfold Origin.Charges
      split
      · next hk =>
        rw [if_pos hk] at hl hl'
        obtain ⟨m, hm, rfl⟩ := Option.map_eq_some_iff.mp hl
        cases (Option.map_eq_some_iff.mpr ⟨m, hm, rfl⟩).symm.trans hl'
        exact m.charged_asked
      · next hk =>
        rw [if_neg hk] at hl hl'
        exact Option.some.inj (hl.symm.trans hl')
    case limit =>
      show w.system.logger.limit = (Logger.noted _ _).limit
      unfold Logger.noted
      split <;> rfl
    case unarmed => exact System.unarmed_noted hs _
    case unarmed' => exact hs
    case records => exact ⟨[], (List.append_nil _).symm, (List.append_nil _).symm⟩
  vars := rfl
  allocators := rfl

/-- What is reported of a step that is made in both. -/
theorem charged_between (s : Step) (answer : Answer)
    (h : w.Like (System.Charged o before before') w')
    (h₁ : w₁.Like (System.Charged o before before') w₁') :
    (Report.between s answer w w₁).Charged (.between s answer w' w₁') where
  answer := rfl
  view := by
    have hcell : w₁'.cell? = w₁.cell? := by
      funext v
      rw [cell?, cell?, h₁.vars]
      exact congrArg (Option.bind _) h₁.system.cells
    show Option.map _ _ = Option.map _ _
    rw [hcell]
  ledgers := by
    show List.Forall₂ _ w₁.ledgers.rows w₁'.ledgers.rows
    rw [ledgers, ledgers, h₁.allocators]
    refine List.rel_filterMap (R := Eq) ?_ (List.forall₂_refl _)
    rintro ⟨name, k⟩ _ rfl
    rcases h₁.system.ledger?_cases k with ⟨hl, hl'⟩ | ⟨l, l', hl, hl', hcharges⟩
    · simp only [hl, hl', Option.map_none]
      exact .none
    · simp only [hl, hl', Option.map_some]
      refine .some ⟨rfl, ?_⟩
      unfold Origin.Charges at hcharges
      split at hcharges
      · exact Or.inr hcharges
      · exact Or.inl hcharges
  log := by
    obtain ⟨since, hs, hs'⟩ := h.system.records
    obtain ⟨since₁, hs₁, hs₁'⟩ := h₁.system.records
    show List.drop _ _ = List.drop _ _
    rw [hs, hs', hs₁, hs₁', List.length_append, List.length_append,
      List.drop_length_add_append, List.drop_length_add_append]

end World

/-- **A refused creation is a null handle.** Whoever asked is told so, and nothing is left
behind but a request in the account of the allocator and one record. The rest of the script is
what it would have been if the null handle had been taken instead, or for an owner if nobody had
asked, and the allocator had not counted the request. Whatever is done in it with that handle,
by any of its names, has its answer at once and changes nothing. -/
theorem refused_is_null (setting : Setting) {limit : Option Level} {pre rest : List Step}
    {s : Step} {c : Creation} (hc : s.creation? = some c)
    (h : Sensible setting (pre ++ s :: rest) (World.start limit))
    (harm : .armLog ∉ pre ++ s :: rest)
    (hnone : ∀ p ∈ (reports setting pre (World.start limit)).toOption,
      p.2.Refuses setting.policy c.memory) :
    ∃ rs w o, reports setting pre (World.start limit) = .ok (rs, w) ∧
      w.origin? c.memory = some o ∧ w.system.Refuses setting.policy o ∧
      ∃ w₁, s.run setting w = .ok (c.answer none, w₁) ∧
        w₁ = (w.refused o).hold c.target (c.held none) ∧
        -- the rest of the script
        (∃ rs₁ w₂ w₁' rs₁' w₂', reports setting rest w₁ = .ok (rs₁, w₂) ∧
          (if c.owned then w₁' = w.spared o
            else ∀ source, (Step.null c.target source).run setting (w.spared o) =
              .ok (.handle true, w₁')) ∧
          reports setting rest w₁' = .ok (rs₁', w₂') ∧ List.Forall₂ Report.Charged rs₁ rs₁' ∧
          w₂.Like (System.Charged o (w.refused o).system.logger.records
            w.system.logger.records) w₂') ∧
        -- what is done with the handle
        (c.owned = false → ∀ mid s' post, rest = mid ++ s' :: post →
          ∀ v ∈ mid.foldl Step.nullNames [c.target], s'.operands = [v] →
            ∀ answer, s'.onNull? = some answer →
              ∃ rs₂ w₂, reports setting mid w₁ = .ok (rs₂, w₂) ∧
                ((∀ u, s'.target? = some u → w₂.owned? u = none) →
                  ∃ w₃, s'.report setting w₂ = .ok (⟨answer, none, w₂.ledgers, []⟩, w₃) ∧
                    w₃.system = w₂.system)) := by
  obtain ⟨rs, w₂, hrun⟩ := h.exists_reports
  obtain ⟨rs₀, w, rs₁, hpre, hsteps, rfl⟩ := exists_of_reports_append hrun
  obtain ⟨answer, w₁, rs₂, hstep, hrest, rfl⟩ := exists_of_reports_cons hsteps
  have hkeeps := (World.keeps_start limit).run hpre
  have hstart : (World.start limit).system.Unarmed := rfl
  have hunarmed : w.system.Unarmed :=
    unarmed_of_reports hstart (fun hmem => harm (List.mem_append_left _ hmem)) hpre
  have harm' : .armLog ∉ rest := fun hmem =>
    harm (List.mem_append_right _ (List.mem_cons_of_mem _ hmem))
  obtain ⟨o, ho⟩ := Step.exists_origin hc hstep
  have hask : (w.system.askMemory setting.policy o).1 = none :=
    hnone (rs₀, w) (by rw [hpre]; rfl) o ho
  have hfirst := (Step.run_of_creation hc ho).symm.trans hstep
  rw [World.afterCreate, Attempt.outcome, Attempt.after, System.create_of_none hunarmed hask]
    at hfirst
  cases hfirst
  refine ⟨rs₀, w, o, hpre, ho, System.refuses_of_none hunarmed hask, _, hstep, rfl, ?_, ?_⟩
  · have hcongr := System.congruence_charged setting.policy o (w.refused o).system.logger.records
      w.system.logger.records
    have hlike := (World.like_spared hunarmed (hkeeps.known ho)).hold hcongr c.target (c.held none)
    obtain ⟨rs₁', w₂', hrest', hreports, hlike'⟩ :=
      hlike.run hcongr harm' World.charged_between hrest
    refine ⟨rs₂, w₂, _, rs₁', w₂', hrest, ?_, hrest', hreports, hlike'⟩
    unfold Creation.held
    split
    · rfl
    · exact fun source => Step.run_null source
  · intro howned mid s' post hmid v hv hops answer hanswer
    subst hmid
    obtain ⟨rs₁, w₃, rs₃, hbefore, -, -⟩ := exists_of_reports_append hrest
    refine ⟨rs₁, w₃, hbefore, fun hroom => ?_⟩
    have hnull : ∀ u ∈ [c.target],
        ((w.refused o).hold c.target (c.held none)).vars.get? u = some (.handle .null) := by
      intro u hu
      cases List.mem_singleton.mp hu
      rw [Creation.held, howned]
      exact World.get?_assigned_self ..
    have hx := null_of_reports (hkeeps.step hstep) hnull hbefore v hv
    obtain ⟨w₄, hquiet, hsystem, hallocators, hview⟩ := Step.run_onNull hanswer hops hx hroom
    refine ⟨w₄, (Step.report_of_run hquiet).trans ?_, hsystem⟩
    rw [Report.between, hview, hsystem, List.drop_length, World.ledgers, World.ledgers, hsystem,
      hallocators]
    rfl

/-- An allocator that refuses its second request, and an event with a signal pending. -/
def beforeRefusal : List Step :=
  [.allocator "pool" (.only [1, 3]), .new "a" (.named "pool"), .signal "a" .handle]

/-- The null handle is copied and handed around, and the allocator is asked again. -/
def afterRefusal : List Step :=
  [.copy "m" "n" .raw, .signal "m" .foreign, .wait "n" .handle, .tryWait "m",
    .create "b" (.named "pool"), .create "c" (.named "pool"), .delete "m" .foreign,
    .tryWait "a", .intoOwner "n"]

theorem refused_is_null_pool :
    ((beforeRefusal ++ afterRefusal).foldl Step.nullNames ["n"] = ["m"]) ∧
    Sensible {} (beforeRefusal ++ .create "n" (.named "pool") :: afterRefusal)
      (World.start (some .warn)) ∧
    ∃ rs w o, reports {} beforeRefusal (World.start (some .warn)) = .ok (rs, w) ∧
      w.system.Refuses .firstFit o ∧
      ∃ w₁ rs₁ w₂ w₁' rs₁' w₂',
        (Step.create "n" (.named "pool")).run {} w = .ok (.handle true, w₁) ∧
        reports {} afterRefusal w₁ = .ok (rs₁, w₂) ∧
        (Step.null "n" .default).run {} (w.spared o) = .ok (.handle true, w₁') ∧
        reports {} afterRefusal w₁' = .ok (rs₁', w₂') ∧ List.Forall₂ Report.Charged rs₁ rs₁' := by
  have hsensible : Sensible {} (beforeRefusal ++ .create "n" (.named "pool") :: afterRefusal)
      (World.start (some .warn)) := by decide +kernel
  have hnone : ∀ p ∈ (reports {} beforeRefusal (World.start (some .warn))).toOption,
      p.2.Refuses .firstFit (.named "pool") := by decide +kernel
  obtain ⟨rs, w, o, hpre, -, hrefuses, w₁, hstep, -, ⟨rs₁, w₂, w₁', rs₁', w₂', hrest, hnull, hrest',
    hreports, -⟩, -⟩ := refused_is_null {} (s := .create "n" (.named "pool")) rfl hsensible
      (by simp [beforeRefusal, afterRefusal]) hnone
  exact ⟨by decide +kernel, hsensible, rs, w, o, hpre, hrefuses, w₁, rs₁, w₂, w₁', rs₁', w₂', hstep,
    hrest, hnull .default, hrest', hreports⟩

/-- An allocator that refuses its first request, a variable that is filled by this step, and an
event in the memory of the allocator. -/
def countedScript (s : Step) : List Step :=
  [.allocator "pool" (.only [0]), s, .isNull "a", .create "b" (.named "pool"),
    .signal "b" .handle, .tryWait "b"]

/-- **The request that was refused has been counted.** The creation gives a null handle, just as
if one had been taken; but then the allocator refuses its first request to the next creation
instead. -/
theorem refusal_counts :
    Sensible {} (countedScript (.create "a" (.named "pool"))) (World.start none) ∧
      truths {} (countedScript (.create "a" (.named "pool"))) = some [true, true] ∧
      Sensible {} (countedScript (.null "a" .constant)) (World.start none) ∧
      truths {} (countedScript (.null "a" .constant)) = some [true, false] :=
  ⟨by decide +kernel, by decide +kernel, by decide +kernel, by decide +kernel⟩

end Script

end AutoReset
